import WalletConversion.Application.Reference
import WalletConversion.Foundation.Phases
import WalletConversion.Ledger.SteadyCalls

/-!
# Foreign events

The execution consumer takes whatever is in its queue. `foreign_event_harmless` says what an
execution can do whose payload does not agree with the conversion it names (`Allowed`), on arbitrary
tables and among any other calls: each of its steps leaves the committed tables as they were, or
advances the conversion that is bound to its event from `FUNDS_RESERVED` to `EXECUTION_REQUESTED`.
The step has to be allowed for, since the code takes it before it looks at the payload.
-/

namespace WalletConversion

open Transactional Relation

namespace Ledger

variable {env : Platform} {s₀ s : System} {pid : ℕ}
  {p : Proc Write Stmt Stmt.Result Thrown Task TaskResult}
  {payload : ConversionExecutionRequestedPayload} {inputs : ExecuteInputs}

/-- **Terms are kept along a run.** -/
theorem keepsTerms_of_wanders (hempty : s₀.procs = ∅) {a b : System} (ha : System.Wanders env s₀ a)
    (h : System.Wanders env a b) : KeepsTerms a.db b.db := by
  induction h with
  | refl => exact .refl _
  | tail hab hstep ih =>
    have hsteady := steadfast_of_wanders hempty (ReflTransGen.trans ha hab)
    rcases hsteady.change_of_step hstep with heq | ⟨_, _, _, _, _, _, _, _, _, _, hterms, -⟩
    · rwa [heq]
    · exact ih.trans hterms

/-- A payload that is foreign at the end of a run was foreign all along. -/
theorem not_allowed_of_wanders (hempty : s₀.procs = ∅) {a b : System}
    (ha : System.Wanders env s₀ a) (h : System.Wanders env a b)
    (hforeign : ¬ Allowed env payload b.db) : ¬ Allowed env payload a.db :=
  fun hallowed ↦ hforeign (hallowed.of_keepsTerms (keepsTerms_of_wanders hempty ha h))

/-- **A foreign event has no effect on money.** Take an execution, in a run from arbitrary tables
among any other calls, whose payload does not agree with the conversion it names. Each of its steps
has left the tables as they were, or has advanced that conversion. It is not about to ask the
exchange, nor about to issue a statement of a settlement. If it has returned, it has skipped an
event that was processed before. -/
theorem foreign_event_harmless (hempty : s₀.procs = ∅) (hrun : System.Wanders env s₀ s)
    (hp : s.procs.lookup pid = some p) (htask : p.task = .execute payload inputs)
    (hforeign : ¬ Allowed env payload s.db) :
    (∀ a b, System.Wanders env s₀ a → a.step postgres (Task.program env) (.run pid) = some b →
      System.Wanders env b s → b.db = a.db ∨ Advances payload a.db b.db) ∧
    (p.live = true → ∀ st k, p.rest = .call st k →
      p.pending = none ∧ ∀ data, st ≠ .insertExchange data) ∧
    (p.live = true → ∀ report, p.rest = .ret (.execution report) →
      report = .replay ∧ s.db.processed.lookup payload.eventId ≠ none) := by
  have hsteady := steadfast_of_wanders hempty hrun
  refine ⟨fun a b ha hab hbs ↦ ?_, fun hlive st k hrest ↦ ?_, fun hlive report hrest ↦ ?_⟩
  · have hb : System.Wanders env s₀ b := ha.tail ⟨_, fun _ _ h ↦ (by cases h), hab, trivial⟩
    rcases (steadfast_of_wanders hempty ha).change_of_move hab trivial with
      heq | ⟨j, q, q', _, hj, hq, -, hq', htask', -, -, -, -, hachieves⟩
    · exact .inl heq
    cases hj
    -- the call that moves is the one the run ends with
    obtain ⟨p', _, hp', htasks, -⟩ := State.history_of_reaches hbs hq'
    rw [hp, Option.some.injEq] at hp'
    subst hp'
    rw [← htask', ← htasks, htask] at hachieves
    rcases hachieves with heq | hadvances | hallowed
    · exact .inl heq
    · exact .inr hadvances
    · exact absurd hallowed (not_allowed_of_wanders hempty ha (.trans (.single
        ⟨_, fun _ _ h ↦ (by cases h), hab, trivial⟩) hbs) hforeign)
  · have hdemand := hsteady.demand hp hlive hrest payload inputs htask
    refine ⟨?_, fun data hdata ↦ hforeign (hdemand (.inr ⟨data, hdata⟩))⟩
    by_contra hopen
    exact hforeign (hdemand (.inl hopen))
  · have hend := (hsteady.post_of_ret hp hlive hrest).2
    rw [htask] at hend
    exact (hend report rfl).resolve_right hforeign

/-! ### A run with a foreign event -/

/-- Calls that were started go on. -/
theorem wanders_of_steps {s s' : System} {ms : List (Move Task)} (hms : ∀ m ∈ ms, m.spawned = none)
    (h : s.steps postgres (Task.program env) ms = some s') : System.Wanders env s s' := by
  induction ms generalizing s with
  | nil =>
    cases h
    exact .refl
  | cons m ms ih =>
    obtain ⟨s₁, hs₁, hrest⟩ := Option.bind_eq_some_iff.1 h
    refine .head ⟨m, fun pid t he ↦ ?_, hs₁, trivial⟩
      (ih (fun m' hm' ↦ hms m' (List.mem_cons_of_mem _ hm')) hrest)
    have hnone := hms m List.mem_cons_self
    rw [he] at hnone
    cases hnone

/-- A call is started and goes on. -/
theorem wanders_of_call {s s' : System} {t : Task} {n : ℕ} (ht : Startable s t)
    (h : s.steps postgres (Task.program env) (callFor pid t n) = some s') :
    System.Wanders env s s' ∧ ∃ p, s'.procs.lookup pid = some p ∧ p.task = t := by
  obtain ⟨s₁, hs₁, hrest⟩ := Option.bind_eq_some_iff.1 h
  have hwanders : System.Wanders env s₁ s' := wanders_of_steps (fun m hm ↦ by
    rw [List.eq_of_mem_replicate hm]
    rfl) hrest
  constructor
  · refine .head ⟨.spawn pid t, ?_, hs₁, trivial⟩ hwanders
    rintro _ _ ⟨⟩
    exact ht
  · obtain ⟨p, _, hp, htask, -⟩ :=
      State.history_of_reaches hwanders (State.lookup_of_spawn hs₁)
    exact ⟨p, hp, htask⟩

/-- The event of the conversion, but of another type. -/
def foreignPayload : ConversionExecutionRequestedPayload :=
  { samplePayload with eventType := "ConversionExecutionCompleted" }

/-- A foreign event is executed after the accept: it advances the conversion, and throws. -/
theorem foreign_event_harmless_sample : ∃ s : System,
    (s.procs.lookup 3).any (fun p ↦ p.rest matches .raise _) = true ∧
    (s.db.conversions.lookup "c-1").any (fun r ↦ decide (r.status = .EXECUTION_REQUESTED)) = true ∧
    ∀ a b, System.Wanders .reference (System.initial sampleWallets) a →
      a.step postgres (Task.program .reference) (.run 3) = some b →
      System.Wanders .reference b s → b.db = a.db ∨ Advances foreignPayload a.db b.db := by
  have hrun : ∃ a, System.Reaches .reference (System.initial sampleWallets) a ∧
      Startable a (.execute foreignPayload ⟨.SUCCESS, sampleTime, sampleTime, .ofText "w-2"⟩) ∧
      (a.steps postgres (Task.program .reference)
        (callFor 3 (.execute foreignPayload ⟨.SUCCESS, sampleTime, sampleTime, .ofText "w-2"⟩)
          2)).any (fun s ↦ (s.procs.lookup 3).any (fun p ↦ p.rest matches .raise _) ∧
          (s.db.conversions.lookup "c-1").any (fun r ↦
            decide (r.status = .EXECUTION_REQUESTED))) = true :=
    System.exists_of_play sampleAccepted _ (by decide +kernel)
  obtain ⟨a, hreaches, hstart, hsteps⟩ := hrun
  obtain ⟨s, hs, hthrew⟩ := (Option.any_eq_true _ _).1 hsteps
  obtain ⟨hthrew, hadvanced⟩ := of_decide_eq_true hthrew
  obtain ⟨hwanders, p, hp, htask⟩ := wanders_of_call hstart hs
  refine ⟨s, hthrew, hadvanced, (foreign_event_harmless rfl
    (ReflTransGen.trans hreaches.wanders hwanders) hp htask fun hallowed ↦ ?_).1⟩
  exact absurd hallowed.eventType (by decide)

end Ledger

end WalletConversion
