import WalletConversion.Application.Reference
import WalletConversion.Foundation.Phases
import WalletConversion.Ledger.SteadyCalls

/-!
# An accept happens at once or not at all

Some refusals of an accept return from inside its transaction, which commits, and others throw,
which rolls back. `accept_follows` matches each exit with the phase it is reached in: whoever has
claimed the key leaves with `created` or with an exception, and whoever has not claimed it has
written nothing.

`accept_atomic` reads the result off for arbitrary tables, commands and interleavings: an accept
that answers `created` has changed the five tables together in one of its steps, and any other,
wherever it ended or was cut off, has changed nothing.
-/

namespace WalletConversion

open Transactional Relation

namespace Ledger

variable {env : Platform} {α β : Type}

/-! ### The phases of an accept -/

/-- Whether a statement may have written. The claim of a key that is taken has not. -/
def mayHaveWritten : (s : Stmt) → s.Result → Bool
  | .insertIdempotency _ _ _ _, won => won
  | .findIdempotency _, _ => false
  | _, _ => true

/-- A result without a write comes from a statement that wrote nothing. -/
theorem nothing_of_not_written (s : Stmt) (locked : LockKey → Bool) (db : Db) (r : s.Result)
    (ws : List Write) (hx : postgres.exec s locked db = .ok (r, ws))
    (h : mayHaveWritten s r = false) : ws = [] := by
  cases s with
  | insertIdempotency scope key requestHash now =>
    have hexec : exec (.insertIdempotency scope key requestHash now) locked db = .ok (r, ws) := hx
    rcases insertIdempotency_ok hexec with ⟨-, hws⟩ | ⟨rfl, -, -⟩
    · exact hws
    · cases h
  | findIdempotency key =>
    cases hx
    rfl
  | _ => cases h

/-- A part of the accept after the key was claimed, and what it may return. -/
def AfterClaim (P : α → Prop) (p : App α) : Prop :=
  p.Follows mayHaveWritten (fun r phase ↦ phase = .written ∧ ∀ a, r = .ok a → P a) .written

theorem afterClaim_ret {P : α → Prop} {a : α} (h : P a) : AfterClaim P (.ret a : App α) :=
  Prog.follows_ret ⟨rfl, by rintro _ ⟨⟩; exact h⟩

theorem afterClaim_raise {P : α → Prop} (x : Thrown) : AfterClaim P (.raise x : App α) :=
  Prog.follows_raise ⟨rfl, by rintro _ ⟨⟩⟩

theorem afterClaim_attempt (e : Except JsError α) : AfterClaim (fun _ ↦ True) (attempt e) := by
  cases e with
  | ok a => exact afterClaim_ret trivial
  | error e => exact afterClaim_raise _

theorem afterClaim_sql (s : Stmt) : AfterClaim (fun _ ↦ True) (sql s) :=
  Prog.follows_call_written fun _ ↦ afterClaim_ret trivial

theorem afterClaim_bind {P : β → Prop} {p : App α} {f : α → App β}
    (hp : AfterClaim (fun _ ↦ True) p) (hf : ∀ a, AfterClaim P (f a)) :
    AfterClaim P (p >>= f) := by
  refine Prog.follows_bind (Prog.Follows.mono hp ?_)
  rintro (x | a) phase ⟨rfl, -⟩
  · exact ⟨rfl, by rintro _ ⟨⟩⟩
  · exact hf a

/-- The only answer of an accept that has claimed the key. -/
def IsCreated (r : AcceptQuoteResult) : Prop := ∃ body, r = .created body

section Follows

-- the statements of a program do not depend on how rows are read back or dates are written
attribute [local irreducible] PrismaQuoteRepository.toDomain PrismaWalletRepository.toDomain
  Date.timestampText

theorem finish_afterClaim (key : String) (quote : Quote) (conversion : Conversion)
    (inputs : AcceptInputs) :
    AfterClaim IsCreated (AcceptQuoteUseCase.finish key quote conversion inputs) := by
  refine afterClaim_bind (afterClaim_attempt _) fun _ ↦ afterClaim_bind (afterClaim_attempt _)
    fun _ ↦ afterClaim_bind (afterClaim_sql (.upsertConversion _)) fun _ ↦
    afterClaim_bind (afterClaim_attempt _)
    fun _ ↦ afterClaim_bind (afterClaim_sql (.createOutbox _)) fun _ ↦ afterClaim_bind
      (afterClaim_bind (afterClaim_sql _) fun count ↦ ?_) fun _ ↦ afterClaim_ret ⟨_, rfl⟩
  split
  · exact afterClaim_ret trivial
  · exact afterClaim_attempt _

theorem convert_afterClaim (key : String) (quote : Quote) (inputs : AcceptInputs) :
    AfterClaim IsCreated (AcceptQuoteUseCase.convert env key quote inputs) := by
  refine afterClaim_bind ?_ fun saved ↦ ?_
  · unfold PrismaQuoteRepository.saveAccepted
    split
    · refine afterClaim_bind (afterClaim_sql _) fun row ↦ ?_
      cases row with
      | none => exact afterClaim_ret trivial
      | some row => exact afterClaim_bind (afterClaim_attempt _) fun _ ↦ afterClaim_ret trivial
    · exact afterClaim_attempt _
  · cases saved with
    | none => exact afterClaim_raise _
    | some _ =>
      refine afterClaim_bind (afterClaim_attempt _) fun _ ↦ afterClaim_bind (afterClaim_attempt _)
        fun _ ↦ afterClaim_bind (afterClaim_sql (.upsertConversion _)) fun _ ↦
        afterClaim_bind (afterClaim_bind (afterClaim_sql _) fun row ↦ ?_) fun outcome ↦ ?_
      · cases row with
        | none => exact afterClaim_ret trivial
        | some row => exact afterClaim_bind (afterClaim_attempt _) fun _ ↦ afterClaim_ret trivial
      · cases outcome with
        | reserved wallet => exact finish_afterClaim _ _ _ _
        | insufficientOrConflict => exact afterClaim_raise _

/-- **Whoever has claimed the key leaves with `created` or with an exception.** -/
theorem claimed_afterClaim (quoteId key : String) (inputs : AcceptInputs) :
    AfterClaim IsCreated (AcceptQuoteUseCase.claimed env quoteId key inputs) := by
  refine afterClaim_bind (afterClaim_attempt _) fun id ↦
    afterClaim_bind (afterClaim_bind (afterClaim_sql _) fun row ↦ ?_) fun found ↦ ?_
  · cases row with
    | none => exact afterClaim_ret trivial
    | some row => exact afterClaim_bind (afterClaim_attempt _) fun _ ↦ afterClaim_ret trivial
  · cases found with
    | none => exact afterClaim_raise _
    | some quote =>
      dsimp only
      split
      · split <;> exact afterClaim_raise _
      · exact convert_afterClaim _ _ _

/-- How an accept leaves: it has published exactly when it answers `created`. -/
def AcceptExit (r : Except Thrown AcceptQuoteResult) (phase : Phase) : Prop :=
  (∃ body, r = .ok (.created body)) ∧ phase = .published ∨
    (∀ body, r ≠ .ok (.created body)) ∧ phase = .outside

/-- What the transaction may leave behind: the answer of its body, and whether it has published. -/
def WorkExit (r : Except Thrown AcceptQuoteResult) (phase : Phase) : Prop :=
  match phase with
  | .unwritten => ∀ body, r ≠ .ok (.created body)
  | .written => ∀ a, r = .ok a → IsCreated a
  | .outside | .published => False

/-- How the transaction of an accept may end, and whether it has written by then. -/
theorem work_follows (quoteId key hash : String) (inputs : AcceptInputs) :
    (AcceptQuoteUseCase.work env quoteId key hash inputs).Follows mayHaveWritten WorkExit
      .unwritten := by
  rw [work_eq]
  refine Prog.follows_call_unwritten fun won ↦ ?_
  rcases won with - | -
  · -- the key is taken
    rw [if_neg Bool.false_ne_true]
    refine Prog.follows_call_unwritten (s := Stmt.findIdempotency key) fun row ↦ ?_
    have herror : ∀ {statusCode : ℕ} {errorCode message : String},
        Prog.Follows mayHaveWritten WorkExit
          (.ret (.error statusCode errorCode message)) .unwritten :=
      Prog.follows_ret fun _ ↦ by rintro ⟨⟩
    rcases row with - | ⟨scope, hash', _ | status, _ | body, id, createdAt⟩
    · exact herror
    all_goals
      show Prog.Follows mayHaveWritten WorkExit (ite _ _ _) .unwritten
      split
      · exact herror
      · first
        | exact herror
        | exact Prog.follows_ret fun _ ↦ by rintro ⟨⟩
  · rw [if_pos rfl]
    exact Prog.Follows.mono (claimed_afterClaim quoteId key inputs) fun r phase h ↦ h.1 ▸ h.2

/-- The polls write nothing. -/
theorem wait_follows (key hash : String) (polls : ℕ) :
    (AcceptQuoteUseCase.waitForIdempotentCompletion key hash polls).Follows mayHaveWritten
      (fun r phase ↦ phase = .outside ∧ ∀ body, r ≠ .ok (some (.created body))) .outside := by
  induction polls with
  | zero => exact Prog.follows_ret ⟨rfl, by simp⟩
  | succ polls ih =>
    refine Prog.follows_call_outside (s := Stmt.findIdempotency key) fun row ↦ ⟨rfl, ?_⟩
    rcases row with - | ⟨scope, hash', _ | status, _ | body, id, createdAt⟩
    · exact Prog.follows_ret ⟨rfl, by simp⟩
    · exact ih
    · exact ih
    · exact ih
    · show Prog.Follows mayHaveWritten _ (ite _ _ _) .outside
      split <;> exact Prog.follows_ret ⟨rfl, by simp⟩

/-- An accept ends as its transaction or as its polls do. -/
theorem run_follows (quoteId key hash : String) (inputs : AcceptInputs) :
    (AcceptQuoteUseCase.run env quoteId key hash inputs).Follows mayHaveWritten AcceptExit
      .outside := by
  refine Prog.follows_bind (Prog.follows_transaction
    (Prog.Follows.mono (work_follows quoteId key hash inputs) ?_))
  rintro (x | (body | ⟨statusCode, body⟩ | ⟨statusCode, errorCode, message⟩)) phase h
  all_goals cases phase <;> try exact h.elim
  · exact .inr ⟨by rintro _ ⟨⟩, rfl⟩
  · exact .inr ⟨by rintro _ ⟨⟩, rfl⟩
  · exact absurd rfl (h body)
  · exact Prog.follows_ret (.inl ⟨⟨body, rfl⟩, rfl⟩)
  · exact Prog.follows_ret (.inr ⟨by rintro _ ⟨⟩, rfl⟩)
  · obtain ⟨_, ⟨⟩⟩ := h _ rfl
  · dsimp only
    split
    · refine Prog.follows_bind (Prog.Follows.mono (wait_follows key hash inputs.polls) ?_)
      rintro (x | _ | replay) phase ⟨rfl, hreplay⟩
      · exact .inr ⟨by rintro _ ⟨⟩, rfl⟩
      · exact Prog.follows_ret (.inr ⟨by rintro _ ⟨⟩, rfl⟩)
      · exact Prog.follows_ret (.inr ⟨fun body hbody ↦ hreplay body (by cases hbody; rfl), rfl⟩)
    · exact Prog.follows_ret (.inr ⟨by rintro _ ⟨⟩, rfl⟩)
  · obtain ⟨_, ⟨⟩⟩ := h _ rfl

/-- **Every exit of an accept, with the phase it is reached in.** -/
theorem accept_follows (command : AcceptQuoteCommand) (inputs : AcceptInputs) :
    (AcceptQuoteUseCase.execute env command inputs).Follows mayHaveWritten AcceptExit .outside := by
  rcases hvalid : AcceptQuoteUseCase.refused command with - | result
  · simp only [AcceptQuoteUseCase.execute, hvalid]
    refine Prog.follows_handle (Prog.Follows.mono (run_follows _ _ _ inputs) ?_)
    rintro ((e | ⟨statusCode, errorCode, message⟩) | result) phase h
    · exact Prog.follows_raise h
    · rcases h with ⟨⟨_, ⟨⟩⟩, -⟩ | ⟨-, rfl⟩
      exact Prog.follows_ret (.inr ⟨by rintro _ ⟨⟩, rfl⟩)
    · exact Prog.follows_ret h
  · simp only [AcceptQuoteUseCase.execute, hvalid]
    refine Prog.follows_ret (.inr ⟨?_, rfl⟩)
    rintro body ⟨⟩
    unfold AcceptQuoteUseCase.refused at hvalid
    simp only at hvalid
    split_ifs at hvalid <;> cases hvalid

end Follows

/-! ### Runs -/

section Runs

variable {s₀ s s' : System} {pid : ℕ} {p : Proc Write Stmt Stmt.Result Thrown Task TaskResult}
  {command : AcceptQuoteCommand} {inputs : AcceptInputs} {body : AcceptQuoteSuccessBody}

/-- No step that the call takes between the two states of a run changes a committed table. -/
def LeavesAlone (env : Platform) (pid : ℕ) (s s' : System) : Prop :=
  Untouched postgres (Task.program env) Startable (fun _ _ ↦ True) pid s s'

/-- How a task leaves that is an accept. -/
def TaskExit (r : Except Thrown TaskResult) (phase : Phase) : Prop :=
  (∃ body, r = .ok (.accept (.created body))) ∧ phase = .published ∨
    (∀ body, r ≠ .ok (.accept (.created body))) ∧ phase = .outside

/-- **How an accept can end, and what it has written then.** -/
theorem program_follows (command : AcceptQuoteCommand) (inputs : AcceptInputs) :
    ((Task.acceptQuote command inputs).program env).Follows mayHaveWritten TaskExit .outside := by
  refine Prog.follows_bind (Prog.Follows.mono (accept_follows command inputs) ?_)
  rintro (x | result) phase h
  · rcases h with ⟨⟨_, ⟨⟩⟩, -⟩ | ⟨-, rfl⟩
    exact .inr ⟨by rintro _ ⟨⟩, rfl⟩
  · rcases h with ⟨⟨body, he⟩, rfl⟩ | ⟨hne, rfl⟩
    · cases he
      exact Prog.follows_ret (.inl ⟨⟨body, rfl⟩, rfl⟩)
    · exact Prog.follows_ret (.inr ⟨fun body he ↦ hne body (by cases he; rfl), rfl⟩)

/-- An accept at the exit `created` has published its record, even if it was cut off there. -/
theorem created_of_wanders (hempty : s₀.procs = ∅) (hrun : System.Wanders env s₀ s)
    (hp : s.procs.lookup pid = some p) (htask : p.task = .acceptQuote command inputs)
    (hrest : p.rest = .ret (.accept (.created body))) :
    ∃ before record, record.responseBody = some body ∧
      p.durable = before ++ [.putIdempotency (trim command.idempotencyKey) record] := by
  induction hrun generalizing p with
  | refl => simp [hempty] at hp
  | @tail s₁ s₂ hrun hstep ih =>
    rcases hlive : p.live with - | -
    swap
    · have hanswer := ((steadfast_of_wanders hempty (hrun.tail hstep)).post_of_ret hp hlive hrest).2
      rw [htask] at hanswer
      exact (hanswer body rfl).2
    · -- a call that was cut off has what it had before
      obtain ⟨m, -, hm, -⟩ := hstep
      rcases State.step_cases hm with ⟨j, t, -, -, rfl⟩ | ⟨j, q, db', q', rfl, -, -, -, rfl⟩ |
        ⟨j, q, -, hl, -, rfl⟩
      · by_cases hj : pid = j
        · subst hj
          rw [Finmap.lookup_insert] at hp
          cases hp
          cases hlive
        · exact ih (by rwa [Finmap.lookup_insert_of_ne _ hj] at hp) htask hrest
      · by_cases hj : pid = j
        · subst hj
          obtain ⟨_, _, _, _, _, hq', hlive', -⟩ := State.run_cases hm
          rw [hp] at hq'
          cases hq'
          rw [hlive] at hlive'
          cases hlive'
        · exact ih (by rwa [Finmap.lookup_insert_of_ne _ hj] at hp) htask hrest
      · by_cases hj : pid = j
        · subst hj
          rw [Finmap.lookup_insert] at hp
          cases hp
          exact ih (p := q) hl htask hrest
        · exact ih (by rwa [Finmap.lookup_insert_of_ne _ hj] at hp) htask hrest

/-- Before an accept publishes, its conversion does not exist. -/
theorem unconverted_of_wanders (hempty : s₀.procs = ∅) (hrun : System.Wanders env s₀ s)
    (hp : s.procs.lookup pid = some p) (htask : p.task = .acceptQuote command inputs)
    (hnothing : p.durable = []) : s.db.conversions.lookup inputs.conversionId.value = none := by
  induction hrun generalizing p with
  | refl => simp [hempty] at hp
  | @tail s₁ s₂ hrun hstep ih =>
    have hsteady := steadfast_of_wanders hempty hrun
    obtain ⟨m, hstart, hm, -⟩ := hstep
    rcases hp₁ : s₁.procs.lookup pid with - | p₁
    · -- the call has just been started
      rcases State.step_cases hm with ⟨j, t, rfl, -, rfl⟩ | ⟨j, q, _, _, -, hq, -, -, rfl⟩ |
        ⟨j, q, -, hq, -, rfl⟩
      all_goals by_cases hj : pid = j
      · subst hj
        rw [Finmap.lookup_insert] at hp
        cases hp
        obtain rfl : t = .acceptQuote command inputs := htask
        exact (hstart pid _ rfl).1.1
      · rw [Finmap.lookup_insert_of_ne _ hj, hp₁] at hp
        cases hp
      all_goals first
        | (subst hj; rw [hp₁] at hq; cases hq)
        | (rw [Finmap.lookup_insert_of_ne _ hj, hp₁] at hp; cases hp)
    · obtain ⟨p₂, ws, hp₂, htask₂, hdurable⟩ := State.history_of_step hm hp₁
      rw [hp] at hp₂
      cases hp₂
      have hnothing₁ : p₁.durable = [] ∧ ws = [] := by simpa [hdurable] using hnothing
      have hnone := ih hp₁ (htask₂ ▸ htask) hnothing₁.1
      rcases hsteady.change_of_move hm trivial with
        heq | ⟨j, q, q', vs, rfl, hq, -, hq', -, hvs, hdb, -, hcreates, -⟩
      · rwa [heq]
      by_cases hj : pid = j
      · subst hj
        rw [hp] at hq'
        cases hq'
        rw [hp₁] at hq
        cases hq
        have hvs' : p₁.durable = [] ∧ vs = [] := by simpa [hvs] using hnothing
        rwa [hdb, hvs'.2, Store.applyAll_nil]
      · by_contra hsome
        have hdisjoint : p₁.task.generatedIds.Disjoint q.task.generatedIds :=
          hsteady.compat _ _ _ _ hj hp₁ hq
        refine hdisjoint ?_ (hcreates _ hnone hsome)
        rw [← htask₂, htask]
        simp [Task.generatedIds]

/-- **An accept is atomic.** From any tables, among any other calls: an accept that is at its exit
`created` has changed the five tables together in one step, with the body it answers, and nothing in
any other. An accept that is anywhere else — it answered with an error or a replay, it threw, or it
was cut off — has changed nothing. -/
theorem accept_atomic (hempty : s₀.procs = ∅) (hrun : System.Wanders env s₀ s)
    (hp : s.procs.lookup pid = some p) (htask : p.task = .acceptQuote command inputs) :
    ((∀ body, p.rest ≠ .ret (.accept (.created body))) → LeavesAlone env pid s₀ s) ∧
    ∀ body, p.rest = .ret (.accept (.created body)) → ∃ a b,
      System.Wanders env s₀ a ∧ a.step postgres (Task.program env) (.run pid) = some b ∧
      System.Wanders env b s ∧ AcceptedTogether env command inputs body a.db b.db ∧
      LeavesAlone env pid s₀ a ∧ LeavesAlone env pid b s := by
  have hfollows : ((Task.program env) p.task).Follows mayHaveWritten TaskExit .outside :=
    htask ▸ program_follows command inputs
  constructor
  · intro hrest
    by_cases hnothing : p.durable = []
    · exact untouched_of_unpublished hp hnothing
    · obtain ⟨_, _, _, _, _, _, _, _, _, _, _, _, _, hexit, _⟩ :=
        State.published_once (Q := fun _ ↦ TaskExit) nothing_of_not_written hempty hrun hp hfollows
          hnothing
      rcases Prog.exit_of_follows hexit with ⟨result, hp', ⟨⟨body, he⟩, -⟩ | ⟨-, he⟩⟩ |
        ⟨x, -, ⟨⟨_, he⟩, -⟩ | ⟨-, he⟩⟩
      · cases he
        exact absurd hp' (hrest body)
      all_goals cases he
  · intro body hrest
    obtain ⟨before, record, hbody, hdurable⟩ := created_of_wanders hempty hrun hp htask hrest
    obtain ⟨a, b, q, q', hsa, hab, hbs, hq, hnothing, hq', hlive, htask', hrest',
      -, hdurable', hdb⟩ :=
      State.published_once (Q := fun _ ↦ TaskExit) nothing_of_not_written hempty hrun hp hfollows
        (by simp [hdurable])
    obtain ⟨q'', -, hq'', htask'', -⟩ := State.history_of_step hab hq
    rw [hq'] at hq''
    cases hq''
    have hqtask : q.task = .acceptQuote command inputs := by rw [← htask'', htask', htask]
    refine ⟨a, b, hsa, hab, hbs, ?_, untouched_of_unpublished hq hnothing,
      untouched_of_exited hq' (by rw [hrest', hrest]; trivial)⟩
    -- the conversion exists after the step and not before it
    have hsome : ∃ row, b.db.conversions.lookup inputs.conversionId.value = some row := by
      have hsb : System.Wanders env s₀ b := hsa.tail ⟨_, fun _ _ h ↦ (by cases h), hab, trivial⟩
      have hanswer := ((steadfast_of_wanders hempty hsb).post_of_ret hq' hlive
        (hrest'.trans hrest)).2
      rw [htask', htask] at hanswer
      exact (hanswer body rfl).1
    have hnone := unconverted_of_wanders hempty hsa hq hqtask hnothing
    have hchanged : b.db ≠ a.db := by
      intro he
      obtain ⟨row, hrow⟩ := hsome
      rw [he, hnone] at hrow
      cases hrow
    rcases (steadfast_of_wanders hempty hsa).change_of_move hab trivial with
      heq | ⟨j, r, -, -, hj, hr, -, -, -, -, -, -, -, hachieves⟩
    · exact absurd heq hchanged
    cases hj
    rw [hq] at hr
    cases hr
    rw [hqtask] at hachieves
    obtain ⟨body', htogether⟩ := hachieves.resolve_left hchanged
    -- the record it leaves has both bodies
    obtain ⟨_, _, _, _, _, _, _, _, hbody', hb⟩ := id htogether
    have hrecord : b.db.idempotency.lookup (trim command.idempotencyKey) = some record := by
      rw [hdb, hdurable, postgres.applyAll_append]
      exact Finmap.lookup_insert _
    rw [hb, Finmap.lookup_insert, Option.some.injEq] at hrecord
    rw [← hrecord] at hbody
    cases hbody
    rwa [hbody'] at htogether

/-- An accept that is answered with `created`. -/
theorem accept_atomic_sample : ∃ (inputs : AcceptInputs) (a b : System),
    a.procs.lookup 2 ≠ none ∧
    AcceptedTogether .reference ⟨"q-1", "key-1"⟩ inputs sampleBody a.db b.db := by
  have hrun : ∃ s, System.Reaches .reference (System.initial sampleWallets) s ∧
      ∃ p ∈ s.procs.lookup 2, (match p.task with
        | .acceptQuote command _ =>
          decide (command.quoteId = "q-1" ∧ command.idempotencyKey = "key-1")
        | .createQuote _ _ _ | .execute _ _ | .markPublished _ _ | .cleanup _ _ _ _ => false) =
            true ∧
        (match p.rest with
        | .ret (.accept result) => decide (result = .created sampleBody)
        | .ret (.quote _) | .ret (.execution _) | .ret .done => false
        | .raise _ | .call _ _ | .begin _ | .commit _ | .rollback _ => false) = true :=
    System.exists_of_play sampleAccepted _ (by decide +kernel)
  obtain ⟨s, hreaches, p, hp, hcommand, hresult⟩ := hrun
  rcases htask : p.task with _ | ⟨⟨quoteId, idempotencyKey⟩, inputs⟩ | _ | _ | _ <;>
    simp only [htask] at hcommand <;> try cases hcommand
  rcases hrest : p.rest with ⟨_ | result | _ | _⟩ | _ | _ | _ | _ | _ <;>
    simp only [hrest] at hresult <;> try cases hresult
  obtain ⟨rfl, rfl⟩ := of_decide_eq_true hcommand
  obtain rfl := of_decide_eq_true hresult
  obtain ⟨a, b, -, hab, -, htogether, -⟩ :=
    (accept_atomic rfl hreaches.wanders hp htask).2 sampleBody hrest
  obtain ⟨q, -, -, hq, -⟩ := State.run_cases hab
  exact ⟨inputs, a, b, by simp [hq], htogether⟩

end Runs

end Ledger

end WalletConversion
