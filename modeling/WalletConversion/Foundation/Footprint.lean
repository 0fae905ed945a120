import WalletConversion.Foundation.RelyGuarantee

/-!
# What a program may touch

`Prog.Issues P p` says that every statement `p` can issue, whatever the results it sees, has the
property `P`. It composes like programs do (`issues_handle`, `issues_bind`, `issues_transaction`),
so it is read off the text of a program. `State.writes_within` carries it to runs: when the
statements of a task only make writes of one kind, every open transaction of the task consists of
them.
-/

namespace Transactional

open Relation

variable {Db Write Key Err S : Type} {R : S → Type} {X T α β : Type}

namespace Prog

/-- Every statement the program can issue has the property. -/
def Issues (P : S → Prop) : Prog S R X α → Prop
  | ret _ => True
  | raise _ => True
  | call s k => P s ∧ ∀ r, (k r).Issues P
  | begin k => k.Issues P
  | commit k => k.Issues P
  | rollback k => k.Issues P

variable {P Q : S → Prop} {p : Prog S R X α}

@[simp] theorem issues_ret (a : α) : (ret a : Prog S R X α).Issues P := trivial

@[simp] theorem issues_raise (x : X) : (raise x : Prog S R X α).Issues P := trivial

@[simp] theorem issues_pure (a : α) : (pure a : Prog S R X α).Issues P := trivial

theorem issues_stmt {s : S} (h : P s) : (stmt s : Prog S R X (R s)).Issues P :=
  ⟨h, fun _ ↦ trivial⟩

theorem Issues.mono (h : p.Issues P) (hPQ : ∀ s, P s → Q s) : p.Issues Q := by
  induction p with
  | ret | raise => trivial
  | call s k ih => exact ⟨hPQ s h.1, fun r ↦ ih r (h.2 r)⟩
  | begin k ih | commit k ih | rollback k ih => exact ih h

theorem issues_handle {f : α → Prog S R X β} {g : X → Prog S R X β} (hp : p.Issues P)
    (hf : ∀ a, (f a).Issues P) (hg : ∀ x, (g x).Issues P) : (p.handle f g).Issues P := by
  induction p with
  | ret a => exact hf a
  | raise x => exact hg x
  | call s k ih => exact ⟨hp.1, fun r ↦ ih r (hp.2 r)⟩
  | begin k ih | commit k ih | rollback k ih => exact ih hp

theorem issues_bind {f : α → Prog S R X β} (hp : p.Issues P) (hf : ∀ a, (f a).Issues P) :
    (p >>= f).Issues P :=
  issues_handle hp hf fun _ ↦ trivial

theorem issues_transaction (hp : p.Issues P) : p.transaction.Issues P :=
  issues_handle hp (fun _ ↦ trivial) fun _ ↦ trivial

end Prog

/-! ### Runs -/

section Runs

variable {σ : Store Db Write Key Err S R} [DecidableEq Key] {program : T → Prog S R X α}
  {may : T → S → Prop} {kind : T → Write → Prop} {s s' : State Db Write S R X T α}

/-- What is left of every call issues allowed statements, and what it has collected are writes of
its kind. -/
structure State.Within (may : T → S → Prop) (kind : T → Write → Prop)
    (s : State Db Write S R X T α) : Prop where
  rest : ∀ pid p, s.procs.lookup pid = some p → p.rest.Issues (may p.task)
  pending : ∀ pid p, s.procs.lookup pid = some p → ∀ vs, p.pending = some vs →
    ∀ w ∈ vs, kind p.task w

/-- **A step stays within what the programs may do.** -/
theorem State.within_of_step (hprogram : ∀ t, (program t).Issues (may t))
    (hexec : ∀ t st locked db r ws, may t st → σ.exec st locked db = .ok (r, ws) →
      ∀ w ∈ ws, kind t w)
    {m : Move T} (hstep : s.step σ program m = some s') (h : s.Within may kind) :
    s'.Within may kind := by
  have hinsert : ∀ {j : ℕ} {q : Proc Write S R X T α} {db : Db}, q.rest.Issues (may q.task) →
      (∀ vs, q.pending = some vs → ∀ w ∈ vs, kind q.task w) →
      State.Within may kind ⟨db, s.procs.insert j q⟩ := by
    intro j q db hrest hpending
    refine ⟨fun pid p hp ↦ ?_, fun pid p hp ↦ ?_⟩
    · by_cases hne : pid = j
      · subst hne
        rw [Finmap.lookup_insert] at hp
        cases hp
        exact hrest
      · rw [Finmap.lookup_insert_of_ne _ hne] at hp
        exact h.rest pid p hp
    · by_cases hne : pid = j
      · subst hne
        rw [Finmap.lookup_insert] at hp
        cases hp
        exact hpending
      · rw [Finmap.lookup_insert_of_ne _ hne] at hp
        exact h.pending pid p hp
  have hnone : ∀ {t : T} (vs : List Write), none = some vs → ∀ w ∈ vs, kind t w := by
    rintro t vs ⟨⟩
  rcases State.step_cases hstep with ⟨j, t, rfl, -, rfl⟩ | ⟨j, q, db', q', rfl, hq, -, hadv, rfl⟩ |
    ⟨j, q, rfl, hq, -, rfl⟩
  · exact hinsert (hprogram t) hnone
  · have hrest := h.rest j q hq
    rcases Proc.advance_cases hadv with ⟨st, k, r, ws, hst, hx, -, hcase⟩ | ⟨k, hst, -, -, rfl⟩ |
      ⟨k, vs, hst, -, -, rfl⟩ | ⟨k, vs, hst, -, -, rfl⟩
    · rw [hst] at hrest
      rcases hcase with ⟨-, -, rfl⟩ | ⟨vs, hvs, -, rfl⟩
      · exact hinsert (hrest.2 r) (h.pending j q hq)
      · refine hinsert (hrest.2 r) fun us hus w hw ↦ ?_
        cases hus
        rcases List.mem_append.1 hw with hw | hw
        · exact h.pending j q hq vs hvs w hw
        · exact hexec _ _ _ _ _ _ hrest.1 hx w hw
    · rw [hst] at hrest
      refine hinsert hrest fun us hus w hw ↦ ?_
      cases hus
      cases hw
    · rw [hst] at hrest
      exact hinsert hrest hnone
    · rw [hst] at hrest
      exact hinsert hrest hnone
  · exact hinsert (h.rest j q hq) hnone

/-- **A run stays within what the programs may do.** -/
theorem State.within_of_reaches {allowed : State Db Write S R X T α → T → Prop}
    {observed : Db → Db → Prop} (hprogram : ∀ t, (program t).Issues (may t))
    (hexec : ∀ t st locked db r ws, may t st → σ.exec st locked db = .ok (r, ws) →
      ∀ w ∈ ws, kind t w)
    (hrun : Reaches σ program allowed observed s s') (h : s.Within may kind) :
    s'.Within may kind := by
  induction hrun with
  | refl => exact h
  | tail _ hstep ih =>
    obtain ⟨m, -, hm, -⟩ := hstep
    exact State.within_of_step hprogram hexec hm ih

end Runs

end Transactional
