import WalletConversion.Foundation.RelyGuarantee

/-!
# What a call has seen

A call answers from what it read while it ran, and the store may have changed since. `Prog.Observes`
says that a program ends as the committed stores at its statements explain, whatever these were:
each of them is one of the stores the program `Sees`, and each is later than the ones before it.

In a run these stores are moments of the call: each is the store of a state in which the call was
under way (`State.observed_of_reaches`). So an explanation that holds for every list of stores holds
of the history of the call.
-/

namespace Transactional

open Relation

variable {Db Write Key Err S : Type} {R : S → Type} {X T α β : Type}

namespace Prog

/-- The program ends as `Q` says of the committed stores at its statements, the latest one first. -/
def Observes (σ : Store Db Write Key Err S R) (Sees : Db → Prop) (Later : Db → Db → Prop)
    (Q : Except X α → List Db → Prop) :
    Prog S R X α → Option (List Write) → List Db → Prop
  | ret a, _, seen => Q (.ok a) seen
  | raise x, _, seen => Q (.error x) seen
  | call s k, o, seen => ∀ db locked r ws, Sees db → (∀ a ∈ seen, Later a db) →
      σ.exec s locked (σ.view db o) = .ok (r, ws) →
        (k r).Observes σ Sees Later Q (o.map fun vs ↦ vs ++ ws) (db :: seen)
  | begin k, _, seen => k.Observes σ Sees Later Q (some []) seen
  | commit k, _, seen => k.Observes σ Sees Later Q none seen
  | rollback k, _, seen => k.Observes σ Sees Later Q none seen

variable {σ : Store Db Write Key Err S R} {Sees : Db → Prop} {Later : Db → Db → Prop}
  {Q Q' : Except X α → List Db → Prop} {p : Prog S R X α} {o : Option (List Write)} {seen : List Db}

theorem Observes.mono (h : p.Observes σ Sees Later Q o seen)
    (hQ : ∀ r seen, Q r seen → Q' r seen) : p.Observes σ Sees Later Q' o seen := by
  induction p generalizing o seen with
  | ret | raise => exact hQ _ _ h
  | call s k ih =>
    exact fun db locked r ws hsees hlater hx ↦ ih r (h db locked r ws hsees hlater hx)
  | begin k ih | commit k ih | rollback k ih => exact ih h

theorem observes_ret {a : α} (h : Q (.ok a) seen) : (ret a).Observes σ Sees Later Q o seen := h

theorem observes_raise {x : X} (h : Q (.error x) seen) :
    (raise x).Observes σ Sees Later Q o seen := h

theorem Observes.of_ret {a : α} (h : (ret a).Observes σ Sees Later Q o seen) : Q (.ok a) seen := h

theorem Observes.of_raise {x : X} (h : (raise x).Observes σ Sees Later Q o seen) :
    Q (.error x) seen := h

/-- A statement inside a transaction, whatever it returns. -/
theorem observes_call {s : S} {k : R s → Prog S R X α} {vs : List Write}
    (h : ∀ db locked r ws, Sees db → (∀ a ∈ seen, Later a db) →
      σ.exec s locked (σ.applyAll db vs) = .ok (r, ws) →
        (k r).Observes σ Sees Later Q (some (vs ++ ws)) (db :: seen)) :
    (call s k).Observes σ Sees Later Q (some vs) seen := h

/-- A statement inside a transaction whose result is known. -/
theorem observes_statement {s : S} {k : R s → Prog S R X α} {vs : List Write}
    (h : ∀ db, Sees db → (∀ a ∈ seen, Later a db) → ∃ r ws,
      (∀ locked, σ.exec s locked (σ.applyAll db vs) = .ok (r, ws)) ∧
        (k r).Observes σ Sees Later Q (some (vs ++ ws)) (db :: seen)) :
    (call s k).Observes σ Sees Later Q (some vs) seen :=
  observes_call fun db locked r ws hsees hlater hx ↦ by
    obtain ⟨r', ws', hx', hk⟩ := h db hsees hlater
    rw [hx' locked, Except.ok.injEq, Prod.mk.injEq] at hx
    obtain ⟨rfl, rfl⟩ := hx
    exact hk

/-- What holds of all endings is explained by anything. -/
theorem observes_of_forall (h : ∀ r seen, Q r seen) : p.Observes σ Sees Later Q o seen := by
  induction p generalizing o seen with
  | ret | raise => exact h _ _
  | call s k ih => exact fun db locked r ws _ _ _ ↦ ih r
  | begin k ih | commit k ih | rollback k ih => exact ih

theorem observes_handle {Q : Except X β → List Db → Prop} {f : α → Prog S R X β}
    {g : X → Prog S R X β}
    (h : p.Observes σ Sees Later (fun r seen ↦ ∀ o, match r with
      | .ok a => (f a).Observes σ Sees Later Q o seen
      | .error x => (g x).Observes σ Sees Later Q o seen) o seen) :
    (p.handle f g).Observes σ Sees Later Q o seen := by
  induction p generalizing o seen with
  | ret | raise => exact h o
  | call s k ih =>
    exact fun db locked r ws hsees hlater hx ↦ ih r (h db locked r ws hsees hlater hx)
  | begin k ih | commit k ih | rollback k ih => exact ih h

theorem observes_bind {Q : Except X β → List Db → Prop} {f : α → Prog S R X β}
    (h : p.Observes σ Sees Later (fun r seen ↦ ∀ o, match r with
      | .ok a => (f a).Observes σ Sees Later Q o seen
      | .error x => Q (.error x) seen) o seen) :
    (p >>= f).Observes σ Sees Later Q o seen :=
  observes_handle (h.mono fun r seen hr o ↦ by
    cases r with
    | ok a => exact hr o
    | error x => exact hr o)

/-- A transaction ends as its body does. -/
theorem observes_transaction (h : p.Observes σ Sees Later Q (some []) seen) :
    p.transaction.Observes σ Sees Later Q o seen :=
  observes_handle (h.mono fun r seen hr o ↦ by
    cases r with
    | ok a => exact hr
    | error x => exact hr)

end Prog

/-! ### Runs -/

section Runs

variable [DecidableEq Key] {σ : Store Db Write Key Err S R} {program : T → Prog S R X α}
  {allowed : State Db Write S R X T α → T → Prop} {observed : Db → Db → Prop}
  {Sees : Db → Prop} {Later : Db → Db → Prop} {Q : T → Except X α → List Db → Prop}
  {s₀ s s' s'' : State Db Write S R X T α} {pid : ℕ} {t : T} {db : Db}

/-- The call is under way. -/
def State.Running (s : State Db Write S R X T α) (pid : ℕ) (t : T) : Prop :=
  ∃ p, s.procs.lookup pid = some p ∧ p.live = true ∧ p.task = t

/-- The store of a state between two others in which the call was under way. -/
def Moment (σ : Store Db Write Key Err S R) (program : T → Prog S R X α)
    (allowed : State Db Write S R X T α → T → Prop) (observed : Db → Db → Prop)
    (s₀ s : State Db Write S R X T α) (pid : ℕ) (t : T) (db : Db) : Prop :=
  ∃ s₁, Reaches σ program allowed observed s₀ s₁ ∧ Reaches σ program allowed observed s₁ s ∧
    s₁.Running pid t ∧ s₁.db = db

theorem Moment.tail (h : Moment σ program allowed observed s₀ s pid t db)
    (hrun : Reaches σ program allowed observed s s') :
    Moment σ program allowed observed s₀ s' pid t db := by
  obtain ⟨s₁, hbefore, hafter, hrunning⟩ := h
  exact ⟨s₁, hbefore, hafter.trans hrun, hrunning⟩

/-- Every call that goes on ends as moments of it explain. -/
def State.Observed (σ : Store Db Write Key Err S R) (program : T → Prog S R X α)
    (allowed : State Db Write S R X T α → T → Prop) (observed : Db → Db → Prop)
    (Sees : Db → Prop) (Later : Db → Db → Prop) (Q : T → Except X α → List Db → Prop)
    (s s₀ : State Db Write S R X T α) : Prop :=
  ∀ pid p, s.procs.lookup pid = some p → p.live = true → ∃ seen,
    (∀ db ∈ seen, Moment σ program allowed observed s₀ s pid p.task db) ∧
    p.rest.Observes σ Sees Later (Q p.task) p.pending seen

theorem State.observed_of_step (hprogram : ∀ t, (program t).Observes σ Sees Later (Q t) none [])
    (hsees : Sees s.db) (hrun : Reaches σ program allowed observed s₀ s)
    (hlater : ∀ s₁, Reaches σ program allowed observed s₀ s₁ →
      Reaches σ program allowed observed s₁ s → Later s₁.db s.db)
    (hstep : Step σ program allowed observed s s')
    (h : s.Observed σ program allowed observed Sees Later Q s₀) :
    s'.Observed σ program allowed observed Sees Later Q s₀ := by
  have hinsert : ∀ {j : ℕ} {q : Proc Write S R X T α} {db : Db}, s' = ⟨db, s.procs.insert j q⟩ →
      (q.live = true → ∃ seen, (∀ db ∈ seen,
        Moment σ program allowed observed s₀ s' j q.task db) ∧
        q.rest.Observes σ Sees Later (Q q.task) q.pending seen) →
      s'.Observed σ program allowed observed Sees Later Q s₀ := by
    intro j q db hs' hq pid p hp hlive
    rw [hs'] at hp
    rcases eq_or_ne pid j with rfl | hne
    · rw [Finmap.lookup_insert, Option.some.injEq] at hp
      subst hp
      exact hq hlive
    · rw [Finmap.lookup_insert_of_ne _ hne] at hp
      obtain ⟨seen, hmoments, hobserves⟩ := h pid p hp hlive
      exact ⟨seen, fun db hdb ↦ (hmoments db hdb).tail (.single hstep), hobserves⟩
  obtain ⟨m, -, hm, -⟩ := id hstep
  rcases State.step_cases hm with ⟨j, t, rfl, hl, hs'⟩ | ⟨j, q, db', q', rfl, hl, hq, hadv, hs'⟩ |
    ⟨j, q, rfl, hl, -, hs'⟩
  · exact hinsert hs' fun _ ↦ ⟨[], List.forall_mem_nil _, hprogram t⟩
  · obtain ⟨seen, hmoments, hobserves⟩ := h j q hl hq
    have hkept : ∀ db ∈ seen, Moment σ program allowed observed s₀ s' j q.task db :=
      fun db hdb ↦ (hmoments db hdb).tail (.single hstep)
    -- the store at a statement is a moment of the call, later than those it has seen
    have hnow : ∀ db ∈ s.db :: seen, Moment σ program allowed observed s₀ s' j q.task db :=
      List.forall_mem_cons.2 ⟨⟨s, hrun, .single hstep, ⟨q, hl, hq, rfl⟩, rfl⟩, hkept⟩
    have hafter : ∀ a ∈ seen, Later a s.db := fun a ha ↦ by
      obtain ⟨s₁, hbefore, hrest, -, rfl⟩ := hmoments a ha
      exact hlater s₁ hbefore hrest
    refine hinsert hs' fun _ ↦ ?_
    rcases Proc.advance_cases hadv with
      ⟨_, _, r, ws, hrest, hx, _, ⟨hpend, rfl, rfl⟩ | ⟨vs, hpend, _, rfl⟩⟩ | ⟨_, hrest, _, _, rfl⟩ |
      ⟨_, vs, hrest, hpend, _, rfl⟩ | ⟨_, _, hrest, _, _, rfl⟩
    · rw [hrest] at hobserves
      refine ⟨_, hnow, ?_⟩
      have hk := hobserves _ _ r ws hsees hafter hx
      rw [hpend] at hk
      show (_ : Prog S R X α).Observes σ Sees Later _ q.pending _
      rwa [hpend]
    · rw [hrest] at hobserves
      refine ⟨_, hnow, ?_⟩
      have hk := hobserves _ _ r ws hsees hafter hx
      rwa [hpend] at hk
    all_goals
      rw [hrest] at hobserves
      exact ⟨seen, hkept, hobserves⟩
  · exact hinsert hs' fun hdead ↦ by cases hdead

/-- **In every run a call ends as moments of it explain.** -/
theorem State.observed_of_reaches (hempty : s₀.procs = ∅)
    (hprogram : ∀ t, (program t).Observes σ Sees Later (Q t) none [])
    (hsees : ∀ s, Reaches σ program allowed observed s₀ s → Sees s.db)
    (hlater : ∀ s s', Reaches σ program allowed observed s₀ s →
      Reaches σ program allowed observed s s' → Later s.db s'.db)
    (h : Reaches σ program allowed observed s₀ s) :
    s.Observed σ program allowed observed Sees Later Q s₀ := by
  induction h with
  | refl => exact fun pid p hp ↦ by simp [hempty] at hp
  | tail hrun hstep ih =>
    exact State.observed_of_step hprogram (hsees _ hrun) hrun (fun s₁ h₁ ↦ hlater s₁ _ h₁) hstep ih

end Runs

-- programs are long: nothing is to be unfolded on the way through one
attribute [irreducible] Prog.Observes

end Transactional
