import WalletConversion.Foundation.Program

/-!
# Rely/guarantee for interleaved transactional programs

A `Contract` says, for every task, what its commits may do to the committed store (`guar`), which
invariant every commit keeps (`inv`), and what must be true whenever the task issues a statement
(`demand`). What a task may rely on is not a separate parameter: it is whatever the *other* tasks
guarantee, restricted by the locks the task holds (`Rely`).

`Contract.wp` is the weakest precondition of a program under that interference. It is closed under
interference by construction (`wp_stable`), so a proof about a program never has to restate which
facts survive between two statements: each statement is met with an arbitrary later store that the
rely relation allows.

The soundness theorem `Contract.coherent_of_reaches` turns the proofs for single tasks into an
invariant of every interleaving of any number of them. Its three uses are

* `Coherent.inv` — the invariant of the committed store;
* `Coherent.demand` — the obligation at the statement a call is about to issue;
* `Coherent.post` — the postcondition of a call that has finished.
-/

namespace Transactional

open Relation

variable {Db Write Key Err S : Type} {R : S → Type} {X T α β : Type}

/-- What the tasks of a system promise to each other. -/
structure Contract (σ : Store Db Write Key Err S R) (T : Type) where
  /-- The invariant of the committed store. -/
  inv : Db → Prop
  /-- What one commit of a task may do. -/
  guar : T → Db → Db → Prop
  /-- Holds between any two different calls of the system. -/
  compat : T → T → Prop
  /-- A property of every change of the committed store in the runs considered. -/
  observed : Db → Db → Prop
  /-- What must hold when a task issues a statement. -/
  demand : T → Option (List Write) → Db → S → Prop

namespace Contract

variable {σ : Store Db Write Key Err S R} (C : Contract σ T)

/-! ### The rely relation -/

/-- One commit of some other task that respects the locks in `held`. -/
def Interfere (t : T) (held : List Key) (a b : Db) : Prop :=
  ∃ t', C.compat t t' ∧ C.inv a ∧ C.inv b ∧ C.guar t' a b ∧ C.observed a b ∧
    ∀ key ∈ held, σ.same key a b

/-- Any number of commits of other tasks. -/
def Rely (t : T) (held : List Key) : Db → Db → Prop :=
  ReflTransGen (C.Interfere t held)

variable {C}

theorem Rely.refl {t : T} {held : List Key} (a : Db) : C.Rely t held a a :=
  ReflTransGen.refl

theorem Rely.trans {t : T} {held : List Key} {a b c : Db} (h : C.Rely t held a b)
    (h' : C.Rely t held b c) : C.Rely t held a c :=
  ReflTransGen.trans h h'

/-- Fewer locks, more interference. -/
theorem Rely.weaken {t : T} {held held' : List Key} {a b : Db} (h : C.Rely t held a b)
    (hsub : ∀ key ∈ held', key ∈ held) : C.Rely t held' a b := by
  refine ReflTransGen.mono ?_ _ _ h
  rintro a b ⟨t', hc, ha, hb, hg, ho, hs⟩
  exact ⟨t', hc, ha, hb, hg, ho, fun key hk ↦ hs key (hsub key hk)⟩

/-- A lock keeps what it stands for through any interference. -/
theorem Rely.same {t : T} {held : List Key} {a b : Db} (h : C.Rely t held a b) {key : Key}
    (hk : key ∈ held) : σ.same key a b := by
  induction h with
  | refl => exact σ.same_refl _ _
  | tail _ hstep ih =>
    obtain ⟨-, -, -, -, -, -, hs⟩ := hstep
    exact σ.same_trans _ _ _ _ ih (hs key hk)

/-- A reflexive and transitive relation that every commit of another task respects survives any
interference. -/
theorem Rely.lift {t : T} {held : List Key} {a b : Db} (h : C.Rely t held a b)
    (r : Db → Db → Prop) (hrefl : ∀ a, r a a) (htrans : ∀ a b c, r a b → r b c → r a c)
    (hstep : ∀ t' a b, C.compat t t' → C.inv a → C.inv b → C.guar t' a b → C.observed a b →
      r a b) : r a b := by
  induction h with
  | refl => exact hrefl _
  | tail _ hs ih =>
    obtain ⟨t', hc, ha, hb, hg, ho, -⟩ := hs
    exact htrans _ _ _ ih (hstep t' _ _ hc ha hb hg ho)

/-! ### Weakest preconditions -/

variable (C)

/-- Publishing these writes keeps the invariant and the task's guarantee. -/
def Publishes (t : T) (db : Db) (ws : List Write) : Prop :=
  C.inv (σ.applyAll db ws) ∧ C.guar t db (σ.applyAll db ws)

/-- The weakest precondition of a program of task `t` under interference. The postcondition sees
how the program ended, the transaction it left open, what it has published, and the store. -/
def wp (t : T) : Prog S R X α →
    (Except X α → Option (List Write) → List Write → Db → Prop) →
    Option (List Write) → List Write → Db → Prop
  | .ret a, Q, o, d, db => ∀ db', C.Rely t (σ.held o) db db' → C.inv db' → Q (.ok a) o d db'
  | .raise x, Q, o, d, db => ∀ db', C.Rely t (σ.held o) db db' → C.inv db' → Q (.error x) o d db'
  | .call s k, Q, o, d, db =>
    ∀ db', C.Rely t (σ.held o) db db' → C.inv db' →
      C.demand t o db' s ∧
      ∀ locked r ws, σ.exec s locked (σ.view db' o) = .ok (r, ws) →
        match o with
        | none => C.observed db' (σ.applyAll db' ws) →
            C.Publishes t db' ws ∧ wp t (k r) Q none (d ++ ws) (σ.applyAll db' ws)
        | some vs => wp t (k r) Q (some (vs ++ ws)) d db'
  | .begin k, Q, o, d, db => o = none ∧ wp t k Q (some []) d db
  | .commit k, Q, o, d, db =>
    match o with
    | none => False
    | some vs => ∀ db', C.Rely t (σ.keysOf vs) db db' → C.inv db' →
        C.observed db' (σ.applyAll db' vs) →
          C.Publishes t db' vs ∧ wp t k Q none (d ++ vs) (σ.applyAll db' vs)
  | .rollback k, Q, o, d, db => o ≠ none ∧ wp t k Q none d db

variable {C}

/-- **Weakest preconditions survive interference.** -/
theorem wp_stable {t : T} {p : Prog S R X α}
    {Q : Except X α → Option (List Write) → List Write → Db → Prop} {o : Option (List Write)}
    {d : List Write} {db db' : Db} (h : C.wp t p Q o d db) (hr : C.Rely t (σ.held o) db db') :
    C.wp t p Q o d db' := by
  induction p generalizing o d db db' with
  | ret a => exact fun db'' hr' hi ↦ h db'' (hr.trans hr') hi
  | raise x => exact fun db'' hr' hi ↦ h db'' (hr.trans hr') hi
  | call s k ih => exact fun db'' hr' hi ↦ h db'' (hr.trans hr') hi
  | begin k ih =>
    obtain ⟨rfl, hk⟩ := h
    exact ⟨rfl, ih hk hr⟩
  | commit k ih =>
    cases o with
    | none => exact h
    | some vs => exact fun db'' hr' hi ho ↦ h db'' (hr.trans hr') hi ho
  | rollback k ih => exact ⟨h.1, ih h.2 (hr.weaken (by simp))⟩

/-- A weaker postcondition. -/
theorem wp_mono {t : T} {p : Prog S R X α}
    {Q Q' : Except X α → Option (List Write) → List Write → Db → Prop} {o : Option (List Write)}
    {d : List Write} {db : Db} (h : C.wp t p Q o d db)
    (hQ : ∀ r o d db, Q r o d db → Q' r o d db) : C.wp t p Q' o d db := by
  induction p generalizing o d db with
  | ret a => exact fun db' hr hi ↦ hQ _ _ _ _ (h db' hr hi)
  | raise x => exact fun db' hr hi ↦ hQ _ _ _ _ (h db' hr hi)
  | call s k ih =>
    intro db' hr hi
    refine ⟨(h db' hr hi).1, fun locked r ws hx ↦ ?_⟩
    have hk := (h db' hr hi).2 locked r ws hx
    cases o with
    | none => exact fun ho ↦ ⟨(hk ho).1, ih r (hk ho).2⟩
    | some vs => exact ih r hk
  | begin k ih => exact ⟨h.1, ih h.2⟩
  | commit k ih =>
    cases o with
    | none => exact h
    | some vs => exact fun db' hr hi ho ↦ ⟨(h db' hr hi ho).1, ih (h db' hr hi ho).2⟩
  | rollback k ih => exact ⟨h.1, ih h.2⟩

/-- **The sequencing rule.** Handling a program's exits runs the two continuations from the
postcondition of the program. -/
theorem wp_handle {t : T} {p : Prog S R X α} {f : α → Prog S R X β} {g : X → Prog S R X β}
    {Q : Except X β → Option (List Write) → List Write → Db → Prop} {o : Option (List Write)}
    {d : List Write} {db : Db}
    (h : C.wp t p (fun r o d db ↦ match r with
      | .ok a => C.wp t (f a) Q o d db
      | .error x => C.wp t (g x) Q o d db) o d db) (hi : C.inv db) :
    C.wp t (p.handle f g) Q o d db := by
  induction p generalizing o d db with
  | ret a => exact h db (Rely.refl db) hi
  | raise x => exact h db (Rely.refl db) hi
  | call s k ih =>
    intro db' hr hi'
    refine ⟨(h db' hr hi').1, fun locked r ws hx ↦ ?_⟩
    have hk := (h db' hr hi').2 locked r ws hx
    cases o with
    | none => exact fun ho ↦ ⟨(hk ho).1, ih r (hk ho).2 (hk ho).1.1⟩
    | some vs => exact ih r hk hi'
  | begin k ih => exact ⟨h.1, ih h.2 hi⟩
  | commit k ih =>
    cases o with
    | none => exact h
    | some vs =>
      exact fun db' hr hi' ho ↦
        ⟨(h db' hr hi' ho).1, ih (h db' hr hi' ho).2 (h db' hr hi' ho).1.1⟩
  | rollback k ih => exact ⟨h.1, ih h.2 hi⟩

/-- The sequencing rule for `do` blocks. -/
theorem wp_bind {t : T} {p : Prog S R X α} {f : α → Prog S R X β}
    {Q : Except X β → Option (List Write) → List Write → Db → Prop} {o : Option (List Write)}
    {d : List Write} {db : Db}
    (h : C.wp t p (fun r o d db ↦ match r with
      | .ok a => C.wp t (f a) Q o d db
      | .error x => C.wp t (.raise x) Q o d db) o d db) (hi : C.inv db) :
    C.wp t (p >>= f) Q o d db :=
  wp_handle h hi

theorem wp_ret {t : T} {a : α}
    {Q : Except X α → Option (List Write) → List Write → Db → Prop} {o : Option (List Write)}
    {d : List Write} {db : Db}
    (h : ∀ db', C.Rely t (σ.held o) db db' → C.inv db' → Q (.ok a) o d db') :
    C.wp t (.ret a) Q o d db := h

theorem wp_raise {t : T} {x : X}
    {Q : Except X α → Option (List Write) → List Write → Db → Prop} {o : Option (List Write)}
    {d : List Write} {db : Db}
    (h : ∀ db', C.Rely t (σ.held o) db db' → C.inv db' → Q (.error x) o d db') :
    C.wp t (.raise x) Q o d db := h

/-- **The statement rule inside a transaction**: the writes join the open transaction. -/
theorem wp_call_some {t : T} {s : S} {k : R s → Prog S R X α}
    {Q : Except X α → Option (List Write) → List Write → Db → Prop} {vs : List Write}
    {d : List Write} {db : Db}
    (h : ∀ db', C.Rely t (σ.keysOf vs) db db' → C.inv db' →
      C.demand t (some vs) db' s ∧
      ∀ locked r ws, σ.exec s locked (σ.applyAll db' vs) = .ok (r, ws) →
        C.wp t (k r) Q (some (vs ++ ws)) d db') :
    C.wp t (.call s k) Q (some vs) d db := h

/-- **The statement rule outside a transaction**: the writes are published at once. -/
theorem wp_call_none {t : T} {s : S} {k : R s → Prog S R X α}
    {Q : Except X α → Option (List Write) → List Write → Db → Prop} {d : List Write} {db : Db}
    (h : ∀ db', C.Rely t [] db db' → C.inv db' →
      C.demand t none db' s ∧
      ∀ locked r ws, σ.exec s locked db' = .ok (r, ws) →
        C.observed db' (σ.applyAll db' ws) →
          C.Publishes t db' ws ∧ C.wp t (k r) Q none (d ++ ws) (σ.applyAll db' ws)) :
    C.wp t (.call s k) Q none d db := h

/-- The postcondition of a transaction body holds after interference as well, so the commit that
follows it may be delayed. -/
private theorem wp_body_then_commit {t : T} {p : Prog S R X α}
    {Q : Except X α → Option (List Write) → List Write → Db → Prop} {o : Option (List Write)}
    {d : List Write} {db : Db}
    (h : C.wp t p (fun r o d db ↦ ∃ vs, o = some vs ∧ match r with
      | .ok a => C.observed db (σ.applyAll db vs) →
          C.Publishes t db vs ∧ C.wp t (.ret a) Q none (d ++ vs) (σ.applyAll db vs)
      | .error x => C.wp t (.raise x) Q none d db) o d db) :
    C.wp t p (fun r o d db ↦ match r with
      | .ok a => C.wp t (.commit (.ret a)) Q o d db
      | .error x => C.wp t (.rollback (.raise x)) Q o d db) o d db := by
  induction p generalizing o d db with
  | ret a =>
    intro db' hr hi'
    obtain ⟨vs, rfl, -⟩ := h db' hr hi'
    intro db'' hr' hi'' ho
    obtain ⟨vs', hvs, hk⟩ := h db'' (hr.trans hr') hi''
    obtain rfl := Option.some.inj hvs
    exact hk ho
  | raise x =>
    intro db' hr hi'
    obtain ⟨vs, rfl, hk⟩ := h db' hr hi'
    exact ⟨by simp, hk⟩
  | call s k ih =>
    intro db' hr hi'
    refine ⟨(h db' hr hi').1, fun locked r ws hx ↦ ?_⟩
    have hk := (h db' hr hi').2 locked r ws hx
    cases o with
    | none => exact fun ho ↦ ⟨(hk ho).1, ih r (hk ho).2⟩
    | some vs => exact ih r hk
  | begin k ih => exact ⟨h.1, ih h.2⟩
  | commit k ih =>
    cases o with
    | none => exact h
    | some vs => exact fun db' hr hi' ho ↦ ⟨(h db' hr hi' ho).1, ih (h db' hr hi' ho).2⟩
  | rollback k ih => exact ⟨h.1, ih h.2⟩

/-- **The transaction rule.** The body runs with an empty transaction; when it returns, publishing
what it collected must keep the contract, and when it throws nothing was published. -/
theorem wp_transaction {t : T} {body : Prog S R X α}
    {Q : Except X α → Option (List Write) → List Write → Db → Prop} {d : List Write} {db : Db}
    (h : C.wp t body (fun r o d db ↦ ∃ vs, o = some vs ∧ match r with
      | .ok a => C.observed db (σ.applyAll db vs) →
          C.Publishes t db vs ∧ C.wp t (.ret a) Q none (d ++ vs) (σ.applyAll db vs)
      | .error x => C.wp t (.raise x) Q none d db) (some []) d db) (hi : C.inv db) :
    C.wp t body.transaction Q none d db :=
  ⟨rfl, wp_handle (wp_body_then_commit h) hi⟩

/-- **A program proved against the contract, with nobody else around**, ends as its postcondition
says, by commits that keep its guarantee. If the store refuses a statement, the demand on it was
met. -/
theorem solo_of_wp {t : T} {p : Prog S R X α}
    {Q : Except X α → Option (List Write) → List Write → Db → Prop} {o : Option (List Write)}
    {d : List Write} {db : Db} (h : C.wp t p Q o d db) (hi : C.inv db)
    (hobs : ∀ a b, C.observed a b) :
    ∃ db', C.inv db' ∧ ReflTransGen (C.guar t) db db' ∧
      ((∃ a o' d', p.solo σ o db = (.returned a, db') ∧ Q (.ok a) o' d' db') ∨
        (∃ x o' d', p.solo σ o db = (.threw x, db') ∧ Q (.error x) o' d' db') ∨
        ∃ e o' s, p.solo σ o db = (.refused e, db') ∧ C.demand t o' db' s ∧
          σ.exec s (fun _ ↦ false) (σ.view db' o') = .error e) := by
  induction p generalizing o d db with
  | ret a => exact ⟨db, hi, .refl, .inl ⟨a, o, d, rfl, h db (.refl db) hi⟩⟩
  | raise x => exact ⟨db, hi, .refl, .inr (.inl ⟨x, o, d, rfl, h db (.refl db) hi⟩)⟩
  | call s k ih =>
    obtain ⟨hdemand, hok⟩ := h db (.refl db) hi
    cases hx : σ.exec s (fun _ ↦ false) (σ.view db o) with
    | error e =>
      exact ⟨db, hi, .refl, .inr (.inr ⟨e, o, s, Prog.solo_call_error hx, hdemand, hx⟩)⟩
    | ok result =>
      obtain ⟨r, ws⟩ := result
      have hk := hok _ r ws hx
      cases o with
      | none =>
        obtain ⟨hpub, hwp⟩ := hk (hobs _ _)
        obtain ⟨db', hi', hrun, hend⟩ := ih r hwp hpub.1
        have hsolo : (Prog.call s k).solo σ none db = (k r).solo σ none (σ.applyAll db ws) :=
          Prog.solo_call_none hx
        exact ⟨db', hi', .head hpub.2 hrun, by rwa [hsolo]⟩
      | some vs =>
        obtain ⟨db', hi', hrun, hend⟩ := ih r hk hi
        have hsolo : (Prog.call s k).solo σ (some vs) db = (k r).solo σ (some (vs ++ ws)) db :=
          Prog.solo_call_some hx
        exact ⟨db', hi', hrun, by rwa [hsolo]⟩
  | begin k ih => exact ih h.2 hi
  | commit k ih =>
    cases o with
    | none => exact h.elim
    | some vs =>
      obtain ⟨hpub, hwp⟩ := h db (.refl db) hi (hobs _ _)
      obtain ⟨db', hi', hrun, hend⟩ := ih hwp hpub.1
      exact ⟨db', hi', .head hpub.2 hrun, hend⟩
  | rollback k ih => exact ih h.2 hi

end Contract

/-! ### Steps and runs -/

section Runs

variable [DecidableEq Key] (σ : Store Db Write Key Err S R) (program : T → Prog S R X α)
  (allowed : State Db Write S R X T α → T → Prop) (observed : Db → Db → Prop)

/-- One step of the interleaved system: any possible move, where a new call must be admitted and the
change of the committed store is one of those considered. -/
def Step (s s' : State Db Write S R X T α) : Prop :=
  ∃ m : Move T, (∀ pid t, m = .spawn pid t → allowed s t) ∧ s.step σ program m = some s' ∧
    observed s.db s'.db

/-- Any number of steps. -/
def Reaches : State Db Write S R X T α → State Db Write S R X T α → Prop :=
  ReflTransGen (Step σ program allowed observed)

end Runs

section Inversion

variable {σ : Store Db Write Key Err S R}

/-- **Everything a call's own step can do.** -/
theorem Proc.advance_cases {locked : Key → Bool} {db db' : Db} {p p' : Proc Write S R X T α}
    (h : p.advance σ locked db = some (db', p')) :
    (∃ s k r ws, p.rest = .call s k ∧ σ.exec s locked (σ.view db p.pending) = .ok (r, ws) ∧
      (∀ key ∈ σ.keysOf ws, locked key = false) ∧
      ((p.pending = none ∧ db' = σ.applyAll db ws ∧
          p' = { p with rest := k r, durable := p.durable ++ ws }) ∨
        ∃ vs, p.pending = some vs ∧ db' = db ∧
          p' = { p with rest := k r, pending := some (vs ++ ws) })) ∨
    (∃ k, p.rest = .begin k ∧ p.pending = none ∧ db' = db ∧
      p' = { p with rest := k, pending := some [] }) ∨
    (∃ k vs, p.rest = .commit k ∧ p.pending = some vs ∧ db' = σ.applyAll db vs ∧
      p' = { p with rest := k, pending := none, durable := p.durable ++ vs }) ∨
    (∃ k vs, p.rest = .rollback k ∧ p.pending = some vs ∧ db' = db ∧
      p' = { p with rest := k, pending := none }) := by
  unfold Proc.advance at h
  split at h
  · rename_i o s k hrest
    split at h
    · cases h
    · rename_i r ws hx
      split at h
      · rename_i hall
        have hfree : ∀ key ∈ σ.keysOf ws, locked key = false := by
          intro key hk
          simpa using List.all_eq_true.1 hall key hk
        cases ho : p.pending with
        | none =>
          simp only [ho, Option.some.injEq, Prod.mk.injEq] at h
          exact Or.inl ⟨s, k, r, ws, hrest, by rw [← ho]; exact hx, hfree,
            Or.inl ⟨rfl, h.1.symm, by rw [← h.2]⟩⟩
        | some vs =>
          simp only [ho, Option.some.injEq, Prod.mk.injEq] at h
          exact Or.inl ⟨s, k, r, ws, hrest, by rw [← ho]; exact hx, hfree,
            Or.inr ⟨vs, rfl, h.1.symm, h.2.symm⟩⟩
      · cases h
  · rename_i k hrest ho
    simp only [Option.some.injEq, Prod.mk.injEq] at h
    exact Or.inr (Or.inl ⟨k, hrest, ho, h.1.symm, h.2.symm⟩)
  · rename_i k vs hrest ho
    simp only [Option.some.injEq, Prod.mk.injEq] at h
    exact Or.inr (Or.inr (Or.inl ⟨k, vs, hrest, ho, h.1.symm, h.2.symm⟩))
  · rename_i k vs hrest ho
    simp only [Option.some.injEq, Prod.mk.injEq] at h
    exact Or.inr (Or.inr (Or.inr ⟨k, vs, hrest, ho, h.1.symm, h.2.symm⟩))
  · cases h

variable [DecidableEq Key] {program : T → Prog S R X α}

/-- **Everything a move can do.** -/
theorem State.step_cases {s s' : State Db Write S R X T α} {m : Move T}
    (h : s.step σ program m = some s') :
    (∃ pid t, m = .spawn pid t ∧ s.procs.lookup pid = none ∧
      s' = { s with procs := s.procs.insert pid (Proc.start program t) }) ∨
    (∃ pid p db' p', m = .run pid ∧ s.procs.lookup pid = some p ∧ p.live = true ∧
      p.advance σ (s.lockedFor σ pid) s.db = some (db', p') ∧
      s' = ⟨db', s.procs.insert pid p'⟩) ∨
    (∃ pid p, m = .fail pid ∧ s.procs.lookup pid = some p ∧ p.live = true ∧
      s' = { s with procs := s.procs.insert pid { p with live := false, pending := none } }) := by
  cases m with
  | spawn pid t =>
    simp only [State.step] at h
    split at h
    · cases h
    · rename_i hl
      exact Or.inl ⟨pid, t, rfl, hl, (Option.some.inj h).symm⟩
  | run pid =>
    simp only [State.step] at h
    split at h
    · cases h
    · rename_i p hl
      split at h
      · rename_i hlive
        obtain ⟨⟨db', p'⟩, hadv, hs⟩ := Option.map_eq_some_iff.1 h
        exact Or.inr (Or.inl ⟨pid, p, db', p', rfl, hl, hlive, hadv, hs.symm⟩)
      · cases h
  | fail pid =>
    simp only [State.step] at h
    split at h
    · cases h
    · rename_i p hl
      split at h
      · rename_i hlive
        exact Or.inr (Or.inr ⟨pid, p, rfl, hl, hlive, (Option.some.inj h).symm⟩)
      · cases h

/-- A call that can advance is a possible move. -/
theorem State.step_run {s : State Db Write S R X T α} {pid : ℕ} {p p' : Proc Write S R X T α}
    {db' : Db} (hp : s.procs.lookup pid = some p) (hlive : p.live = true)
    (hadv : p.advance σ (s.lockedFor σ pid) s.db = some (db', p')) :
    s.step σ program (.run pid) = some ⟨db', s.procs.insert pid p'⟩ := by
  simp only [State.step, hp, hlive, if_true, hadv, Option.map_some]

/-- **Calls are never forgotten**, nor what they have published. -/
theorem State.history_of_step {s s' : State Db Write S R X T α} {m : Move T}
    (h : s.step σ program m = some s') {pid : ℕ} {p : Proc Write S R X T α}
    (hp : s.procs.lookup pid = some p) : ∃ p' ws, s'.procs.lookup pid = some p' ∧
      p'.task = p.task ∧ p'.durable = p.durable ++ ws := by
  have hsame : ∀ {j : ℕ} {q : Proc Write S R X T α}, pid ≠ j →
      (s.procs.insert j q).lookup pid = some p := fun hne ↦ by
    rwa [Finmap.lookup_insert_of_ne _ hne]
  rcases State.step_cases h with ⟨j, t, rfl, hl, rfl⟩ | ⟨j, q, db', q', rfl, hl, -, hadv, rfl⟩ |
    ⟨j, q, rfl, hl, -, rfl⟩
  · have hne : pid ≠ j := by
      rintro rfl
      rw [hp] at hl
      cases hl
    exact ⟨p, [], hsame hne, rfl, (List.append_nil _).symm⟩
  · by_cases hne : pid = j
    · subst hne
      rw [hp] at hl
      cases hl
      refine ⟨q', ?_⟩
      rcases Proc.advance_cases hadv with
        ⟨_, _, _, ws, _, _, _, ⟨_, _, rfl⟩ | ⟨_, _, _, rfl⟩⟩ | ⟨_, _, _, _, rfl⟩ |
        ⟨_, vs, _, _, _, rfl⟩ | ⟨_, _, _, _, _, rfl⟩
      · exact ⟨ws, Finmap.lookup_insert _, rfl, rfl⟩
      · exact ⟨[], Finmap.lookup_insert _, rfl, (List.append_nil _).symm⟩
      · exact ⟨[], Finmap.lookup_insert _, rfl, (List.append_nil _).symm⟩
      · exact ⟨vs, Finmap.lookup_insert _, rfl, rfl⟩
      · exact ⟨[], Finmap.lookup_insert _, rfl, (List.append_nil _).symm⟩
    · exact ⟨p, [], hsame hne, rfl, (List.append_nil _).symm⟩
  · by_cases hne : pid = j
    · subst hne
      rw [hp] at hl
      cases hl
      exact ⟨_, [], Finmap.lookup_insert _, rfl, (List.append_nil _).symm⟩
    · exact ⟨p, [], hsame hne, rfl, (List.append_nil _).symm⟩

/-- A call that has just been started. -/
theorem State.lookup_of_spawn {s s' : State Db Write S R X T α} {pid : ℕ} {t : T}
    (h : s.step σ program (.spawn pid t) = some s') :
    s'.procs.lookup pid = some (Proc.start program t) := by
  simp only [State.step] at h
  split at h
  · cases h
  · cases h
    exact Finmap.lookup_insert _

/-- A call was there before, with its task, or has just been started. -/
theorem State.task_of_step {s s' : State Db Write S R X T α} {m : Move T}
    (h : s.step σ program m = some s') {pid : ℕ} {p' : Proc Write S R X T α}
    (hp : s'.procs.lookup pid = some p') :
    (∃ p, s.procs.lookup pid = some p ∧ p'.task = p.task) ∨ m = .spawn pid p'.task := by
  cases hl : s.procs.lookup pid with
  | some p =>
    obtain ⟨q, _, hq, htask, -⟩ := State.history_of_step h hl
    rw [hp, Option.some.injEq] at hq
    exact .inl ⟨p, rfl, hq ▸ htask⟩
  | none =>
    have hnew : ∀ {j : ℕ} {q : Proc Write S R X T α},
        (s.procs.insert j q).lookup pid = some p' → pid = j ∧ p' = q := fun {j q} hq ↦ by
      by_cases hj : pid = j
      · subst hj
        rw [Finmap.lookup_insert, Option.some.injEq] at hq
        exact ⟨rfl, hq.symm⟩
      · rw [Finmap.lookup_insert_of_ne _ hj, hl] at hq
        cases hq
    rcases State.step_cases h with ⟨j, t, rfl, -, rfl⟩ | ⟨j, q, _, _, rfl, hq, -, -, rfl⟩ |
      ⟨j, q, rfl, hq, -, rfl⟩
    · obtain ⟨rfl, rfl⟩ := hnew hp
      exact .inr rfl
    all_goals
      obtain ⟨rfl, -⟩ := hnew hp
      rw [hl] at hq
      cases hq

/-- A call that was cut off holds no lock. -/
def State.DeadQuiet (s : State Db Write S R X T α) : Prop :=
  ∀ pid p, s.procs.lookup pid = some p → p.live = false → p.pending = none

theorem State.deadQuiet_of_step {s s' : State Db Write S R X T α} {m : Move T}
    (h : s.step σ program m = some s') (hs : s.DeadQuiet) : s'.DeadQuiet := by
  have hinsert : ∀ {j : ℕ} {q : Proc Write S R X T α} {db : Db},
      (q.live = false → q.pending = none) →
      State.DeadQuiet ⟨db, s.procs.insert j q⟩ := fun {j q db} hq pid p hp hdead ↦ by
    by_cases hne : pid = j
    · subst hne
      rw [Finmap.lookup_insert] at hp
      cases hp
      exact hq hdead
    · rw [Finmap.lookup_insert_of_ne _ hne] at hp
      exact hs pid p hp hdead
  rcases State.step_cases h with ⟨j, t, rfl, hl, rfl⟩ | ⟨j, q, db', q', rfl, hl, hlive, hadv, rfl⟩ |
    ⟨j, q, rfl, hl, -, rfl⟩
  · exact hinsert fun _ ↦ rfl
  · refine hinsert fun hdead ↦ ?_
    rcases Proc.advance_cases hadv with
      ⟨_, _, _, ws, _, _, _, ⟨_, _, rfl⟩ | ⟨_, _, _, rfl⟩⟩ | ⟨_, _, _, _, rfl⟩ |
      ⟨_, vs, _, _, _, rfl⟩ | ⟨_, _, _, _, _, rfl⟩ <;> simp [hlive] at hdead
  · exact hinsert fun _ ↦ rfl

/-- A property of the state a schedule leads to, when its calls may be started at any time. -/
theorem State.exists_of_steps {allowed : State Db Write S R X T α → T → Prop}
    {s : State Db Write S R X T α} (ms : List (Move T))
    (hallowed : ∀ t ∈ ms.filterMap Move.spawned, ∀ s, allowed s t)
    (P : State Db Write S R X T α → Prop) [DecidablePred P]
    (h : (s.steps σ program ms).any (fun s' ↦ decide (P s')) = true) :
    ∃ s', Reaches σ program allowed (fun _ _ ↦ True) s s' ∧ P s' := by
  obtain ⟨s', hs', hp⟩ := (Option.any_eq_true _ _).1 h
  refine ⟨s', ?_, of_decide_eq_true hp⟩
  clear h hp
  induction ms generalizing s with
  | nil =>
    cases hs'
    exact .refl
  | cons m ms ih =>
    obtain ⟨s₁, hs₁, hrest⟩ := Option.bind_eq_some_iff.1 hs'
    refine .head ⟨m, fun pid t he ↦ ?_, hs₁, trivial⟩ (ih (fun t ht ↦ hallowed t ?_) hrest)
    · subst he
      exact hallowed t (by simp [Move.spawned]) s
    · exact List.mem_filterMap.2 ((List.mem_filterMap.1 ht).imp fun _ h ↦ ⟨.tail _ h.1, h.2⟩)

/-! ### Programs without transactions -/

/-- A program that opens no transaction. -/
def Prog.Flat : Prog S R X α → Prop
  | .ret _ | .raise _ => True
  | .call _ k => ∀ r, (k r).Flat
  | .begin _ | .commit _ | .rollback _ => False

/-- **A call without transactions holds no lock**, wherever it stands. -/
theorem State.flat_of_step {s s' : State Db Write S R X T α} {m : Move T}
    (h : s.step σ program m = some s')
    (hs : ∀ pid p, s.procs.lookup pid = some p → (program p.task).Flat →
      p.rest.Flat ∧ p.pending = none) {pid : ℕ} {p : Proc Write S R X T α}
    (hp : s'.procs.lookup pid = some p) (hflat : (program p.task).Flat) :
    p.rest.Flat ∧ p.pending = none := by
  have hinsert : ∀ {j : ℕ} {q : Proc Write S R X T α} {db : Db},
      s' = ⟨db, s.procs.insert j q⟩ → ((program q.task).Flat → q.rest.Flat ∧ q.pending = none) →
      p.rest.Flat ∧ p.pending = none := fun {j q db} hs' hq ↦ by
    subst hs'
    by_cases hne : pid = j
    · subst hne
      rw [Finmap.lookup_insert] at hp
      cases hp
      exact hq hflat
    · rw [Finmap.lookup_insert_of_ne _ hne] at hp
      exact hs pid p hp hflat
  rcases State.step_cases h with ⟨j, t, rfl, hl, hs'⟩ | ⟨j, q, db', q', rfl, hl, hlive, hadv, hs'⟩ |
    ⟨j, q, rfl, hl, -, hs'⟩
  · exact hinsert hs' fun hq ↦ ⟨hq, rfl⟩
  · refine hinsert hs' fun hq' ↦ ?_
    have hq := hs j q hl
    rcases Proc.advance_cases hadv with
      ⟨_, _, r, _, hrest, _, _, ⟨_, _, rfl⟩ | ⟨_, hpend, _, rfl⟩⟩ | ⟨_, hrest, _, _, rfl⟩ |
      ⟨_, _, hrest, _, _, rfl⟩ | ⟨_, _, hrest, _, _, rfl⟩
    · obtain ⟨hrestFlat, hnone⟩ := hq hq'
      rw [hrest] at hrestFlat
      exact ⟨hrestFlat r, hnone⟩
    · rw [(hq hq').2] at hpend
      cases hpend
    all_goals
      have hrestFlat := (hq hq').1
      rw [hrest] at hrestFlat
      exact hrestFlat.elim
  · exact hinsert hs' fun hq ↦ ⟨(hs j q hl hq).1, rfl⟩

end Inversion

/-! ### Soundness -/

section Soundness

variable {σ : Store Db Write Key Err S R}

/-- Every live call of the state is proved against the contract from where it stands, the calls are
pairwise compatible, and no two of them hold one lock. -/
structure Coherent (C : Contract σ T) (post : T → Except X α → List Write → Db → Prop)
    (s : State Db Write S R X T α) : Prop where
  inv : C.inv s.db
  safe : ∀ pid p, s.procs.lookup pid = some p → p.live = true →
    C.wp p.task p.rest (fun r o d db ↦ o = none ∧ post p.task r d db) p.pending p.durable s.db
  compat : ∀ i j p q, i ≠ j → s.procs.lookup i = some p → s.procs.lookup j = some q →
    C.compat p.task q.task
  exclusive : ∀ i j key, i ≠ j → s.Holds σ i key → ¬ s.Holds σ j key

namespace Coherent

variable {C : Contract σ T} {post : T → Except X α → List Write → Db → Prop}
  {s s' : State Db Write S R X T α}

/-- A call replaced by its next state keeps coherence, when the others may rely on the change of
the store and the new locks were free. -/
private theorem update [DecidableEq Key] (h : Coherent C post s) {pid : ℕ}
    {p p' : Proc Write S R X T α} {db' : Db} (hl : s.procs.lookup pid = some p)
    (htask : p'.task = p.task) (hinv : C.inv db')
    (hsafe : p'.live = true →
      C.wp p'.task p'.rest (fun r o d db ↦ o = none ∧ post p'.task r d db) p'.pending p'.durable
        db')
    (hothers : ∀ j q, j ≠ pid → s.procs.lookup j = some q →
      C.Rely q.task (σ.held q.pending) s.db db')
    (hkeys : ∀ key ∈ σ.held p'.pending,
      key ∈ σ.held p.pending ∨ s.lockedFor σ pid key = false) :
    Coherent C post ⟨db', s.procs.insert pid p'⟩ := by
  have hother : ∀ j q, j ≠ pid → (s.procs.insert pid p').lookup j = some q →
      s.procs.lookup j = some q := by
    intro j q hne hq
    rwa [Finmap.lookup_insert_of_ne _ hne] at hq
  have hself : ∀ q, (s.procs.insert pid p').lookup pid = some q → q = p' := by
    intro q hq
    rw [Finmap.lookup_insert] at hq
    exact (Option.some.inj hq).symm
  -- the new holder of a key either held it before or found it free
  have hnew : ∀ j key, j ≠ pid → key ∈ σ.held p'.pending → ¬ s.Holds σ j key := by
    intro j key hne hk hj
    rcases hkeys key hk with hold | hfree
    · exact h.exclusive pid j key hne.symm ⟨p, hl, hold⟩ hj
    · have := (State.lockedFor_eq_true σ).2 ⟨j, hne, hj⟩
      simp [hfree] at this
  refine ⟨hinv, ?_, ?_, ?_⟩
  · intro j q hq hlive
    by_cases hj : j = pid
    · subst hj
      obtain rfl := hself q hq
      exact hsafe hlive
    · exact Contract.wp_stable (h.safe j q (hother j q hj hq) hlive)
        (hothers j q hj (hother j q hj hq))
  · intro i j q q' hij hq hq'
    by_cases hi : i = pid
    · subst hi
      obtain rfl := hself q hq
      rw [htask]
      exact h.compat _ _ _ _ hij hl (hother j q' (Ne.symm hij) hq')
    · by_cases hj : j = pid
      · subst hj
        obtain rfl := hself q' hq'
        rw [htask]
        exact h.compat _ _ _ _ hij (hother i q hi hq) hl
      · exact h.compat _ _ _ _ hij (hother i q hi hq) (hother j q' hj hq')
  · rintro i j key hij ⟨q, hq, hk⟩ ⟨q', hq', hk'⟩
    by_cases hi : i = pid
    · subst hi
      obtain rfl := hself q hq
      exact hnew j key (Ne.symm hij) hk ⟨q', hother j q' (Ne.symm hij) hq', hk'⟩
    · by_cases hj : j = pid
      · subst hj
        obtain rfl := hself q' hq'
        exact hnew i key hij hk' ⟨q, hother i q hi hq, hk⟩
      · exact h.exclusive i j key hij ⟨q, hother i q hi hq, hk⟩ ⟨q', hother j q' hj hq', hk'⟩

/-- What the other calls see when call `pid` publishes writes whose keys it held or found free. -/
private theorem rely_of_publish [DecidableEq Key] (h : Coherent C post s) {pid : ℕ}
    {p : Proc Write S R X T α} {ws : List Write} (hl : s.procs.lookup pid = some p)
    (hpub : C.Publishes p.task s.db ws) (ho : C.observed s.db (σ.applyAll s.db ws))
    (hkeys : ∀ key ∈ σ.keysOf ws, key ∈ σ.held p.pending ∨ s.lockedFor σ pid key = false)
    (j : ℕ) (q : Proc Write S R X T α) (hne : j ≠ pid) (hq : s.procs.lookup j = some q) :
    C.Rely q.task (σ.held q.pending) s.db (σ.applyAll s.db ws) := by
  refine ReflTransGen.single ⟨p.task, h.compat j pid q p hne hq hl, h.inv, hpub.1, hpub.2, ho, ?_⟩
  intro key hk
  refine σ.same_applyAll (fun hws ↦ ?_) _
  rcases hkeys key hws with hold | hfree
  · exact h.exclusive pid j key hne.symm ⟨p, hl, hold⟩ ⟨q, hq, hk⟩
  · have := (State.lockedFor_eq_true σ).2 ⟨j, hne, ⟨q, hq, hk⟩⟩
    simp [hfree] at this

/-- The obligation at the statement a live call is about to issue. -/
theorem demand (h : Coherent C post s) {pid : ℕ} {p : Proc Write S R X T α}
    (hl : s.procs.lookup pid = some p) (hlive : p.live = true) {st : S} {k : R st → Prog S R X α}
    (hrest : p.rest = .call st k) : C.demand p.task p.pending s.db st := by
  have hwp := h.safe pid p hl hlive
  rw [hrest] at hwp
  exact (hwp s.db (Contract.Rely.refl _) h.inv).1

/-- The postcondition of a call that returned. -/
theorem post_of_ret (h : Coherent C post s) {pid : ℕ} {p : Proc Write S R X T α}
    (hl : s.procs.lookup pid = some p) (hlive : p.live = true) {a : α} (hrest : p.rest = .ret a) :
    p.pending = none ∧ post p.task (.ok a) p.durable s.db := by
  have hwp := h.safe pid p hl hlive
  rw [hrest] at hwp
  exact hwp s.db (Contract.Rely.refl _) h.inv

/-- The postcondition of a call that threw. -/
theorem post_of_raise (h : Coherent C post s) {pid : ℕ} {p : Proc Write S R X T α}
    (hl : s.procs.lookup pid = some p) (hlive : p.live = true) {x : X} (hrest : p.rest = .raise x) :
    p.pending = none ∧ post p.task (.error x) p.durable s.db := by
  have hwp := h.safe pid p hl hlive
  rw [hrest] at hwp
  exact hwp s.db (Contract.Rely.refl _) h.inv

variable [DecidableEq Key] {program : T → Prog S R X α}
  {allowed : State Db Write S R X T α → T → Prop}

/-- **A call's own step keeps coherence.** -/
private theorem of_advance (h : Coherent C post s) {pid : ℕ} {p p' : Proc Write S R X T α}
    {db' : Db} (hl : s.procs.lookup pid = some p) (hlive : p.live = true)
    (hadv : p.advance σ (s.lockedFor σ pid) s.db = some (db', p'))
    (ho : C.observed s.db db') : Coherent C post ⟨db', s.procs.insert pid p'⟩ := by
  have hwp := h.safe pid p hl hlive
  have hquiet : ∀ j q, j ≠ pid → s.procs.lookup j = some q →
      C.Rely q.task (σ.held q.pending) s.db s.db := fun _ _ _ _ ↦ Contract.Rely.refl _
  rcases Proc.advance_cases hadv with ⟨st, k, r, ws, hrest, hx, hfree, hcase⟩ | hcase
  · rw [hrest] at hwp
    have hcall := (hwp s.db (Contract.Rely.refl _) h.inv).2 _ r ws hx
    rcases hcase with ⟨hpend, rfl, rfl⟩ | ⟨vs, hpend, rfl, rfl⟩
    · rw [hpend] at hcall
      refine h.update hl rfl (hcall ho).1.1 (fun _ ↦ by simpa [hpend] using (hcall ho).2) ?_ ?_
      · exact h.rely_of_publish hl (hcall ho).1 ho fun key hk ↦ Or.inr (hfree key hk)
      · simp [hpend]
    · rw [hpend] at hcall
      refine h.update hl rfl h.inv (fun _ ↦ hcall) hquiet fun key hk ↦ ?_
      rw [Store.held_some, Store.keysOf_append, List.mem_append] at hk
      rw [hpend]
      exact hk.imp_right (hfree key)
  · rcases hcase with ⟨k, hrest, hpend, rfl, rfl⟩ | ⟨k, vs, hrest, hpend, rfl, rfl⟩ |
      ⟨k, vs, hrest, hpend, rfl, rfl⟩
    · rw [hrest] at hwp
      exact h.update hl rfl h.inv (fun _ ↦ hwp.2) hquiet (by simp)
    · rw [hrest, hpend] at hwp
      have hpub := hwp s.db (Contract.Rely.refl _) h.inv ho
      refine h.update hl rfl hpub.1.1 (fun _ ↦ hpub.2) ?_ (by simp)
      exact h.rely_of_publish hl hpub.1 ho fun key hk ↦ Or.inl (by rw [hpend]; exact hk)
    · rw [hrest] at hwp
      exact h.update hl rfl h.inv (fun _ ↦ hwp.2) hquiet (by simp)

/-- **Every step keeps coherence**, when each admitted call is proved against the contract from the
store it starts on and is compatible with the calls before it. -/
theorem of_step (h : Coherent C post s)
    (hallowed : ∀ s t, Coherent C post s → allowed s t →
      C.wp t (program t) (fun r o d db ↦ o = none ∧ post t r d db) none [] s.db ∧
      ∀ pid p, s.procs.lookup pid = some p → C.compat t p.task ∧ C.compat p.task t)
    (hstep : Step σ program allowed C.observed s s') : Coherent C post s' := by
  obtain ⟨m, hspawn, hm, ho⟩ := hstep
  rcases State.step_cases hm with ⟨pid, t, rfl, hl, rfl⟩ |
    ⟨pid, p, db', p', rfl, hl, hlive, hadv, rfl⟩ |
    ⟨pid, p, rfl, hl, -, rfl⟩
  · obtain ⟨hwp, hcompat⟩ := hallowed s t h (hspawn pid t rfl)
    have hother : ∀ j q, j ≠ pid →
        (s.procs.insert pid (Proc.start program t)).lookup j = some q →
        s.procs.lookup j = some q := by
      intro j q hne hq
      rwa [Finmap.lookup_insert_of_ne _ hne] at hq
    have hself : ∀ q, (s.procs.insert pid (Proc.start program t)).lookup pid = some q →
        q = Proc.start program t := by
      intro q hq
      rw [Finmap.lookup_insert] at hq
      exact (Option.some.inj hq).symm
    -- the new call holds nothing, so every lock was held before
    have hholds : ∀ j key, State.Holds σ
        { s with procs := s.procs.insert pid (Proc.start program t) } j key →
        j ≠ pid ∧ s.Holds σ j key := by
      rintro j key ⟨q, hq, hk⟩
      by_cases hj : j = pid
      · subst hj
        obtain rfl := hself q hq
        simp [Proc.start] at hk
      · exact ⟨hj, q, hother j q hj hq, hk⟩
    refine ⟨h.inv, ?_, ?_, ?_⟩
    · intro j q hq hlive
      by_cases hj : j = pid
      · subst hj
        obtain rfl := hself q hq
        exact hwp
      · exact h.safe j q (hother j q hj hq) hlive
    · intro i j q q' hij hq hq'
      by_cases hi : i = pid
      · subst hi
        obtain rfl := hself q hq
        exact (hcompat j q' (hother j q' (Ne.symm hij) hq')).1
      · by_cases hj : j = pid
        · subst hj
          obtain rfl := hself q' hq'
          exact (hcompat i q (hother i q hi hq)).2
        · exact h.compat i j q q' hij (hother i q hi hq) (hother j q' hj hq')
    · intro i j key hij hi hj
      exact h.exclusive i j key hij (hholds i key hi).2 (hholds j key hj).2
  · exact h.of_advance hl hlive hadv ho
  · exact h.update hl rfl h.inv (by simp) (fun _ _ _ _ ↦ Contract.Rely.refl _) (by simp)

/-- **Soundness.** In every run from a state without calls, every state is coherent. -/
theorem of_reaches {s₀ : State Db Write S R X T α} (hinit : C.inv s₀.db) (hempty : s₀.procs = ∅)
    (hallowed : ∀ s t, Coherent C post s → allowed s t →
      C.wp t (program t) (fun r o d db ↦ o = none ∧ post t r d db) none [] s.db ∧
      ∀ pid p, s.procs.lookup pid = some p → C.compat t p.task ∧ C.compat p.task t)
    (hrun : Reaches σ program allowed C.observed s₀ s) : Coherent C post s := by
  induction hrun with
  | refl =>
    refine ⟨hinit, ?_, ?_, ?_⟩
    · intro pid p hp
      simp [hempty] at hp
    · intro i j p q _ hp
      simp [hempty] at hp
    · rintro i j key _ ⟨p, hp, -⟩
      simp [hempty] at hp
  | tail _ hstep ih => exact ih.of_step hallowed hstep

/-- **What one move does to the committed store**: nothing, or one commit of the call it moves that
keeps its guarantee, and whose writes the call remembers. -/
theorem change_of_move (h : Coherent C post s) {m : Move T} (hm : s.step σ program m = some s')
    (ho : C.observed s.db s'.db) :
    s'.db = s.db ∨ ∃ pid p p' ws, m = .run pid ∧ s.procs.lookup pid = some p ∧ p.live = true ∧
      s'.procs.lookup pid = some p' ∧ p'.task = p.task ∧ p'.durable = p.durable ++ ws ∧
      s'.db = σ.applyAll s.db ws ∧ C.guar p.task s.db s'.db := by
  rcases State.step_cases hm with ⟨_, _, _, _, rfl⟩ | ⟨pid, p, db', p', rfl, hl, hlive, hadv, rfl⟩ |
    ⟨_, _, _, _, _, rfl⟩
  · exact Or.inl rfl
  · have hwp := h.safe pid p hl hlive
    rcases Proc.advance_cases hadv with ⟨st, k, r, ws, hrest, hx, -, hcase⟩ | hcase
    · rw [hrest] at hwp
      have hcall := (hwp s.db (Contract.Rely.refl _) h.inv).2 _ r ws hx
      rcases hcase with ⟨hpend, rfl, rfl⟩ | ⟨_, _, rfl, -⟩
      · rw [hpend] at hcall
        exact Or.inr ⟨pid, p, _, ws, rfl, hl, hlive, Finmap.lookup_insert _, rfl, rfl, rfl,
          (hcall ho).1.2⟩
      · exact Or.inl rfl
    · rcases hcase with ⟨_, _, _, rfl, -⟩ | ⟨k, vs, hrest, hpend, rfl, rfl⟩ | ⟨_, _, _, _, rfl, -⟩
      · exact Or.inl rfl
      · rw [hrest, hpend] at hwp
        exact Or.inr ⟨pid, p, _, vs, rfl, hl, hlive, Finmap.lookup_insert _, rfl, rfl, rfl,
          (hwp s.db (Contract.Rely.refl _) h.inv ho).1.2⟩
      · exact Or.inl rfl
  · exact Or.inl rfl

/-- **What one step does to the committed store**: nothing, or one commit of some call. -/
theorem change_of_step (h : Coherent C post s) (hstep : Step σ program allowed C.observed s s') :
    s'.db = s.db ∨ ∃ pid p p' ws, s.procs.lookup pid = some p ∧ p.live = true ∧
      s'.procs.lookup pid = some p' ∧ p'.task = p.task ∧ p'.durable = p.durable ++ ws ∧
      s'.db = σ.applyAll s.db ws ∧ C.guar p.task s.db s'.db := by
  obtain ⟨m, -, hm, ho⟩ := hstep
  rcases h.change_of_move hm ho with heq | ⟨pid, p, p', ws, -, hchange⟩
  · exact Or.inl heq
  · exact Or.inr ⟨pid, p, p', ws, hchange⟩

end Coherent

end Soundness

/-! ### Finishing a call

The interleavings include the ones in which a call is left alone. They carry what is known of a
program that runs alone (`Contract.solo_of_wp`) to the interleaved system. -/

section Finishing

variable [DecidableEq Key] {σ : Store Db Write Key Err S R} {C : Contract σ T}
  {program : T → Prog S R X α} {allowed : State Db Write S R X T α → T → Prop}
  {s : State Db Write S R X T α} {pid : ℕ} {p p' : Proc Write S R X T α} {db' : Db}

/-- The locks that a call meets are those of the others. -/
theorem State.lockedFor_insert_self (key : Key) :
    State.lockedFor σ ⟨db', s.procs.insert pid p'⟩ pid key = s.lockedFor σ pid key := by
  rw [Bool.eq_iff_iff, State.lockedFor_eq_true, State.lockedFor_eq_true]
  refine exists_congr fun j ↦ and_congr_right fun hne ↦ ?_
  simp only [State.Holds, Finmap.lookup_insert_of_ne _ hne]

/-- The call can be run to its result, which leaves the store `db'` and the other calls alone. -/
def State.Finishes (σ : Store Db Write Key Err S R) (program : T → Prog S R X α)
    (allowed : State Db Write S R X T α → T → Prop) (observed : Db → Db → Prop)
    (s : State Db Write S R X T α) (pid : ℕ) (t : T) (a : α) (db' : Db) : Prop :=
  ∃ s', Reaches σ program allowed observed s s' ∧ s'.db = db' ∧
    (∀ j, j ≠ pid → s'.procs.lookup j = s.procs.lookup j) ∧
    ∃ p, s'.procs.lookup pid = some p ∧ p.task = t ∧ p.live = true ∧ p.rest = .ret a

/-- A call that can be finished after its next step. -/
theorem State.Finishes.of_advance {observed : Db → Db → Prop} {a : α} {db₁ : Db}
    (hp : s.procs.lookup pid = some p) (hlive : p.live = true)
    (hadv : p.advance σ (s.lockedFor σ pid) s.db = some (db₁, p'))
    (hobs : observed s.db db₁)
    (h : State.Finishes σ program allowed observed ⟨db₁, s.procs.insert pid p'⟩ pid p.task a db') :
    s.Finishes σ program allowed observed pid p.task a db' := by
  obtain ⟨s', hrun, hdb, hothers, hself⟩ := h
  refine ⟨s', .head ⟨.run pid, by rintro _ _ ⟨⟩, State.step_run hp hlive hadv, hobs⟩ hrun, hdb,
    fun j hj ↦ ?_, hself⟩
  rw [hothers j hj]
  exact Finmap.lookup_insert_of_ne _ hj

/-- **A call that meets no lock can be finished.** The schedule that runs this call only leads to
the result, and to the store, of its program alone. -/
theorem Contract.finishes_of_wp {Q : Except X α → Option (List Write) → List Write → Db → Prop}
    (hp : s.procs.lookup pid = some p) (hlive : p.live = true)
    (hfree : ∀ key, s.lockedFor σ pid key = false)
    (h : C.wp p.task p.rest Q p.pending p.durable s.db) (hi : C.inv s.db)
    (hobs : ∀ a b, C.observed a b) {a : α}
    (hsolo : p.rest.solo σ p.pending s.db = (.returned a, db')) :
    s.Finishes σ program allowed C.observed pid p.task a db' := by
  have hfree' : ∀ {s : State Db Write S R X T α} {q : Proc Write S R X T α} {db : Db},
      (∀ key, s.lockedFor σ pid key = false) →
      ∀ key, State.lockedFor σ ⟨db, s.procs.insert pid q⟩ pid key = false :=
    fun hfree key ↦ (State.lockedFor_insert_self key).trans (hfree key)
  obtain ⟨t, rest, o, d, live⟩ := p
  obtain rfl : live = true := hlive
  -- a step of the call alone is a step of the system, as nobody holds a lock
  induction rest generalizing s o d with
  | ret b =>
    cases hsolo
    exact ⟨s, .refl, rfl, fun _ _ ↦ rfl, _, hp, rfl, rfl, rfl⟩
  | raise x => cases hsolo
  | call st k ih =>
    have hlocked : s.lockedFor σ pid = fun _ ↦ false := funext hfree
    cases hx : σ.exec st (fun _ ↦ false) (σ.view s.db o) with
    | error e =>
      rw [Prog.solo_call_error hx] at hsolo
      cases hsolo
    | ok result =>
      obtain ⟨r, ws⟩ := result
      have hk := (h s.db (.refl _) hi).2 _ r ws hx
      cases o with
      | none =>
        have hstep : (Prog.call st k).solo σ none s.db = (k r).solo σ none (σ.applyAll s.db ws) :=
          Prog.solo_call_none hx
        obtain ⟨hpub, hwp⟩ := hk (hobs _ _)
        refine .of_advance hp rfl (Proc.advance_call_none rfl rfl (by rw [hlocked]; exact hx)
          fun key _ ↦ hfree key) (hobs _ _) ?_
        exact ih r (hfree' hfree) hpub.1 _ _ (Finmap.lookup_insert _) hwp (hstep ▸ hsolo)
      | some vs =>
        have hstep : (Prog.call st k).solo σ (some vs) s.db =
            (k r).solo σ (some (vs ++ ws)) s.db := Prog.solo_call_some hx
        refine .of_advance hp rfl (Proc.advance_call_some rfl rfl (by rw [hlocked]; exact hx)
          fun key _ ↦ hfree key) (hobs _ _) ?_
        exact ih r (hfree' hfree) hi _ _ (Finmap.lookup_insert _) hk (hstep ▸ hsolo)
  | begin k ih =>
    obtain ⟨rfl, hwp⟩ := h
    refine .of_advance hp rfl (Proc.advance_begin rfl rfl) (hobs _ _) ?_
    exact ih (hfree' hfree) hi _ _ (Finmap.lookup_insert _) hwp hsolo
  | commit k ih =>
    cases o with
    | none => exact h.elim
    | some vs =>
      obtain ⟨hpub, hwp⟩ := h s.db (.refl _) hi (hobs _ _)
      refine .of_advance hp rfl (Proc.advance_commit rfl rfl) (hobs _ _) ?_
      exact ih (hfree' hfree) hpub.1 _ _ (Finmap.lookup_insert _) hwp hsolo
  | rollback k ih =>
    cases o with
    | none => exact absurd rfl h.1
    | some vs =>
      refine .of_advance hp rfl (Proc.advance_rollback rfl rfl) (hobs _ _) ?_
      exact ih (hfree' hfree) hi _ _ (Finmap.lookup_insert _) h.2 hsolo

/-- The calls in a list can be cut off. -/
theorem State.exists_cut {observed : Db → Db → Prop} (hobs : ∀ a, observed a a) (pids : List ℕ)
    (s : State Db Write S R X T α) : ∃ s', Reaches σ program allowed observed s s' ∧ s'.db = s.db ∧
      ∀ j p', s'.procs.lookup j = some p' → ∃ p, s.procs.lookup j = some p ∧ p'.task = p.task ∧
        (p.live = false ∨ j ∈ pids → p'.live = false) := by
  induction pids generalizing s with
  | nil => exact ⟨s, .refl, rfl, fun j p hp ↦ ⟨p, hp, rfl, by simp⟩⟩
  | cons pid pids ih =>
    -- the first call is cut off, unless it is gone
    have hfirst : ∃ s₁, Reaches σ program allowed observed s s₁ ∧ s₁.db = s.db ∧
        ∀ j p', s₁.procs.lookup j = some p' → ∃ p, s.procs.lookup j = some p ∧ p'.task = p.task ∧
          (p.live = false ∨ j = pid → p'.live = false) := by
      cases hp : s.procs.lookup pid with
      | none =>
        refine ⟨s, .refl, rfl, fun j p hj ↦ ⟨p, hj, rfl, ?_⟩⟩
        rintro (hdead | rfl)
        · exact hdead
        · rw [hp] at hj
          cases hj
      | some q =>
        cases hlive : q.live with
        | false =>
          refine ⟨s, .refl, rfl, fun j p hj ↦ ⟨p, hj, rfl, ?_⟩⟩
          rintro (hdead | rfl)
          · exact hdead
          · rw [hp, Option.some.injEq] at hj
            rwa [← hj]
        | true =>
          have hstep : s.step σ program (.fail pid) = some
              { s with procs := s.procs.insert pid { q with live := false, pending := none } } := by
            simp only [State.step, hp, hlive, if_true]
          refine ⟨_, .single ⟨.fail pid, by rintro _ _ ⟨⟩, hstep, hobs _⟩, rfl, fun j p hj ↦ ?_⟩
          by_cases hne : j = pid
          · subst hne
            rw [Finmap.lookup_insert, Option.some.injEq] at hj
            subst hj
            exact ⟨q, hp, rfl, fun _ ↦ rfl⟩
          · rw [Finmap.lookup_insert_of_ne _ hne] at hj
            exact ⟨p, hj, rfl, fun hdead ↦ hdead.resolve_right hne⟩
    obtain ⟨s₁, hrun₁, hdb₁, hcut₁⟩ := hfirst
    obtain ⟨s₂, hrun₂, hdb₂, hcut₂⟩ := ih s₁
    refine ⟨s₂, ReflTransGen.trans hrun₁ hrun₂, hdb₂.trans hdb₁, fun j p₂ hp₂ ↦ ?_⟩
    obtain ⟨p₁, hp₁, htask₁, hdead₁⟩ := hcut₂ j p₂ hp₂
    obtain ⟨p, hp, htask, hdead⟩ := hcut₁ j p₁ hp₁
    refine ⟨p, hp, htask₁.trans htask, fun h ↦ hdead₁ ?_⟩
    rw [List.mem_cons, ← or_assoc] at h
    exact h.imp_left hdead

theorem State.deadQuiet_of_reaches {observed : Db → Db → Prop} {s' : State Db Write S R X T α}
    (h : Reaches σ program allowed observed s s') (hs : s.DeadQuiet) : s'.DeadQuiet := by
  induction h with
  | refl => exact hs
  | tail _ hstep ih =>
    obtain ⟨m, -, hm, -⟩ := hstep
    exact State.deadQuiet_of_step hm ih

/-- **All calls can be cut off**, and nobody holds a lock then. -/
theorem State.exists_idle {observed : Db → Db → Prop} (hobs : ∀ a, observed a a)
    (hs : s.DeadQuiet) : ∃ s', Reaches σ program allowed observed s s' ∧ s'.db = s.db ∧
      (∀ j key, s'.lockedFor σ j key = false) ∧
      ∀ j p', s'.procs.lookup j = some p' → ∃ p, s.procs.lookup j = some p ∧ p'.task = p.task := by
  obtain ⟨s', hrun, hdb, hcut⟩ : ∃ s', Reaches σ program allowed observed s s' ∧ _ ∧ _ :=
    State.exists_cut hobs s.procs.keys.toList s
  refine ⟨s', hrun, hdb, fun j key ↦ ?_, fun j p' hp' ↦ ?_⟩
  · rw [Bool.eq_false_iff, Ne, State.lockedFor_eq_true]
    rintro ⟨i, -, p', hp', hkey⟩
    obtain ⟨p, hp, -, hdead⟩ := hcut i p' hp'
    have hmem : i ∈ s.procs.keys.toList :=
      Finset.mem_toList.2 (Finmap.mem_keys.2 (Finmap.mem_of_lookup_eq_some hp))
    rw [State.deadQuiet_of_reaches hrun hs i p' hp' (hdead (.inr hmem))] at hkey
    cases hkey
  · obtain ⟨p, hp, htask, -⟩ := hcut j p' hp'
    exact ⟨p, hp, htask⟩

end Finishing

-- from here on programs are proved with the rules
attribute [irreducible] Contract.wp

end Transactional
