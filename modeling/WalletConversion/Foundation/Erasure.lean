import WalletConversion.Foundation.RelyGuarantee

/-!
# Runs without some of their calls

`State.Erased gone s s'` says that `s'` is `s` as it would be had the calls in `gone` never been
started: the committed store and all other calls are the same.

* `State.Erased.step_kept` — a move of another call is possible without the erased calls as well,
  since there are fewer locks;
* `State.Erased.step_gone` — a move of an erased call is not repeated, if the call publishes
  nothing;
* `State.Erased.steps` — once the erased calls hold no lock, the two states have the same future.
-/

namespace Transactional

variable {Db Write Key Err S : Type} {R : S → Type} {X T α : Type}

/-- The call a move is about. -/
def Move.pid : Move T → ℕ
  | spawn pid _ | run pid | fail pid => pid

/-- The second state is the first without the calls in `gone`. -/
structure State.Erased (gone : Set ℕ) (s s' : State Db Write S R X T α) : Prop where
  db : s'.db = s.db
  kept : ∀ pid ∉ gone, s'.procs.lookup pid = s.procs.lookup pid
  erased : ∀ pid ∈ gone, s'.procs.lookup pid = none

section Calls

variable {σ : Store Db Write Key Err S R} {locked locked' : Key → Bool} {db : Db}
  {p : Proc Write S R X T α} {q : Db × Proc Write S R X T α}

/-- A step that is possible is possible under fewer locks, if its statement has the same result. -/
theorem Proc.advance_of_unlocked (h : p.advance σ locked db = some q)
    (hexec : ∀ st k, p.rest = .call st k →
      σ.exec st locked' (σ.view db p.pending) = σ.exec st locked (σ.view db p.pending))
    (hfree : ∀ key, locked' key = true → locked key = true) : p.advance σ locked' db = some q := by
  obtain ⟨db', p'⟩ := q
  rcases Proc.advance_cases h with ⟨st, k, r, ws, hrest, hx, hunlocked, hcase⟩ |
    ⟨k, hrest, hpending, rfl, rfl⟩ | ⟨k, vs, hrest, hpending, rfl, rfl⟩ |
    ⟨k, vs, hrest, hpending, rfl, rfl⟩
  · rw [← hexec st k hrest] at hx
    have hunlocked' : ∀ key ∈ σ.keysOf ws, locked' key = false := fun key hkey ↦ by
      by_contra hne
      have := hfree key (by simpa using hne)
      rw [hunlocked key hkey] at this
      cases this
    rcases hcase with ⟨hpending, rfl, rfl⟩ | ⟨vs, hpending, rfl, rfl⟩
    · rw [hpending, Store.view_none] at hx
      exact Proc.advance_call_none hrest hpending hx hunlocked'
    · rw [hpending, Store.view_some] at hx
      exact Proc.advance_call_some hrest hpending hx hunlocked'
  · exact Proc.advance_begin hrest hpending
  · exact Proc.advance_commit hrest hpending
  · exact Proc.advance_rollback hrest hpending

end Calls

namespace State

variable {σ : Store Db Write Key Err S R} {program : T → Prog S R X α} {gone : Set ℕ}
  {s s' u : State Db Write S R X T α} {pid : ℕ} {key : Key} {m : Move T}

/-- The calls in `gone` hold no lock. -/
def Quiet (gone : Set ℕ) (s : State Db Write S R X T α) : Prop :=
  ∀ pid ∈ gone, ∀ p, s.procs.lookup pid = some p → p.pending = none

/-- A move changes no other call. -/
theorem lookup_of_step [DecidableEq Key] (h : s.step σ program m = some u) (hpid : pid ≠ m.pid) :
    u.procs.lookup pid = s.procs.lookup pid := by
  rcases step_cases h with ⟨j, t, rfl, -, rfl⟩ | ⟨j, q, db, q', rfl, -, -, -, rfl⟩ |
    ⟨j, q, rfl, -, -, rfl⟩ <;> exact Finmap.lookup_insert_of_ne _ hpid

theorem Quiet.of_step [DecidableEq Key] (h : s.Quiet gone) (hm : s.step σ program m = some u)
    (hpid : m.pid ∉ gone) : u.Quiet gone := by
  intro pid hgone p hp
  have hne : pid ≠ m.pid := fun he ↦ hpid (he ▸ hgone)
  rw [lookup_of_step hm hne] at hp
  exact h pid hgone p hp

namespace Erased

/-! ### Locks -/

theorem holds (h : s.Erased gone s') (hheld : s'.Holds σ pid key) :
    pid ∉ gone ∧ s.Holds σ pid key := by
  obtain ⟨p, hp, hkey⟩ := hheld
  by_cases hgone : pid ∈ gone
  · rw [h.erased pid hgone] at hp
    cases hp
  · exact ⟨hgone, p, by rwa [← h.kept pid hgone], hkey⟩

variable [DecidableEq Key]

/-- Without the erased calls fewer keys are locked. -/
theorem locked (h : s.Erased gone s') (hlocked : s'.lockedFor σ pid key = true) :
    s.lockedFor σ pid key = true := by
  obtain ⟨j, hne, hheld⟩ := (lockedFor_eq_true σ).1 hlocked
  exact (lockedFor_eq_true σ).2 ⟨j, hne, (h.holds hheld).2⟩

/-- A key that no erased call holds is locked as before. -/
theorem lockedFor_eq (h : s.Erased gone s') (hfree : ∀ j ∈ gone, ¬ s.Holds σ j key) :
    s'.lockedFor σ pid key = s.lockedFor σ pid key := by
  rw [Bool.eq_iff_iff]
  refine ⟨h.locked, fun hlocked ↦ ?_⟩
  obtain ⟨j, hne, p, hp, hkey⟩ := (lockedFor_eq_true σ).1 hlocked
  have hj : j ∉ gone := fun hgone ↦ hfree j hgone ⟨p, hp, hkey⟩
  exact (lockedFor_eq_true σ).2 ⟨j, hne, p, by rwa [h.kept j hj], hkey⟩

/-! ### Moves -/

omit [DecidableEq Key] in
theorem insert (h : s.Erased gone s') (hpid : pid ∉ gone) (p : Proc Write S R X T α) (db : Db) :
    Erased gone ⟨db, s.procs.insert pid p⟩ ⟨db, s'.procs.insert pid p⟩ where
  db := rfl
  kept j hj := by
    by_cases hne : j = pid
    · subst hne
      rw [Finmap.lookup_insert, Finmap.lookup_insert]
    · rw [Finmap.lookup_insert_of_ne _ hne, Finmap.lookup_insert_of_ne _ hne]
      exact h.kept j hj
  erased j hj := by
    have hne : j ≠ pid := fun he ↦ hpid (he ▸ hj)
    rw [Finmap.lookup_insert_of_ne _ hne]
    exact h.erased j hj

/-- **A move of another call is possible without the erased calls.** -/
theorem step_kept (h : s.Erased gone s') (hm : s.step σ program m = some u) (hpid : m.pid ∉ gone)
    (hexec : ∀ p st k, s.procs.lookup m.pid = some p → p.rest = .call st k →
      σ.exec st (s'.lockedFor σ m.pid) (σ.view s.db p.pending) =
        σ.exec st (s.lockedFor σ m.pid) (σ.view s.db p.pending)) :
    ∃ u', s'.step σ program m = some u' ∧ u.Erased gone u' := by
  rcases step_cases hm with ⟨j, t, rfl, hl, rfl⟩ | ⟨j, q, db, q', rfl, hl, hlive, hadv, rfl⟩ |
    ⟨j, q, rfl, hl, hlive, rfl⟩
  · have hl' : s'.procs.lookup j = none := (h.kept j hpid).trans hl
    refine ⟨⟨s.db, s'.procs.insert j (Proc.start program t)⟩, ?_, h.insert hpid _ _⟩
    simp only [State.step, hl', h.db]
  · have hl' : s'.procs.lookup j = some q := (h.kept j hpid).trans hl
    have hadv' : q.advance σ (s'.lockedFor σ j) s'.db = some (db, q') := by
      rw [h.db]
      exact Proc.advance_of_unlocked hadv (fun st k ↦ hexec q st k hl) fun key ↦ h.locked
    exact ⟨⟨db, s'.procs.insert j q'⟩, step_run hl' hlive hadv', h.insert hpid _ _⟩
  · have hl' : s'.procs.lookup j = some q := (h.kept j hpid).trans hl
    refine ⟨⟨s.db, s'.procs.insert j { q with live := false, pending := none }⟩, ?_,
      h.insert hpid _ _⟩
    simp only [State.step, hl', hlive, if_true, h.db]

/-- **A move of an erased call that publishes nothing is not missed.** -/
theorem step_gone (h : s.Erased gone s') (hm : s.step σ program m = some u) (hpid : m.pid ∈ gone)
    (hidle : ∀ p, u.procs.lookup m.pid = some p → p.durable = []) : u.Erased gone s' := by
  have hkept : ∀ pid ∉ gone, s'.procs.lookup pid = u.procs.lookup pid := fun pid hgone ↦ by
    have hne : pid ≠ m.pid := fun he ↦ hgone (he ▸ hpid)
    rw [lookup_of_step hm hne, h.kept pid hgone]
  refine ⟨?_, hkept, h.erased⟩
  rw [h.db]
  rcases step_cases hm with ⟨j, t, rfl, hl, rfl⟩ | ⟨j, q, db, q', rfl, hl, hlive, hadv, rfl⟩ |
    ⟨j, q, rfl, hl, hlive, rfl⟩
  · rfl
  · have hq' : q'.durable = [] := hidle q' (Finmap.lookup_insert _)
    rcases Proc.advance_cases hadv with
      ⟨_, _, _, ws, _, _, _, ⟨_, rfl, rfl⟩ | ⟨_, _, rfl, -⟩⟩ | ⟨_, _, _, rfl, -⟩ |
      ⟨_, vs, _, _, rfl, rfl⟩ | ⟨_, _, _, _, rfl, -⟩
    · obtain ⟨-, rfl⟩ := List.append_eq_nil_iff.1 hq'
      rfl
    · rfl
    · rfl
    · obtain ⟨-, rfl⟩ := List.append_eq_nil_iff.1 hq'
      rfl
    · rfl
  · rfl

/-- A move of another call does the same in both states, when the erased calls hold no lock. -/
theorem rel_step (h : s.Erased gone s') (hquiet : s.Quiet gone) (hpid : m.pid ∉ gone) :
    Option.Rel (Erased gone) (s.step σ program m) (s'.step σ program m) := by
  have hlocked : ∀ pid, s'.lockedFor σ pid = s.lockedFor σ pid := fun pid ↦ by
    funext key
    refine h.lockedFor_eq fun j hj ⟨p, hp, hheld⟩ ↦ ?_
    rw [hquiet j hj p hp] at hheld
    cases hheld
  cases m with
  | spawn pid t =>
    simp only [State.step, h.kept pid hpid, h.db]
    cases s.procs.lookup pid with
    | none => exact .some (h.insert hpid _ _)
    | some p => exact .none
  | run pid =>
    simp only [State.step, h.kept pid hpid, h.db, hlocked]
    cases s.procs.lookup pid with
    | none => exact .none
    | some p =>
      dsimp only
      split
      · cases p.advance σ (s.lockedFor σ pid) s.db with
        | none => exact .none
        | some q => exact .some (h.insert hpid _ _)
      · exact .none
  | fail pid =>
    simp only [State.step, h.kept pid hpid, h.db]
    cases s.procs.lookup pid with
    | none => exact .none
    | some p =>
      dsimp only
      split
      · exact .some (h.insert hpid _ _)
      · exact .none

/-- **The same future.** Once the erased calls hold no lock, every schedule of the others leads to
the same state, with the erased calls and without. -/
theorem steps (h : s.Erased gone s') (hquiet : s.Quiet gone) {ms : List (Move T)}
    (hms : ∀ m ∈ ms, m.pid ∉ gone) :
    Option.Rel (Erased gone) (s.steps σ program ms) (s'.steps σ program ms) := by
  induction ms generalizing s s' with
  | nil => exact .some h
  | cons m ms ih =>
    have hpid := hms m List.mem_cons_self
    have hstep : Option.Rel (Erased gone) (s.step σ program m) (s'.step σ program m) :=
      h.rel_step hquiet hpid
    simp only [State.steps]
    cases hu : s.step σ program m with
    | none =>
      rw [hu] at hstep
      cases hu' : s'.step σ program m with
      | none => exact .none
      | some u' =>
        rw [hu'] at hstep
        cases hstep
    | some u =>
      rw [hu] at hstep
      cases hu' : s'.step σ program m with
      | none =>
        rw [hu'] at hstep
        cases hstep
      | some u' =>
        rw [hu'] at hstep
        cases hstep with
        | some herased =>
          exact ih herased (hquiet.of_step hu hpid) fun m' hm' ↦ hms m' (List.mem_cons_of_mem _ hm')

end Erased

end State

end Transactional
