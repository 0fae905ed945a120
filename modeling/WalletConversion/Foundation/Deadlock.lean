import WalletConversion.Foundation.RelyGuarantee

/-!
# Calls that wait for each other

A call *asks* for the keys its next statement would lock, and *waits* for another call that holds
one of them. A call can wait for itself by way of others only in a deadlock.

When keys have ranks, and a call that holds a key asks for keys of a higher rank only, nobody can:
the ranks go up along every chain of waiting calls. `State.exempt_of_cycle` allows for exceptions to
the order: if the exceptional keys have the rank of the keys that are held, then in a cycle every
call is such an exception.
-/

namespace Transactional

open Relation

variable {Db Write Key Err S : Type} {R : S → Type} {X T α : Type} [DecidableEq Key]
  (σ : Store Db Write Key Err S R)

namespace State

/-- The keys a call asks for: those its next statement would lock. -/
def asks (s : State Db Write S R X T α) (i : ℕ) : List Key :=
  match s.procs.lookup i with
  | none => []
  | some p =>
    match p.live, p.rest with
    | true, .call st _ =>
      match σ.exec st (s.lockedFor σ i) (σ.view s.db p.pending) with
      | .ok (_, ws) => σ.keysOf ws
      | .error _ => []
    | _, _ => []

/-- Call `i` waits for call `j`, which holds the key. -/
def WaitsOn (s : State Db Write S R X T α) (i : ℕ) (key : Key) (j : ℕ) : Prop :=
  i ≠ j ∧ key ∈ s.asks σ i ∧ s.Holds σ j key

/-- Call `i` waits for call `j`. -/
def WaitsFor (s : State Db Write S R X T α) (i j : ℕ) : Prop :=
  ∃ key, s.WaitsOn σ i key j

omit [DecidableEq Key] in
theorem holds_iff {s : State Db Write S R X T α} {j : ℕ} {key : Key} :
    s.Holds σ j key ↔ key ∈ (s.procs.lookup j).elim [] fun p ↦ σ.held p.pending := by
  unfold Holds
  cases s.procs.lookup j <;> simp

instance (s : State Db Write S R X T α) (j : ℕ) (key : Key) : Decidable (s.Holds σ j key) :=
  decidable_of_iff _ (holds_iff σ).symm

instance (s : State Db Write S R X T α) (i : ℕ) (key : Key) (j : ℕ) :
    Decidable (s.WaitsOn σ i key j) :=
  inferInstanceAs (Decidable (_ ∧ _ ∧ _))

variable {σ} {s : State Db Write S R X T α} {i j k : ℕ} {key held : Key}

/-- A call asks for the keys of the statement it is about to issue. -/
theorem mem_asks : key ∈ s.asks σ i ↔ ∃ p st k r ws, s.procs.lookup i = some p ∧ p.live = true ∧
    p.rest = .call st k ∧
    σ.exec st (s.lockedFor σ i) (σ.view s.db p.pending) = .ok (r, ws) ∧ key ∈ σ.keysOf ws := by
  unfold asks
  constructor
  · intro h
    split at h
    · cases h
    · rename_i p hp
      split at h
      · rename_i st k hlive hrest
        split at h
        · rename_i r ws hx
          exact ⟨p, st, k, r, ws, hp, hlive, hrest, hx, h⟩
        · cases h
      · cases h
  · rintro ⟨p, st, k, r, ws, hp, hlive, hrest, hx, hkey⟩
    simp only [hp, hlive, hrest, hx]
    exact hkey

section Order

variable {rank : Key → ℕ} {Exempt : ℕ → Key → Key → Prop}

/-- Ranks do not go down along waiting calls. -/
theorem rank_le_of_path
    (hordered : ∀ i key held, key ∈ s.asks σ i → s.Holds σ i held → ¬ s.Holds σ i key →
      rank held < rank key ∨ Exempt i held key)
    (hexempt : ∀ i held key, Exempt i held key → rank held = rank key)
    (hexclusive : ∀ i j key, i ≠ j → s.Holds σ i key → ¬ s.Holds σ j key)
    (hwaits : s.WaitsOn σ i key j) (hpath : ReflTransGen (s.WaitsFor σ) j k) :
    ∃ i' key', s.WaitsOn σ i' key' k ∧ rank key ≤ rank key' := by
  induction hpath with
  | refl => exact ⟨i, key, hwaits, le_rfl⟩
  | @tail b c _ hstep ih =>
    obtain ⟨i', held, hheld, hle⟩ := ih
    obtain ⟨key', hkey'⟩ := hstep
    refine ⟨b, key', hkey', hle.trans ?_⟩
    have hnot : ¬ s.Holds σ b key' := hexclusive c b key' (Ne.symm hkey'.1) hkey'.2.2
    rcases hordered b key' held hkey'.2.1 hheld.2.2 hnot with hlt | hex
    · exact hlt.le
    · exact (hexempt b held key' hex).le

/-- **In a cycle every call is an exception to the order.** Call `i` asks for a key and holds one
that another call of the cycle asks for. -/
theorem exempt_of_cycle
    (hordered : ∀ i key held, key ∈ s.asks σ i → s.Holds σ i held → ¬ s.Holds σ i key →
      rank held < rank key ∨ Exempt i held key)
    (hexempt : ∀ i held key, Exempt i held key → rank held = rank key)
    (hexclusive : ∀ i j key, i ≠ j → s.Holds σ i key → ¬ s.Holds σ j key)
    (hwaits : s.WaitsOn σ i key j) (hpath : ReflTransGen (s.WaitsFor σ) j k)
    (hback : s.WaitsOn σ k held i) : Exempt i held key := by
  have hnot : ¬ s.Holds σ i key := hexclusive j i key (Ne.symm hwaits.1) hwaits.2.2
  rcases hordered i key held hwaits.2.1 hback.2.2 hnot with hlt | hex
  · -- the key that closes the cycle has at least the rank of the first one
    have hnot' : ¬ s.Holds σ k held := hexclusive i k held (Ne.symm hback.1) hback.2.2
    obtain ⟨l, key', hkey', hle⟩ := rank_le_of_path hordered hexempt hexclusive hwaits hpath
    have hup : rank key' ≤ rank held := by
      rcases hordered k held key' hback.2.1 hkey'.2.2 hnot' with hlt' | hex'
      · exact hlt'.le
      · exact (hexempt k key' held hex').le
    exact absurd (hle.trans hup) (Nat.not_le.2 hlt)
  · exact hex

end Order

end State

end Transactional
