import Mathlib.Algebra.BigOperators.Group.Finset.Basic
import Mathlib.Algebra.Order.BigOperators.Group.Finset
import Mathlib.Data.Finmap
import Mathlib.Tactic.Abel

/-!
# Finite tables and their totals

A table is a finite map from keys to rows. This file adds to Mathlib's `Finmap` what bookkeeping
needs: the total of a quantity over the rows (`Table.total`) and how one insertion changes it.

* `total_insert_new` — a new row adds its own quantity.
* `total_insert_old` — a replaced row trades its old quantity for the new one.
* `le_total` — with nonnegative quantities one row is at most the total.
-/

/-- A finite map from keys to rows. -/
abbrev Table (K V : Type) := Finmap fun _ : K ↦ V

namespace Table

variable {K V M : Type} [DecidableEq K]

/-- Two tables with the same rows are the same table. -/
theorem ext {s t : Table K V} (h : ∀ k, s.lookup k = t.lookup k) : s = t :=
  Finmap.ext_lookup h

theorem insert_self {t : Table K V} {k : K} {v : V} (h : t.lookup k = some v) :
    t.insert k v = t := by
  refine ext fun j ↦ ?_
  by_cases hj : j = k
  · rw [hj, Finmap.lookup_insert, h]
  · rw [Finmap.lookup_insert_of_ne _ hj]

theorem lookup_insert_eq (t : Table K V) (j k : K) (v : V) :
    (t.insert k v).lookup j = if j = k then some v else t.lookup j := by
  by_cases hj : j = k
  · rw [if_pos hj, hj, Finmap.lookup_insert]
  · rw [if_neg hj, Finmap.lookup_insert_of_ne _ hj]

/-- A row of an updated table is the new row or an old one. -/
theorem lookup_insert_cases {t : Table K V} {j k : K} {v w : V}
    (h : (t.insert k v).lookup j = some w) : (j = k ∧ w = v) ∨ (j ≠ k ∧ t.lookup j = some w) := by
  rw [lookup_insert_eq] at h
  by_cases hj : j = k
  · rw [if_pos hj] at h
    exact Or.inl ⟨hj, (Option.some.inj h).symm⟩
  · rw [if_neg hj] at h
    exact Or.inr ⟨hj, h⟩

/-- What is left after keys were erased. -/
theorem lookup_foldl_erase (keys : List K) (t : Table K V) (j : K) :
    (keys.foldl (fun t k ↦ t.erase k) t).lookup j = if j ∈ keys then none else t.lookup j := by
  induction keys generalizing t with
  | nil => rfl
  | cons k keys ih =>
    rw [List.foldl_cons, ih]
    by_cases hj : j = k
    · subst hj
      simp
    · simp [hj, Finmap.lookup_erase_ne hj]

/-- Erasing keys leaves old rows only. -/
theorem lookup_of_foldl_erase {keys : List K} {t : Table K V} {j : K} {v : V}
    (h : (keys.foldl (fun t k ↦ t.erase k) t).lookup j = some v) : t.lookup j = some v := by
  rw [lookup_foldl_erase] at h
  split at h
  · cases h
  · exact h

/-- A property of all rows, as a check of finitely many. -/
theorem forall_lookup_iff {t : Table K V} {P : K → V → Prop} :
    (∀ k ∈ t.keys, ∀ v ∈ t.lookup k, P k v) ↔ ∀ k v, t.lookup k = some v → P k v := by
  constructor
  · intro h k v hv
    exact h k (Finmap.mem_keys.2 (Finmap.mem_of_lookup_eq_some hv)) v hv
  · exact fun h k _ v hv ↦ h k v hv

/-- A row with a property, as a search of finitely many. -/
theorem exists_lookup_iff {t : Table K V} {P : V → Prop} :
    (∃ k ∈ t.keys, ∃ v ∈ t.lookup k, P v) ↔ ∃ k v, t.lookup k = some v ∧ P v := by
  constructor
  · rintro ⟨k, -, v, hv, hp⟩
    exact ⟨k, v, hv, hp⟩
  · rintro ⟨k, v, hv, hp⟩
    exact ⟨k, Finmap.mem_keys.2 (Finmap.mem_of_lookup_eq_some hv), v, hv, hp⟩

/-- Inserting where a row was erased. -/
theorem insert_erase (t : Table K V) (k : K) (v : V) : (t.erase k).insert k v = t.insert k v := by
  refine ext fun j ↦ ?_
  by_cases hj : j = k
  · rw [hj, Finmap.lookup_insert, Finmap.lookup_insert]
  · rw [Finmap.lookup_insert_of_ne _ hj, Finmap.lookup_insert_of_ne _ hj, Finmap.lookup_erase_ne hj]

/-- The keys of the rows with a property. -/
def keysWhere (t : Table K V) (P : V → Prop) [DecidablePred P] : Finset K :=
  t.keys.filter fun k ↦ ∃ v ∈ t.lookup k, P v

theorem mem_keysWhere {t : Table K V} {P : V → Prop} [DecidablePred P] {k : K} :
    k ∈ t.keysWhere P ↔ ∃ v, t.lookup k = some v ∧ P v := by
  rw [keysWhere, Finset.mem_filter]
  exact ⟨fun h ↦ h.2, fun h ↦ ⟨Finmap.mem_keys.2 (Finmap.mem_of_lookup_eq_some h.choose_spec.1), h⟩⟩

section Total

variable [AddCommMonoid M]

/-- The total of a quantity over the rows. -/
def total (t : Table K V) (f : V → M) : M :=
  t.keys.sum fun k ↦ (t.lookup k).elim 0 f

@[simp] theorem total_empty (f : V → M) : total (∅ : Table K V) f = 0 := by
  simp [total]

/-- A new row adds its own quantity. -/
theorem total_insert_new {t : Table K V} {k : K} (v : V) (f : V → M) (h : t.lookup k = none) :
    total (t.insert k v) f = f v + total t f := by
  have hk : k ∉ t.keys := by
    rw [Finmap.mem_keys]
    exact Finmap.lookup_eq_none.1 h
  have hkeys : (t.insert k v).keys = insert k t.keys := by
    ext j
    simp [Finmap.mem_keys, Finmap.mem_insert]
  rw [total, hkeys, Finset.sum_insert hk, Finmap.lookup_insert]
  refine congrArg (f v + ·) (Finset.sum_congr rfl fun j hj ↦ ?_)
  have hjk : j ≠ k := fun hjk ↦ hk (hjk ▸ hj)
  rw [Finmap.lookup_insert_of_ne _ hjk]

/-- A replaced row trades its old quantity for the new one. -/
theorem total_insert_old {t : Table K V} {k : K} {u : V} (v : V) (f : V → M)
    (h : t.lookup k = some u) : total (t.insert k v) f + f u = total t f + f v := by
  have hk : k ∈ t.keys := Finmap.mem_keys.2 (Finmap.mem_of_lookup_eq_some h)
  have hkeys : (t.insert k v).keys = t.keys := by
    ext j
    simp only [Finmap.mem_keys, Finmap.mem_insert]
    exact ⟨fun hj ↦ hj.elim (fun hjk ↦ hjk ▸ Finmap.mem_keys.1 hk) id, Or.inr⟩
  have hrest : (t.keys.erase k).sum (fun j ↦ ((t.insert k v).lookup j).elim 0 f) =
      (t.keys.erase k).sum fun j ↦ (t.lookup j).elim 0 f := by
    refine Finset.sum_congr rfl fun j hj ↦ ?_
    rw [Finmap.lookup_insert_of_ne _ (Finset.ne_of_mem_erase hj)]
  rw [total, total, hkeys, ← Finset.add_sum_erase _ _ hk, ← Finset.add_sum_erase t.keys _ hk,
    hrest, Finmap.lookup_insert, h]
  simp only [Option.elim_some]
  abel

/-- A replaced row with the same quantity changes nothing. -/
theorem total_insert_same [IsRightCancelAdd M] {t : Table K V} {k : K} {u v : V} {f : V → M}
    (h : t.lookup k = some u) (hf : f v = f u) : total (t.insert k v) f = total t f := by
  have := total_insert_old v f h
  rw [hf] at this
  exact add_right_cancel this

end Total

/-- With nonnegative quantities one row is at most the total. -/
theorem le_total [AddCommMonoid M] [PartialOrder M] [IsOrderedAddMonoid M] {t : Table K V} {k : K}
    {v : V} {f : V → M} (h : t.lookup k = some v)
    (hf : ∀ j w, t.lookup j = some w → 0 ≤ f w) : f v ≤ total t f := by
  have hk : k ∈ t.keys := Finmap.mem_keys.2 (Finmap.mem_of_lookup_eq_some h)
  have hle := Finset.single_le_sum (f := fun j ↦ (t.lookup j).elim 0 f) (s := t.keys)
    (fun j _ ↦ by
      rcases hj : t.lookup j with - | w
      · exact le_rfl
      · exact hf j w hj) hk
  simpa [total, h] using hle

end Table
