import WalletConversion.Foundation.FiniteTable
import Mathlib.Algebra.Group.Basic
import Mathlib.Tactic.Abel

/-!
# Escrow

An escrow book keeps, for every account, what is free to spend and what is set aside, and a table of
*holds*. A hold sets an amount of its source account aside until it is either paid — the amount
leaves the source and the proceeds arrive at the target — or returned.

The accounts keep only aggregates, so nothing in an account says which holds it backs. The law
`Book.Balanced` ties the two together:

* what is set aside in an account is the sum of the amounts held from it;
* what an account holds in all is its initial balance, less what was paid from it, plus what was
  received by it.

Each operation keeps the law (`Balanced.reserve`, `Balanced.settle`, `Balanced.release`,
`Balanced.relabel`), and the law bounds a hold by what is set aside (`Balanced.amount_le_reserved`):
a hold can always be paid or returned.

Rows may carry more than a hold; a section variable `hold` reads it off.
-/

namespace Escrow

/-- A hold is open until it is paid or returned. -/
inductive Phase where
  | held
  | paid
  | returned
  deriving DecidableEq

/-- An amount set aside in `source`, to be paid as `proceeds` to `target`. -/
@[ext] structure Hold (A M : Type) where
  source : A
  amount : M
  target : A
  proceeds : M
  phase : Phase

/-- What an account has free and what it has set aside. -/
@[ext] structure Account (M : Type) where
  available : M
  reserved : M

namespace Account

variable {M : Type} [AddCommGroup M]

/-- All that the account holds. -/
def balance (a : Account M) : M := a.available + a.reserved

/-- Set an amount aside. -/
def reserve (a : Account M) (m : M) : Account M := ⟨a.available - m, a.reserved + m⟩

/-- Free an amount that was set aside. -/
def release (a : Account M) (m : M) : Account M := ⟨a.available + m, a.reserved - m⟩

/-- Give away an amount that was set aside. -/
def commit (a : Account M) (m : M) : Account M := ⟨a.available, a.reserved - m⟩

/-- Receive an amount. -/
def credit (a : Account M) (m : M) : Account M := ⟨a.available + m, a.reserved⟩

end Account

/-- The accounts and the table of holds. -/
structure Book (A H R M : Type) where
  accounts : A → Account M
  rows : Table H R

section Book

variable {A H R M : Type} [DecidableEq A] [DecidableEq H] [AddCommGroup M] (hold : R → Hold A M)

/-- The amount a row sets aside in an account. -/
def setAside (a : A) (r : R) : M :=
  if (hold r).phase = .held ∧ (hold r).source = a then (hold r).amount else 0

/-- The amount a row has paid from an account. -/
def paidFrom (a : A) (r : R) : M :=
  if (hold r).phase = .paid ∧ (hold r).source = a then (hold r).amount else 0

/-- The amount a row has paid to an account. -/
def paidTo (a : A) (r : R) : M :=
  if (hold r).phase = .paid ∧ (hold r).target = a then (hold r).proceeds else 0

/-- **The law of the book.** -/
structure Book.Balanced (initial : A → M) (b : Book A H R M) : Prop where
  reserved : ∀ a, (b.accounts a).reserved = b.rows.total (setAside hold a)
  balance : ∀ a, (b.accounts a).balance =
    initial a - b.rows.total (paidFrom hold a) + b.rows.total (paidTo hold a)

variable {hold}

/-- A book without holds is balanced when nothing is set aside. -/
theorem Book.balanced_of_no_holds {accounts : A → Account M}
    (h : ∀ a, (accounts a).reserved = 0) :
    Book.Balanced hold (fun a ↦ (accounts a).available) (⟨accounts, ∅⟩ : Book A H R M) where
  reserved a := by rw [Table.total_empty, h]
  balance a := by simp [Account.balance, h]

namespace Book.Balanced

variable {initial : A → M} {b b' : Book A H R M} {id : H} {r r' : R}

/-- **Opening a hold.** -/
theorem reserve (h : b.Balanced hold initial) (hid : b.rows.lookup id = none)
    (hphase : (hold r).phase = .held) (hrows : b'.rows = b.rows.insert id r)
    (haccounts : b'.accounts = Function.update b.accounts (hold r).source
      ((b.accounts (hold r).source).reserve (hold r).amount)) :
    b'.Balanced hold initial := by
  refine ⟨fun a ↦ ?_, fun a ↦ ?_⟩
  · have ha := h.reserved a
    rw [hrows, Table.total_insert_new _ _ hid, haccounts, setAside, ← ha]
    by_cases hs : (hold r).source = a
    · subst hs
      simp [hphase, Account.reserve, add_comm]
    · simp [hs, Function.update_of_ne (Ne.symm hs)]
  · have ha := h.balance a
    rw [hrows, Table.total_insert_new _ _ hid, Table.total_insert_new _ _ hid, haccounts]
    simp only [paidFrom, paidTo, hphase, reduceCtorEq, false_and, if_false, zero_add]
    refine Eq.trans ?_ ha
    by_cases hs : (hold r).source = a
    · subst hs
      simp only [Function.update_self, Account.reserve, Account.balance]
      abel
    · rw [Function.update_of_ne (Ne.symm hs)]

/-- **A row may change as long as its hold does not.** -/
theorem relabel (h : b.Balanced hold initial) (hid : b.rows.lookup id = some r)
    (hhold : hold r' = hold r) (hrows : b'.rows = b.rows.insert id r')
    (haccounts : b'.accounts = b.accounts) : b'.Balanced hold initial := by
  have hsame : ∀ f : R → M, f r' = f r → b'.rows.total f = b.rows.total f := fun f hf ↦ by
    rw [hrows, Table.total_insert_same hid hf]
  refine ⟨fun a ↦ ?_, fun a ↦ ?_⟩
  · rw [haccounts, hsame _ (by simp only [setAside, hhold])]
    exact h.reserved a
  · rw [haccounts, hsame _ (by simp only [paidFrom, hhold]),
      hsame _ (by simp only [paidTo, hhold])]
    exact h.balance a

/-- **Returning a hold.** -/
theorem release (h : b.Balanced hold initial) (hid : b.rows.lookup id = some r)
    (hphase : (hold r).phase = .held) (hhold : hold r' = { hold r with phase := .returned })
    (hrows : b'.rows = b.rows.insert id r')
    (haccounts : b'.accounts = Function.update b.accounts (hold r).source
      ((b.accounts (hold r).source).release (hold r).amount)) :
    b'.Balanced hold initial := by
  refine ⟨fun a ↦ ?_, fun a ↦ ?_⟩
  · have htotal := Table.total_insert_old r' (setAside hold a) hid
    rw [← hrows, ← h.reserved a] at htotal
    simp only [setAside, hhold, hphase, reduceCtorEq, false_and, if_false, add_zero, true_and]
      at htotal
    rw [haccounts]
    by_cases hs : (hold r).source = a
    · subst hs
      simp only [if_true] at htotal
      simp only [Function.update_self, Account.release]
      exact sub_eq_of_eq_add htotal.symm
    · simp only [hs, if_false, add_zero] at htotal
      rw [Function.update_of_ne (Ne.symm hs)]
      exact htotal.symm
  · have hpaid : b'.rows.total (paidFrom hold a) = b.rows.total (paidFrom hold a) := by
      rw [hrows, Table.total_insert_same hid (by simp [paidFrom, hhold, hphase])]
    have hreceived : b'.rows.total (paidTo hold a) = b.rows.total (paidTo hold a) := by
      rw [hrows, Table.total_insert_same hid (by simp [paidTo, hhold, hphase])]
    rw [hpaid, hreceived, haccounts, ← h.balance a]
    by_cases hs : (hold r).source = a
    · subst hs
      simp only [Function.update_self, Account.release, Account.balance]
      abel
    · rw [Function.update_of_ne (Ne.symm hs)]

/-- **Paying a hold.** The amount leaves the source and the proceeds arrive at the target. -/
theorem settle (h : b.Balanced hold initial) (hid : b.rows.lookup id = some r)
    (hphase : (hold r).phase = .held) (hhold : hold r' = { hold r with phase := .paid })
    (hne : (hold r).source ≠ (hold r).target) (hrows : b'.rows = b.rows.insert id r')
    (haccounts : b'.accounts = Function.update (Function.update b.accounts (hold r).source
      ((b.accounts (hold r).source).commit (hold r).amount)) (hold r).target
      ((b.accounts (hold r).target).credit (hold r).proceeds)) :
    b'.Balanced hold initial := by
  refine ⟨fun a ↦ ?_, fun a ↦ ?_⟩
  -- what is set aside
  · have htotal := Table.total_insert_old r' (setAside hold a) hid
    rw [← hrows, ← h.reserved a] at htotal
    simp only [setAside, hhold, hphase, reduceCtorEq, false_and, if_false, add_zero, true_and]
      at htotal
    rw [haccounts]
    by_cases hs : (hold r).source = a
    · subst hs
      simp only [if_true] at htotal
      simp only [Function.update_of_ne hne, Function.update_self, Account.commit]
      exact sub_eq_of_eq_add htotal.symm
    · simp only [hs, if_false, add_zero] at htotal
      by_cases ht : (hold r).target = a
      · subst ht
        simp only [Function.update_self, Account.credit]
        exact htotal.symm
      · rw [Function.update_of_ne (Ne.symm ht), Function.update_of_ne (Ne.symm hs)]
        exact htotal.symm
  -- what was paid and received
  · have hpaid := Table.total_insert_old r' (paidFrom hold a) hid
    have hreceived := Table.total_insert_old r' (paidTo hold a) hid
    rw [← hrows] at hpaid hreceived
    simp only [paidFrom, hhold, hphase, reduceCtorEq, false_and, if_false, add_zero, true_and]
      at hpaid
    simp only [paidTo, hhold, hphase, reduceCtorEq, false_and, if_false, add_zero, true_and]
      at hreceived
    have hb := h.balance a
    rw [hpaid, hreceived, haccounts]
    by_cases hs : (hold r).source = a
    · have ht : (hold r).target ≠ a := hs ▸ hne.symm
      simp only [hs, ht, if_true, if_false, add_zero]
      rw [Function.update_of_ne (Ne.symm ht), Function.update_self]
      simp only [Account.commit, Account.balance] at hb ⊢
      rw [← add_sub_assoc, hb]
      abel
    · by_cases ht : (hold r).target = a
      · simp only [hs, ht, if_true, if_false, add_zero]
        rw [Function.update_self]
        simp only [Account.credit, Account.balance] at hb ⊢
        rw [add_right_comm, hb]
        abel
      · simp only [hs, ht, if_false, add_zero]
        rw [Function.update_of_ne (Ne.symm ht), Function.update_of_ne (Ne.symm hs)]
        exact hb

/-- **A hold is backed**: what it sets aside is there. -/
theorem amount_le_reserved [PartialOrder M] [IsOrderedAddMonoid M] (h : b.Balanced hold initial)
    (hid : b.rows.lookup id = some r) (hphase : (hold r).phase = .held)
    (hpos : ∀ j w, b.rows.lookup j = some w → 0 ≤ (hold w).amount) :
    (hold r).amount ≤ (b.accounts (hold r).source).reserved := by
  rw [h.reserved]
  have hle := Table.le_total (f := setAside hold (hold r).source) hid fun j w hw ↦ by
    unfold setAside
    split
    · exact hpos j w hw
    · exact le_rfl
  simpa [setAside, hphase] using hle

end Book.Balanced

end Book

end Escrow
