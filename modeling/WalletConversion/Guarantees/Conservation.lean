import WalletConversion.Application.Reference
import WalletConversion.Ledger.Calls

/-!
# Conservation of the ledger

A wallet row holds a balance, and how much of it is available and reserved; nothing in it says for
which conversions. `conserved` states the law that ties it to the conversions, in every committed
state of every run:

* the balance is the initial balance less the source amounts of completed conversions, plus their
  target amounts;
* what is reserved is the sum of the source amounts of the conversions that are still open;
* the rest is available, and never negative.
-/

namespace WalletConversion

open Transactional Escrow

namespace Ledger

/-! ### The quantities of the law -/

section Quantities

variable (db : Db) (userId asset : String)

/-- A missing wallet has nothing. -/
def balanceOf : ℚ := (db.wallets.lookup (userId, asset)).elim 0 (·.balance.1)

/-- What the user's wallet has available; a missing wallet has nothing. -/
def availableOf : ℚ := (db.wallets.lookup (userId, asset)).elim 0 (·.available.1)

/-- What the user's wallet has reserved. -/
def reservedOf : ℚ := (db.wallets.lookup (userId, asset)).elim 0 (·.reserved.1)

/-- The source amounts of the user's completed conversions from the asset. -/
def paidOut : ℚ :=
  db.conversions.total fun row ↦
    if row.userId = userId ∧ row.sourceAsset = asset ∧ row.status = .COMPLETED then
      row.sourceAmount.1
    else 0

/-- The target amounts of the user's completed conversions into the asset. -/
def paidIn : ℚ :=
  db.conversions.total fun row ↦
    if row.userId = userId ∧ row.targetAsset = asset ∧ row.status = .COMPLETED then
      row.targetAmount.1
    else 0

/-- The source amounts of the user's open conversions from the asset. -/
def setApart : ℚ :=
  db.conversions.total fun row ↦
    if row.userId = userId ∧ row.sourceAsset = asset ∧
        (row.status = .FUNDS_RESERVED ∨ row.status = .EXECUTION_REQUESTED ∨
          row.status = .REQUIRES_RECONCILIATION) then
      row.sourceAmount.1
    else 0

end Quantities

/-- **The law for one user and asset.** -/
structure Conserved (wallets : Table (String × String) WalletRow) (db : Db)
    (userId asset : String) : Prop where
  balance : balanceOf db userId asset =
    balanceOf (Db.ofWallets wallets) userId asset - paidOut db userId asset +
      paidIn db userId asset
  reserved : reservedOf db userId asset = setApart db userId asset
  available : availableOf db userId asset = balanceOf db userId asset - reservedOf db userId asset
  nonneg : 0 ≤ availableOf db userId asset

/-! ### The law from the book -/

section Law

variable {env : Platform} {wallets : Table (String × String) WalletRow} {db : Db}
  {userId asset : String}

theorem setAside_holdOf (row : ConversionRow) :
    setAside holdOf (userId, asset) row =
      if row.userId = userId ∧ row.sourceAsset = asset ∧
          (row.status = .FUNDS_RESERVED ∨ row.status = .EXECUTION_REQUESTED ∨
            row.status = .REQUIRES_RECONCILIATION) then row.sourceAmount.1
      else 0 := by
  rw [setAside]
  refine if_congr ?_ rfl rfl
  cases hs : row.status <;> simp [holdOf, phaseOf, hs]

theorem paidFrom_holdOf (row : ConversionRow) :
    paidFrom holdOf (userId, asset) row =
      if row.userId = userId ∧ row.sourceAsset = asset ∧ row.status = .COMPLETED then
        row.sourceAmount.1
      else 0 := by
  rw [paidFrom]
  refine if_congr ?_ rfl rfl
  cases hs : row.status <;> simp [holdOf, phaseOf, hs]

theorem paidTo_holdOf (row : ConversionRow) :
    paidTo holdOf (userId, asset) row =
      if row.userId = userId ∧ row.targetAsset = asset ∧ row.status = .COMPLETED then
        row.targetAmount.1
      else 0 := by
  rw [paidTo]
  refine if_congr ?_ rfl rfl
  cases hs : row.status <;> simp [holdOf, phaseOf, hs]

/-- A wallet that meets its checks splits its balance, and owes nothing. -/
theorem Valid.split (h : Valid env wallets db) (userId asset : String) :
    availableOf db userId asset + reservedOf db userId asset = balanceOf db userId asset ∧
      0 ≤ availableOf db userId asset := by
  unfold availableOf reservedOf balanceOf
  rcases hw : db.wallets.lookup (userId, asset) with - | w
  · simp
  · obtain ⟨havailable, -, hsum, -⟩ := WalletRow.bounds (h.wallets _ w hw)
    exact ⟨hsum, havailable⟩

/-- **Valid tables obey the law**, when nothing was reserved at the beginning. -/
theorem Valid.obeysLaw (h : Valid env wallets db) (hwallets : InitialWallets wallets)
    (userId asset : String) : Conserved wallets db userId asset := by
  obtain ⟨hsum, hnonneg⟩ := h.split userId asset
  have haccount : db.book.accounts (userId, asset) =
      ⟨availableOf db userId asset, reservedOf db userId asset⟩ := by
    show accountOf (db.wallets.lookup (userId, asset)) = _
    unfold accountOf availableOf reservedOf
    cases db.wallets.lookup (userId, asset) <;> rfl
  have hopening : openingBalance wallets (userId, asset) =
      balanceOf (Db.ofWallets wallets) userId asset := by
    show (accountOf (wallets.lookup (userId, asset))).available =
      (wallets.lookup (userId, asset)).elim 0 (·.balance.1)
    rcases hw : wallets.lookup (userId, asset) with - | w
    · rfl
    · exact (hwallets _ w hw).2.1
  have hreserved := h.book.reserved (userId, asset)
  have hbalance := h.book.balance (userId, asset)
  rw [haccount, hopening, Account.balance] at hbalance
  rw [haccount] at hreserved
  have hout : db.book.rows.total (paidFrom holdOf (userId, asset)) = paidOut db userId asset :=
    congrArg db.conversions.total (funext paidFrom_holdOf)
  have hin : db.book.rows.total (paidTo holdOf (userId, asset)) = paidIn db userId asset :=
    congrArg db.conversions.total (funext paidTo_holdOf)
  have hopen : db.book.rows.total (setAside holdOf (userId, asset)) = setApart db userId asset :=
    congrArg db.conversions.total (funext setAside_holdOf)
  rw [hout, hin, hsum] at hbalance
  rw [hopen] at hreserved
  exact ⟨hbalance, hreserved, by linarith, hnonneg⟩

/-- **The ledger is conserved**: in every committed state of every run the law holds for every user
and asset. -/
theorem conserved {s : System} (hwallets : InitialWallets wallets)
    (hrun : System.Reaches env (System.initial wallets) s) (userId asset : String) :
    Conserved wallets s.db userId asset :=
  (sound_of_reaches hwallets hrun).inv.obeysLaw hwallets userId asset

/-- A conversion of 500 USDT was completed: the law holds where money has moved. -/
theorem conserved_sample : ∃ s : System,
    ((s.db.conversions.lookup "c-1").map (·.status) = some .COMPLETED ∧
      balanceOf s.db "u-1" "USDT" = 500) ∧ Conserved sampleWallets s.db "u-1" "USDT" := by
  have hrun : ∃ s, System.Reaches .reference (System.initial sampleWallets) s ∧
      (s.db.conversions.lookup "c-1").map (·.status) = some .COMPLETED ∧
        balanceOf s.db "u-1" "USDT" = 500 :=
    System.exists_of_play (sampleSettled .SUCCESS) _ (by decide +kernel)
  obtain ⟨s, hreaches, hs⟩ := hrun
  exact ⟨s, hs, conserved (by decide +kernel) hreaches "u-1" "USDT"⟩

end Law

end Ledger

end WalletConversion
