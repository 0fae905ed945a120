import WalletConversion.Application.Reference
import Mathlib.Logic.Relation

/-!
# The wallet aggregate

The aggregate is exact as long as its arithmetic is: sums and differences are rounded to 40
significant digits, and the check at the end of a method is rounded in the same way, so it neither
sees every error nor spares the aggregate from half of a change when it sees one
(`account_loses_track`).

* `Call.run_cases` — a call whose exact results have at most 40 significant digits and are in the
  range of decimals moves exactly its amount, or throws and changes nothing.
* `account_exact` — from there, over any sequence of such calls.
-/

namespace WalletConversion

open DecimalNotation Relation

namespace WalletAccount

variable {w w' w₀ : WalletAccount} {amount : Money}

/-- No amount of the wallet has overflown. -/
structure Finite (w : WalletAccount) : Prop where
  balance : w.balance.IsFinite
  available : w.available.IsFinite
  reserved : w.reserved.IsFinite

/-- The amounts of the wallet share its asset and add up to the balance, which is not rounded. -/
structure Balanced (w : WalletAccount) : Prop where
  availableAsset : w.available.asset = w.balance.asset
  reservedAsset : w.reserved.asset = w.balance.asset
  sum : w.available.amount + w.reserved.amount = w.balance.amount
  rounded : roundSig Decimal.precision w.balance.amount = w.balance.amount
  code : w.balance.asset.code = w.asset.code
  finite : w.Finite

theorem Balanced.assertInvariant (h : w.Balanced) : w.assertInvariant = .ok () := by
  have hasset : w.available.asset = w.reserved.asset := h.availableAsset.trans h.reservedAsset.symm
  have hround : roundSig Decimal.precision (w.available.amount + w.reserved.amount) =
      w.available.amount + w.reserved.amount := by rw [h.sum, h.rounded]
  rw [WalletAccount.assertInvariant, if_pos ⟨h.code, by rw [h.availableAsset, h.code],
    by rw [h.reservedAsset, h.code]⟩, Money.add_of_roundSig hasset hround]
  have hrecomposed : (⟨w.available.asset, w.available.amount + w.reserved.amount,
      add_nonneg w.available.nonneg w.reserved.nonneg,
      w.available.fixed.add (hasset ▸ w.reserved.fixed)⟩ : Money) = w.balance :=
    Money.ext h.availableAsset h.sum
  exact if_pos (Money.equals_iff.2 hrecomposed)

/-- What the check tells: the rounded sum is the balance. -/
theorem assertInvariant_eq_ok (h : w.assertInvariant = .ok ()) :
    (w.balance.asset.code = w.asset.code ∧ w.available.asset.code = w.asset.code ∧
      w.reserved.asset.code = w.asset.code) ∧
    ∃ recomposed, w.available.add w.reserved = .ok recomposed ∧ recomposed = w.balance := by
  unfold WalletAccount.assertInvariant at h
  split at h
  · rename_i hcodes
    obtain ⟨recomposed, hadd, hcheck⟩ := except_bind_eq_ok.1 h
    split at hcheck
    · rename_i hequals
      exact ⟨hcodes, recomposed, hadd, Money.equals_iff.1 hequals⟩
    · cases hcheck
  · cases h

theorem Balanced.of_assertInvariant
    (hround : roundSig Decimal.precision (w.available.amount + w.reserved.amount) =
      w.available.amount + w.reserved.amount)
    (hfinite : w.Finite) (h : w.assertInvariant = .ok ()) : w.Balanced := by
  obtain ⟨hcodes, recomposed, hadd, hequals⟩ := assertInvariant_eq_ok h
  obtain ⟨hasset, hrecomposed⟩ := Money.add_eq_ok hadd
  have hsum : w.available.amount + w.reserved.amount = w.balance.amount := by
    rw [← hround, ← hrecomposed.2, hequals]
  have hbalance : w.available.asset = w.balance.asset := by rw [← hrecomposed.1, hequals]
  exact
    { availableAsset := hbalance
      reservedAsset := hasset ▸ hbalance
      sum := hsum
      rounded := by rw [← hsum, hround]
      code := hcodes.1
      finite := hfinite }

/-! ### Calls -/

/-- A call of a method of the aggregate. -/
inductive Call where
  | reserve (amount : Money)
  | release (amount : Money)
  | commitReservation (amount : Money)
  | credit (amount : Money)

/-- The method that is called. -/
def Call.run : Call → Mutation WalletAccount Unit
  | .reserve amount => WalletAccount.reserve amount
  | .release amount => WalletAccount.release amount
  | .commitReservation amount => WalletAccount.commitReservation amount
  | .credit amount => WalletAccount.credit amount

/-- Its argument. -/
def Call.money : Call → Money
  | .reserve amount | .release amount | .commitReservation amount | .credit amount => amount

/-- The guards of a call. -/
def Call.Allowed (w : WalletAccount) : Call → Prop
  | .reserve amount => amount.asset = w.balance.asset ∧ amount.amount ≤ w.available.amount
  | .release amount => amount.asset = w.balance.asset ∧ amount.amount ≤ w.reserved.amount
  | .commitReservation amount => amount.asset = w.balance.asset ∧ amount.amount ≤ w.reserved.amount
  | .credit amount => amount.asset = w.balance.asset

/-- The two amounts that a call assigns have, exactly, at most 40 significant digits, and neither is
too large for a decimal. -/
def Call.Fits (w : WalletAccount) : Call → Prop
  | .reserve amount =>
    Decimal.Holds (w.available.amount - amount.amount) ∧
      Decimal.Holds (w.reserved.amount + amount.amount)
  | .release amount =>
    Decimal.Holds (w.reserved.amount - amount.amount) ∧
      Decimal.Holds (w.available.amount + amount.amount)
  | .commitReservation amount =>
    Decimal.Holds (w.reserved.amount - amount.amount) ∧
      Decimal.Holds (w.balance.amount - amount.amount)
  | .credit amount =>
    Decimal.Holds (w.balance.amount + amount.amount) ∧
      Decimal.Holds (w.available.amount + amount.amount)

/-- The amounts after a call. -/
def Call.Moves (w w' : WalletAccount) : Call → Prop
  | .reserve amount => w'.balance.amount = w.balance.amount ∧
    w'.available.amount = w.available.amount - amount.amount ∧
    w'.reserved.amount = w.reserved.amount + amount.amount
  | .release amount => w'.balance.amount = w.balance.amount ∧
    w'.available.amount = w.available.amount + amount.amount ∧
    w'.reserved.amount = w.reserved.amount - amount.amount
  | .commitReservation amount => w'.balance.amount = w.balance.amount - amount.amount ∧
    w'.available.amount = w.available.amount ∧
    w'.reserved.amount = w.reserved.amount - amount.amount
  | .credit amount => w'.balance.amount = w.balance.amount + amount.amount ∧
    w'.available.amount = w.available.amount + amount.amount ∧
    w'.reserved.amount = w.reserved.amount

/-- The wallet with new amounts of its asset. -/
structure Reassigned (w w' : WalletAccount) : Prop where
  id : w'.id = w.id
  userId : w'.userId = w.userId
  asset : w'.asset = w.asset
  amounts : w'.balance.asset = w.balance.asset

/-- New amounts of the asset that add up again. -/
theorem Balanced.reassign (h : w.Balanced) {balance available reserved : Money}
    (hbalance : balance.asset = w.balance.asset) (havailable : available.asset = w.balance.asset)
    (hreserved : reserved.asset = w.balance.asset)
    (hsum : available.amount + reserved.amount = balance.amount)
    (hround : roundSig Decimal.precision balance.amount = balance.amount)
    (hfinite : Finite { w with balance, available, reserved }) :
    Balanced { w with balance, available, reserved } where
  availableAsset := havailable.trans hbalance.symm
  reservedAsset := hreserved.trans hbalance.symm
  sum := hsum
  rounded := hround
  code := by rw [← h.code]; exact congrArg Asset.code hbalance
  finite := hfinite

/-- **A call that passes its guards moves its amount**, when its exact results fit. -/
theorem Call.run_of_allowed {c : Call} (h : w.Balanced) (hallowed : c.Allowed w)
    (hfits : c.Fits w) :
    ∃ w', c.run w = (.ok (), w') ∧ w'.Balanced ∧ c.Moves w w' ∧ Reassigned w w' := by
  have hsum := h.sum
  cases c with
  | reserve amount =>
    obtain ⟨hasset, hle⟩ := hallowed
    have hcode : ¬ amount.asset.code ≠ w.asset.code := by rw [hasset, h.code, not_not]
    have hcompare := Money.isGreaterThanOrEqual_eq (h.availableAsset.trans hasset.symm)
    have hsub := Money.subtract_of_roundSig (h.availableAsset.trans hasset.symm) hle
      hfits.1.digits.roundSig
    have hadd := Money.add_of_roundSig (h.reservedAsset.trans hasset.symm) hfits.2.digits.roundSig
    have hnew : Balanced { w with
        available := ⟨w.available.asset, w.available.amount - amount.amount, sub_nonneg.2 hle,
          w.available.fixed.sub ((h.availableAsset.trans hasset.symm) ▸ amount.fixed)⟩
        reserved := ⟨w.reserved.asset, w.reserved.amount + amount.amount,
          add_nonneg w.reserved.nonneg amount.nonneg,
          w.reserved.fixed.add ((h.reservedAsset.trans hasset.symm) ▸ amount.fixed)⟩ } :=
      h.reassign rfl h.availableAsset h.reservedAsset (by linarith) h.rounded
        { h.finite with
          available := Money.isFinite_of_inRange hfits.1.inRange
          reserved := Money.isFinite_of_inRange hfits.2.inRange }
    refine ⟨_, ?_, hnew, ⟨rfl, rfl, rfl⟩, ⟨rfl, rfl, rfl, rfl⟩⟩
    simp only [Call.run, WalletAccount.reserve, assertSameAsset, Mutation.bind_apply,
      Mutation.throwIf_apply, if_neg hcode, Mutation.compute_apply, hcompare, decide_eq_true hle,
      Bool.true_eq_false, if_false, hsub, Mutation.assign_apply, hadd, hnew.assertInvariant]
  | release amount =>
    obtain ⟨hasset, hle⟩ := hallowed
    have hcode : ¬ amount.asset.code ≠ w.asset.code := by rw [hasset, h.code, not_not]
    have hcompare := Money.isGreaterThanOrEqual_eq (h.reservedAsset.trans hasset.symm)
    have hsub := Money.subtract_of_roundSig (h.reservedAsset.trans hasset.symm) hle
      hfits.1.digits.roundSig
    have hadd := Money.add_of_roundSig (h.availableAsset.trans hasset.symm) hfits.2.digits.roundSig
    have hnew : Balanced { w with
        reserved := ⟨w.reserved.asset, w.reserved.amount - amount.amount, sub_nonneg.2 hle,
          w.reserved.fixed.sub ((h.reservedAsset.trans hasset.symm) ▸ amount.fixed)⟩
        available := ⟨w.available.asset, w.available.amount + amount.amount,
          add_nonneg w.available.nonneg amount.nonneg,
          w.available.fixed.add ((h.availableAsset.trans hasset.symm) ▸ amount.fixed)⟩ } :=
      h.reassign rfl h.availableAsset h.reservedAsset (by linarith) h.rounded
        { h.finite with
          reserved := Money.isFinite_of_inRange hfits.1.inRange
          available := Money.isFinite_of_inRange hfits.2.inRange }
    refine ⟨_, ?_, hnew, ⟨rfl, rfl, rfl⟩, ⟨rfl, rfl, rfl, rfl⟩⟩
    simp only [Call.run, WalletAccount.release, assertSameAsset, Mutation.bind_apply,
      Mutation.throwIf_apply, if_neg hcode, Mutation.compute_apply, hcompare, decide_eq_true hle,
      Bool.true_eq_false, if_false, hsub, Mutation.assign_apply, hadd, hnew.assertInvariant]
  | commitReservation amount =>
    obtain ⟨hasset, hle⟩ := hallowed
    have hle' : amount.amount ≤ w.balance.amount := by linarith [w.available.nonneg]
    have hcode : ¬ amount.asset.code ≠ w.asset.code := by rw [hasset, h.code, not_not]
    have hcompare := Money.isGreaterThanOrEqual_eq (h.reservedAsset.trans hasset.symm)
    have hsub := Money.subtract_of_roundSig (h.reservedAsset.trans hasset.symm) hle
      hfits.1.digits.roundSig
    have hsub' := Money.subtract_of_roundSig hasset.symm hle' hfits.2.digits.roundSig
    have hnew : Balanced { w with
        reserved := ⟨w.reserved.asset, w.reserved.amount - amount.amount, sub_nonneg.2 hle,
          w.reserved.fixed.sub ((h.reservedAsset.trans hasset.symm) ▸ amount.fixed)⟩
        balance := ⟨w.balance.asset, w.balance.amount - amount.amount, sub_nonneg.2 hle',
          w.balance.fixed.sub (hasset.symm ▸ amount.fixed)⟩ } :=
      h.reassign rfl h.availableAsset h.reservedAsset (by linarith) hfits.2.digits.roundSig
        { h.finite with
          reserved := Money.isFinite_of_inRange hfits.1.inRange
          balance := Money.isFinite_of_inRange hfits.2.inRange }
    refine ⟨_, ?_, hnew, ⟨rfl, rfl, rfl⟩, ⟨rfl, rfl, rfl, rfl⟩⟩
    simp only [Call.run, WalletAccount.commitReservation, assertSameAsset, Mutation.bind_apply,
      Mutation.throwIf_apply, if_neg hcode, Mutation.compute_apply, hcompare, decide_eq_true hle,
      Bool.true_eq_false, if_false, hsub, Mutation.assign_apply, hsub', hnew.assertInvariant]
  | credit amount =>
    have hasset : amount.asset = w.balance.asset := hallowed
    have hcode : ¬ amount.asset.code ≠ w.asset.code := by rw [hasset, h.code, not_not]
    have hadd := Money.add_of_roundSig hasset.symm hfits.1.digits.roundSig
    have hadd' := Money.add_of_roundSig (h.availableAsset.trans hasset.symm) hfits.2.digits.roundSig
    have hnew : Balanced { w with
        balance := ⟨w.balance.asset, w.balance.amount + amount.amount,
          add_nonneg w.balance.nonneg amount.nonneg,
          w.balance.fixed.add (hasset.symm ▸ amount.fixed)⟩
        available := ⟨w.available.asset, w.available.amount + amount.amount,
          add_nonneg w.available.nonneg amount.nonneg,
          w.available.fixed.add ((h.availableAsset.trans hasset.symm) ▸ amount.fixed)⟩ } :=
      h.reassign rfl h.availableAsset h.reservedAsset (by linarith) hfits.1.digits.roundSig
        { h.finite with
          balance := Money.isFinite_of_inRange hfits.1.inRange
          available := Money.isFinite_of_inRange hfits.2.inRange }
    refine ⟨_, ?_, hnew, ⟨rfl, rfl, rfl⟩, ⟨rfl, rfl, rfl, rfl⟩⟩
    simp only [Call.run, WalletAccount.credit, assertSameAsset, Mutation.bind_apply,
      Mutation.throwIf_apply, if_neg hcode, Mutation.compute_apply, hadd, Mutation.assign_apply,
      hadd', hnew.assertInvariant]

/-- The guards that three of the methods start with. -/
theorem guards_of_not {amount : Money} {operation : String} {field : WalletAccount → Money}
    {error : WalletAccount → JsError} {rest : Mutation WalletAccount Unit}
    (hfield : (field w).asset = w.balance.asset)
    (hnot : ¬ (amount.asset = w.balance.asset ∧ amount.amount ≤ (field w).amount)) :
    ∃ e, (assertSameAsset amount operation >>= fun _ ↦
      Mutation.compute (fun w ↦ (field w).isGreaterThanOrEqual amount) >>= fun enough ↦
      Mutation.throwIf (fun _ ↦ enough = false) error >>= fun _ ↦ rest) w = (.error e, w) := by
  simp only [assertSameAsset, Mutation.bind_apply, Mutation.throwIf_apply, Mutation.compute_apply]
  split_ifs
  · exact ⟨_, rfl⟩
  · by_cases hasset : amount.asset = w.balance.asset
    · have hlt : ¬ amount.amount ≤ (field w).amount := fun hle ↦ hnot ⟨hasset, hle⟩
      simp only [Money.isGreaterThanOrEqual_eq (hfield.trans hasset.symm), decide_eq_false hlt,
        if_true]
      exact ⟨_, rfl⟩
    · have hne : (field w).asset ≠ amount.asset := fun heq ↦ hasset (heq.symm.trans hfield)
      simp only [Money.isGreaterThanOrEqual, if_neg hne]
      exact ⟨_, rfl⟩

/-- **A call that fails a guard throws and changes nothing.** -/
theorem Call.run_of_not_allowed {c : Call} (h : w.Balanced) (hnot : ¬ c.Allowed w) :
    ∃ e, c.run w = (.error e, w) := by
  cases c with
  | reserve amount => exact guards_of_not h.availableAsset hnot
  | release amount => exact guards_of_not h.reservedAsset hnot
  | commitReservation amount => exact guards_of_not h.reservedAsset hnot
  | credit amount =>
    have hadd : w.balance.add amount = .error (w.balance.differentAssets amount "add") :=
      dif_neg fun heq ↦ hnot heq.symm
    simp only [Call.run, WalletAccount.credit, assertSameAsset, Mutation.bind_apply,
      Mutation.throwIf_apply, Mutation.compute_apply]
    split_ifs
    · exact ⟨_, rfl⟩
    · simp only [hadd]
      exact ⟨_, rfl⟩

/-! ### Runs -/

/-- Rounding does not touch what the call assigns, if it gets to assigning, and nothing
overflows. -/
def Call.Exact (w : WalletAccount) (c : Call) : Prop := c.Allowed w → c.Fits w

/-- **One call**: it moves its amount or throws and changes nothing. -/
theorem Call.run_cases {c : Call} (h : w.Balanced) (hexact : c.Exact w) :
    (∃ e, c.run w = (.error e, w)) ∧ ¬ c.Allowed w ∨
      ∃ w', c.run w = (.ok (), w') ∧ c.Allowed w ∧ w'.Balanced ∧ c.Moves w w' ∧
        Reassigned w w' := by
  by_cases hallowed : c.Allowed w
  · obtain ⟨w', hrun, hw'⟩ := Call.run_of_allowed h hallowed (hexact hallowed)
    exact .inr ⟨w', hrun, hallowed, hw'⟩
  · exact .inl ⟨Call.run_of_not_allowed h hallowed, hallowed⟩

/-- One call whose results are exact, whether it throws or not. -/
def Step (w w' : WalletAccount) : Prop := ∃ c : Call, c.Exact w ∧ w' = (c.run w).2

/-- The account was opened, or reconstituted from amounts whose sum needs no rounding. None of the
amounts has overflown: `Money.of` refuses what is not finite. -/
inductive Constructed (w : WalletAccount) : Prop where
  | opened {id userId asset initialBalance} (hfinite : initialBalance.IsFinite)
    (h : WalletAccount.opened id userId asset initialBalance = .ok w)
  | reconstitute {id userId asset balance available reserved}
    (hfinite : balance.IsFinite ∧ available.IsFinite ∧ reserved.IsFinite)
    (hdigits : HasDigits Decimal.precision (available.amount + reserved.amount))
    (h : WalletAccount.reconstitute id userId asset balance available reserved = .ok w)

theorem new_eq_ok {id : String} {userId : UserId} {asset : Asset}
    {balance available reserved : Money}
    (h : new id userId asset balance available reserved = .ok w) :
    w = ⟨id, userId, asset, balance, available, reserved⟩ ∧ w.assertInvariant = .ok () := by
  obtain ⟨⟨⟩, hcheck, hw⟩ := except_bind_eq_ok.1 h
  cases hw
  exact ⟨rfl, hcheck⟩

/-- The constructor checks the sum. When a wallet is opened, that is the balance itself, which
passes only if it needs no rounding. -/
theorem Constructed.balanced (h : Constructed w) : w.Balanced := by
  cases h with
  | @opened id userId asset initialBalance hfinite h =>
    unfold WalletAccount.opened at h
    split at h
    · obtain ⟨rfl, hcheck⟩ := new_eq_ok h
      refine Balanced.of_assertInvariant ?_ ⟨hfinite, hfinite, Money.isFinite_zero _⟩ hcheck
      obtain ⟨-, recomposed, hadd, hequals⟩ := assertInvariant_eq_ok hcheck
      have hbalance := congrArg Money.amount hequals
      rw [(Money.add_eq_ok hadd).2.2] at hbalance
      have hzero : (Money.zero asset).amount = 0 := rfl
      rw [hbalance, hzero, add_zero]
    · cases h
  | reconstitute hfinite hdigits h =>
    obtain ⟨rfl, hcheck⟩ := new_eq_ok h
    exact Balanced.of_assertInvariant hdigits.roundSig ⟨hfinite.1, hfinite.2.1, hfinite.2.2⟩ hcheck

theorem balanced_of_run (hnew : Constructed w₀) (hrun : ReflTransGen Step w₀ w) : w.Balanced := by
  induction hrun with
  | refl => exact hnew.balanced
  | tail _ hstep ih =>
    obtain ⟨c, hexact, rfl⟩ := hstep
    rcases Call.run_cases ih hexact with ⟨⟨e, hrun⟩, -⟩ | ⟨w', hrun, -, hw', -⟩
    · rwa [hrun]
    · rwa [hrun]

/-- The three amounts of two wallets agree. -/
def SameAmounts (w w' : WalletAccount) : Prop :=
  w'.balance = w.balance ∧ w'.available = w.available ∧ w'.reserved = w.reserved

/-- **The aggregate is exact and fails atomically**, in every run whose calls need no rounding: the
amounts are finite, add up and are not negative, a call that throws changes none of them, and a
reservation that is released again restores all three. -/
theorem account_exact (hnew : Constructed w₀) (hrun : ReflTransGen Step w₀ w) :
    (w.Finite ∧ w.available.amount + w.reserved.amount = w.balance.amount ∧
      0 ≤ w.available.amount ∧ 0 ≤ w.reserved.amount ∧ 0 ≤ w.balance.amount) ∧
    (∀ (c : Call) (e : JsError) (w' : WalletAccount), c.Exact w → c.run w = (.error e, w') →
      SameAmounts w w') ∧
    ∀ (amount : Money) (w' : WalletAccount), (Call.reserve amount).Exact w →
      (Call.reserve amount).run w = (.ok (), w') → (Call.release amount).Exact w' →
      ∃ w'', (Call.release amount).run w' = (.ok (), w'') ∧ SameAmounts w w'' := by
  have h := balanced_of_run hnew hrun
  refine ⟨⟨h.finite, h.sum, w.available.nonneg, w.reserved.nonneg, w.balance.nonneg⟩, ?_, ?_⟩
  · intro c e w' hexact hthrow
    rcases Call.run_cases h hexact with ⟨⟨e', hrun'⟩, -⟩ | ⟨w'', hrun', -⟩
    · rw [hrun'] at hthrow
      cases hthrow
      exact ⟨rfl, rfl, rfl⟩
    · rw [hrun'] at hthrow
      cases hthrow
  · intro amount w' hreserve hok hrelease
    rcases Call.run_cases h hreserve with ⟨⟨e, hrun'⟩, -⟩ | ⟨v, hrun', hallowed, hv, hmoves, hsame⟩
    · rw [hrun'] at hok
      cases hok
    · obtain rfl : v = w' := by
        rw [hrun'] at hok
        exact (Prod.mk.inj hok).2
      obtain ⟨hbalance, havailable, hreserved⟩ := hmoves
      have hback : (Call.release amount).Allowed v :=
        ⟨hallowed.1.trans hsame.amounts.symm, by linarith [w.reserved.nonneg]⟩
      obtain ⟨w'', hrun'', hw'', ⟨hbalance', havailable', hreserved'⟩, hsame'⟩ :=
        Call.run_of_allowed hv hback (hrelease hback)
      have hasset : w''.balance.asset = w.balance.asset := hsame'.amounts.trans hsame.amounts
      refine ⟨w'', hrun'', Money.ext hasset ?_, Money.ext ?_ ?_, Money.ext ?_ ?_⟩
      · rw [hbalance', hbalance]
      · rw [hw''.availableAsset, hasset, h.availableAsset]
      · rw [havailable', havailable, sub_add_cancel]
      · rw [hw''.reservedAsset, hasset, h.reservedAsset]
      · rw [hreserved', hreserved, add_sub_cancel_right]

/-- A wallet opened with one USDT. -/
def sampleAccount : WalletAccount :=
  ⟨"w-1", sampleUser, USDT, Money.one USDT, Money.one USDT, Money.zero USDT⟩

/-- One USDT is credited to the wallet, then one is reserved and released. -/
theorem account_exact_sample : ∃ w w' w'' : WalletAccount,
    ReflTransGen Step sampleAccount w ∧
      w.available.amount + w.reserved.amount = w.balance.amount ∧ w.balance.amount = 2 ∧
      (Call.reserve (Money.one USDT)).run w = (.ok (), w') ∧ w'.reserved.amount = 1 ∧
      (Call.release (Money.one USDT)).run w' = (.ok (), w'') ∧ SameAmounts w w'' := by
  let credited := Call.credit (Money.one USDT)
  let reserved := Call.reserve (Money.one USDT)
  let released := Call.release (Money.one USDT)
  have hopened : WalletAccount.opened "w-1" sampleUser USDT (Money.one USDT) =
      .ok sampleAccount := by
    decide +kernel
  have hnew : Constructed sampleAccount :=
    .opened (Money.isFinite_of_inRange (by decide +kernel)) hopened
  have hdigits {q : ℚ} (n : ℕ) (hq : q = n) (hn : n < 10 ^ 40) : Decimal.Holds q := by
    subst hq
    have hlt : |(n : ℚ)| < 10 ^ 40 := by rw [Nat.abs_cast]; exact_mod_cast hn
    exact Decimal.holds_of_isFixed (IsFixed.intCast 0 n) hlt le_rfl
  have hrun : ReflTransGen Step sampleAccount (credited.run sampleAccount).2 :=
    .single ⟨credited, fun _ ↦ ⟨hdigits 2 (by decide +kernel) (by norm_num),
      hdigits 2 (by decide +kernel) (by norm_num)⟩, rfl⟩
  have hreserve : reserved.Exact (credited.run sampleAccount).2 :=
    fun _ ↦ ⟨hdigits 1 (by decide +kernel) (by norm_num),
      hdigits 1 (by decide +kernel) (by norm_num)⟩
  have hrelease : released.Exact (reserved.run (credited.run sampleAccount).2).2 :=
    fun _ ↦ ⟨hdigits 0 (by decide +kernel) (by norm_num),
      hdigits 2 (by decide +kernel) (by norm_num)⟩
  have hok : reserved.run (credited.run sampleAccount).2 =
      (.ok (), (reserved.run (credited.run sampleAccount).2).2) := by decide +kernel
  obtain ⟨hsum, -, hback⟩ := account_exact hnew hrun
  obtain ⟨w'', hw''⟩ := hback (Money.one USDT) _ hreserve hok hrelease
  exact ⟨_, _, w'', hrun, hsum.2.1, by decide +kernel, hok, by decide +kernel, hw''⟩

/-- **The aggregate loses track of large amounts.** Reserving the last decimal of an account of
`10 ^ 40` USDT succeeds although `available` does not change. A reservation that fails the check
leaves `reserved` changed. -/
theorem account_loses_track :
    (∃ initial micro w w', Money.of Platform.reference.toDecimalJs "1e40" USDT = .ok initial ∧
      Money.of Platform.reference.toDecimalJs "0.000001" USDT = .ok micro ∧
      opened "w-1" sampleUser USDT initial = .ok w ∧
      (Call.reserve micro).run w = (.ok (), w') ∧
      w'.available.amount + w'.reserved.amount ≠ w'.balance.amount) ∧
    ∃ balance reserved amount w w' e,
      Money.of Platform.reference.toDecimalJs "1e40" USDT = .ok balance ∧
      Money.of Platform.reference.toDecimalJs "4.8" USDT = .ok reserved ∧
      Money.of Platform.reference.toDecimalJs "0.4" USDT = .ok amount ∧
      reconstitute "w-1" sampleUser USDT balance balance reserved = .ok w ∧
      (Call.reserve amount).run w = (.error e, w') ∧ w'.reserved ≠ w.reserved := by
  let large : Money := ⟨USDT, 10 ^ 40, by positivity, ⟨10 ^ 46, by norm_num [USDT]⟩⟩
  let micro : Money := ⟨USDT, 1 / 10 ^ 6, by positivity, ⟨1, by norm_num [USDT]⟩⟩
  let held : Money := ⟨USDT, 48 / 10, by positivity, ⟨4800000, by norm_num [USDT]⟩⟩
  let amount : Money := ⟨USDT, 4 / 10, by positivity, ⟨400000, by norm_num [USDT]⟩⟩
  let whole : WalletAccount := ⟨"w-1", sampleUser, USDT, large, large, Money.zero USDT⟩
  let rounded : WalletAccount := ⟨"w-1", sampleUser, USDT, large, large, held⟩
  have hthrows : ((Call.reserve amount).run rounded).1 ≠ .ok () := by decide +kernel
  obtain ⟨e, he⟩ : ∃ e, (Call.reserve amount).run rounded =
      (.error e, ((Call.reserve amount).run rounded).2) := by
    rcases h : ((Call.reserve amount).run rounded).1 with e | u
    · exact ⟨e, Prod.ext h rfl⟩
    · exact absurd h hthrows
  refine ⟨⟨large, micro, whole, ((Call.reserve micro).run whole).2, ?_⟩,
    large, held, amount, rounded, ((Call.reserve amount).run rounded).2, e, ?_⟩
  · decide +kernel
  · exact ⟨by decide +kernel, by decide +kernel, by decide +kernel, by decide +kernel, he,
      by decide +kernel⟩

end WalletAccount

end WalletConversion
