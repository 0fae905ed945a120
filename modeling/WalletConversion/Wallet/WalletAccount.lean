import WalletConversion.Shared.Money

/-!
# The wallet aggregate

The aggregate of one (user, asset) balance. Its consistency boundary, checked after every mutation,
is `available + reserved = balance`. The methods assign to one field after another and check at the
end, so a throw in between leaves the assignments made before it; `Mutation` keeps that order.
-/

namespace WalletConversion

/-- The balance of one user in one asset. -/
@[ext] structure WalletAccount where
  id : String
  userId : UserId
  asset : Asset
  balance : Money
  available : Money
  reserved : Money
  deriving DecidableEq

namespace WalletAccount

/-- The error for a wallet that would be in no state to be in. -/
def violation (message : String) : JsError := ⟨.WalletInvariantViolationError, message⟩

/-- The error of `reserve`, with both amounts. -/
def insufficientAvailableBalance (userId : UserId) (asset : Asset) (requested available : Money) :
    JsError :=
  ⟨.InsufficientAvailableBalanceError,
    s!"Insufficient available balance for user {userId.value} in {asset.code}: " ++
      s!"requested {requested.toString}, available {available.toString}"⟩

/-- What the class promises: one asset, and `available + reserved` equal to `balance`. The sum is
computed in decimals of 40 digits, so it is compared after rounding. -/
def assertInvariant (w : WalletAccount) : Except JsError Unit :=
  if w.balance.asset.code = w.asset.code ∧ w.available.asset.code = w.asset.code ∧
      w.reserved.asset.code = w.asset.code then do
    let recomposed ← w.available.add w.reserved
    if recomposed.equals w.balance then .ok ()
    else .error (violation
      (s!"Wallet invariant violated: available ({w.available.toString}) + " ++
        s!"reserved ({w.reserved.toString}) != balance ({w.balance.toString})"))
  else .error (violation "WalletAccount amounts must all share the wallet asset")

/-- The constructor and its check. -/
def new (id : String) (userId : UserId) (asset : Asset) (balance available reserved : Money) :
    Except JsError WalletAccount := do
  let w : WalletAccount := ⟨id, userId, asset, balance, available, reserved⟩
  w.assertInvariant
  return w

/-- `WalletAccount.open`. -/
def opened (id : String) (userId : UserId) (asset : Asset) (initialBalance : Money) :
    Except JsError WalletAccount :=
  if initialBalance.asset.code = asset.code then
    new id userId asset initialBalance initialBalance (Money.zero asset)
  else .error (violation (s!"Initial balance asset {initialBalance.asset.code} does not match " ++
    s!"wallet asset {asset.code}"))

/-- A wallet from its stored amounts, through the same check. -/
def reconstitute (id : String) (userId : UserId) (asset : Asset)
    (balance available reserved : Money) : Except JsError WalletAccount :=
  new id userId asset balance available reserved

/-- Every method begins with this. -/
def assertSameAsset (amount : Money) (operation : String) : Mutation WalletAccount Unit :=
  Mutation.throwIf (fun w ↦ amount.asset.code ≠ w.asset.code) fun w ↦
    violation s!"Cannot {operation} {amount.asset.code} on a {w.asset.code} wallet"

/-- Move an amount from available to reserved. -/
def reserve (amount : Money) : Mutation WalletAccount Unit := do
  assertSameAsset amount "reserve"
  let enough ← Mutation.compute fun w ↦ w.available.isGreaterThanOrEqual amount
  Mutation.throwIf (fun _ ↦ enough = false) fun w ↦
    insufficientAvailableBalance w.userId w.asset amount w.available
  let available ← Mutation.compute fun w ↦ w.available.subtract amount
  Mutation.assign fun w ↦ { w with available }
  let reserved ← Mutation.compute fun w ↦ w.reserved.add amount
  Mutation.assign fun w ↦ { w with reserved }
  Mutation.compute assertInvariant

/-- Move an amount from reserved back to available. -/
def release (amount : Money) : Mutation WalletAccount Unit := do
  assertSameAsset amount "release"
  let enough ← Mutation.compute fun w ↦ w.reserved.isGreaterThanOrEqual amount
  Mutation.throwIf (fun _ ↦ enough = false) fun w ↦
    violation s!"Cannot release {amount.toString}: only {w.reserved.toString} is reserved"
  let reserved ← Mutation.compute fun w ↦ w.reserved.subtract amount
  Mutation.assign fun w ↦ { w with reserved }
  let available ← Mutation.compute fun w ↦ w.available.add amount
  Mutation.assign fun w ↦ { w with available }
  Mutation.compute assertInvariant

/-- Remove an amount from reserved and from the balance: the funds have left the wallet. -/
def commitReservation (amount : Money) : Mutation WalletAccount Unit := do
  assertSameAsset amount "commit a reservation for"
  let enough ← Mutation.compute fun w ↦ w.reserved.isGreaterThanOrEqual amount
  Mutation.throwIf (fun _ ↦ enough = false) fun w ↦
    violation s!"Cannot commit {amount.toString}: only {w.reserved.toString} is reserved"
  let reserved ← Mutation.compute fun w ↦ w.reserved.subtract amount
  Mutation.assign fun w ↦ { w with reserved }
  let balance ← Mutation.compute fun w ↦ w.balance.subtract amount
  Mutation.assign fun w ↦ { w with balance }
  Mutation.compute assertInvariant

/-- Add an amount to the balance and to available. -/
def credit (amount : Money) : Mutation WalletAccount Unit := do
  assertSameAsset amount "credit"
  let balance ← Mutation.compute fun w ↦ w.balance.add amount
  Mutation.assign fun w ↦ { w with balance }
  let available ← Mutation.compute fun w ↦ w.available.add amount
  Mutation.assign fun w ↦ { w with available }
  Mutation.compute assertInvariant

end WalletAccount

end WalletConversion
