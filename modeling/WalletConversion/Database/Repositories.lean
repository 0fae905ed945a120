import WalletConversion.Database.Statement
import WalletConversion.Wallet.WalletAccount

/-!
# Repositories

The repositories issue one statement or two for each method and translate between rows and domain
objects. A method is a program `App α`; inside a unit of work it runs on the open transaction, and
outside of one every statement is its own transaction.

Reading a row back can throw: the asset may be unknown, or the stored number may have more decimals
than the asset. For rows the application has written it never does.
-/

namespace WalletConversion

open Transactional

/-- What a program of the application throws: an error, or the signal that rolls an accept back. -/
inductive Thrown where
  | error (e : JsError)
  | acceptAborted (statusCode : ℕ) (errorCode message : String)
  deriving DecidableEq

/-- A program of the application. -/
abbrev App := Prog Stmt Stmt.Result Thrown

/-- Issue one statement. -/
def sql (s : Stmt) : App s.Result := Prog.stmt s

/-- A computation of the domain. -/
def attempt {α : Type} : Except JsError α → App α
  | .ok a => Prog.ret a
  | .error e => Prog.raise (.error e)

@[simp] theorem attempt_ok {α : Type} (a : α) : attempt (.ok a) = Prog.ret a := rfl

@[simp] theorem attempt_error {α : Type} (e : JsError) :
    attempt (.error e : Except JsError α) = Prog.raise (.error e) := rfl

section Repositories

variable (env : Platform)

/-! ### Wallets -/

/-- What `reserve` answers: the wallet as it is now, or that nothing was updated, because there is
not enough or no such wallet. -/
inductive ReservationOutcome where
  | reserved (wallet : WalletAccount)
  | insufficientOrConflict

namespace PrismaWalletRepository

/-- Read a row back. It throws for an unknown asset, for a number with more decimals than the asset
has, and for a row that breaks the invariant of the wallet. -/
def toDomain (userId assetCode : String) (row : WalletRow) : Except JsError WalletAccount := do
  let asset ← Asset.of env.registry assetCode
  WalletAccount.reconstitute row.id (← UserId.of userId) asset
    (← Money.of env.toDecimalJs (env.numericText row.balance) asset)
    (← Money.of env.toDecimalJs (env.numericText row.available) asset)
    (← Money.of env.toDecimalJs (env.numericText row.reserved) asset)

/-- The wallet of a user in an asset, or `null`. -/
def findByUserAndAsset (userId : UserId) (asset : Asset) : App (Option WalletAccount) := do
  match ← sql (.findWallet userId.value asset.code) with
  | none => return none
  | some row => return some (← attempt (toDomain env userId.value asset.code row))

/-- Insert a wallet; there must be none yet. -/
def create (wallet : WalletAccount) : App Unit :=
  sql (.createWallet
    { id := wallet.id
      userId := wallet.userId.value
      asset := wallet.asset.code
      balance := wallet.balance.toString
      available := wallet.available.toString
      reserved := wallet.reserved.toString })

/-- Insert an empty wallet unless the user has one: whoever comes second changes nothing. -/
def createIfMissing (wallet : WalletAccount) : App Unit :=
  if wallet.balance.isZero then
    sql (.insertWallet wallet.id wallet.userId.value wallet.asset.code)
  else attempt (.error (WalletAccount.violation "createIfMissing requires a zero-balance wallet"))

/-- Move an amount from available to reserved in one `UPDATE`, whose `WHERE` is the check. -/
def reserve (userId : UserId) (asset : Asset) (amount : Money) : App ReservationOutcome := do
  match ← sql (.reserveWallet userId.value asset.code amount.toString) with
  | none => return .insufficientOrConflict
  | some row => return .reserved (← attempt (toDomain env userId.value asset.code row))

/-- The error of `release` and `commitReservation` when nothing was updated. -/
def cannot (action : String) (userId : UserId) (asset : Asset) (amount : Money) : JsError :=
  WalletAccount.violation (s!"Cannot {action} {amount.toString} for user {userId.value}/" ++
    s!"{asset.code}: insufficient reserved balance (wallet missing or reservation already " ++
    "resolved)")

/-- Move an amount back from reserved to available. -/
def release (userId : UserId) (asset : Asset) (amount : Money) : App WalletAccount := do
  match ← sql (.releaseWallet userId.value asset.code amount.toString) with
  | none => attempt (.error (cannot "release" userId asset amount))
  | some row => attempt (toDomain env userId.value asset.code row)

/-- Take an amount out of what is reserved, and so out of the balance. -/
def commitReservation (userId : UserId) (asset : Asset) (amount : Money) : App WalletAccount := do
  match ← sql (.commitWallet userId.value asset.code amount.toString) with
  | none => attempt (.error (cannot "commit reservation of" userId asset amount))
  | some row => attempt (toDomain env userId.value asset.code row)

/-- Add an amount to the balance and to what is available. It has no condition but that the wallet
exists. -/
def credit (userId : UserId) (asset : Asset) (amount : Money) : App WalletAccount := do
  match ← sql (.creditWallet userId.value asset.code amount.toString) with
  | none => attempt (.error ⟨.WalletNotFoundError,
      s!"No wallet found for user {userId.value} in {asset.code}"⟩)
  | some row => attempt (toDomain env userId.value asset.code row)

end PrismaWalletRepository

/-! ### Quotes -/

namespace PrismaQuoteRepository

/-- Read a row back. `EXPIRED` is derived and never stored, so a row with this status is an
error. -/
def toDomain (id : String) (row : QuoteRow) : Except JsError Quote := do
  let sourceAsset ← Asset.of env.registry row.sourceAsset
  let targetAsset ← Asset.of env.registry row.targetAsset
  if row.status = .EXPIRED then
    .error (.error "Unexpected persisted quote status: EXPIRED")
  else
    Quote.reconstitute (← QuoteId.of id) (← UserId.of row.userId)
      (← Money.of env.toDecimalJs (env.numericText row.sourceAmount) sourceAsset)
      (← Money.of env.toDecimalJs (env.numericText row.targetAmount) targetAsset)
      (← ExchangeRate.of env.toDecimalJs sourceAsset targetAsset (env.numericText row.rate))
      row.createdAt row.expiresAt row.status row.acceptedAt

/-- The data `save` sends. -/
def data (quote : Quote) : QuoteData where
  id := quote.id.value
  userId := quote.userId.value
  sourceAsset := quote.sourceAsset.code
  targetAsset := quote.targetAsset.code
  sourceAmount := quote.sourceAmount.toString
  targetAmount := quote.targetAmount.toString
  rate := quote.rate.toString
  status := quote.status
  createdAt := quote.createdAt
  expiresAt := quote.expiresAt
  acceptedAt := quote.acceptedAt

/-- Insert the quote, or update the status and the acceptance of its row. -/
def save (quote : Quote) : App Unit := sql (.upsertQuote (data quote))

/-- The quote of an id, or `null`. -/
def findById (id : QuoteId) : App (Option Quote) := do
  match ← sql (.findQuote id.value) with
  | none => return none
  | some row => return some (← attempt (toDomain env id.value row))

/-- Store an accepted quote if the row is still active and has not expired: of two accepts at the
same time, one updates no row and is given `null`. -/
def saveAccepted (quote : Quote) (now : Date) : App (Option Quote) :=
  match quote.status, quote.acceptedAt with
  | .ACCEPTED, some acceptedAt => do
    match ← sql (.acceptQuote quote.id.value acceptedAt now) with
    | none => return none
    | some row => return some (← attempt (toDomain env quote.id.value row))
  | _, _ => attempt (.error (.error
      "saveAccepted requires a quote that has already been accept()ed in-memory"))

end PrismaQuoteRepository

/-! ### Conversions -/

namespace PrismaConversionRepository

/-- Read a row back, with the check of the constructor: two different assets. -/
def toDomain (id : String) (row : ConversionRow) : Except JsError Conversion := do
  let sourceAsset ← Asset.of env.registry row.sourceAsset
  let targetAsset ← Asset.of env.registry row.targetAsset
  Conversion.new (← ConversionId.of id) (← QuoteId.of row.quoteId) (← UserId.of row.userId)
    (← Money.of env.toDecimalJs (env.numericText row.sourceAmount) sourceAsset)
    (← Money.of env.toDecimalJs (env.numericText row.targetAmount) targetAsset)
    row.status row.exchangeExecutionId row.createdAt row.completedAt row.failureReason

/-- The data `save` sends. -/
def data (conversion : Conversion) : ConversionData where
  id := conversion.id.value
  quoteId := conversion.quoteId.value
  userId := conversion.userId.value
  sourceAsset := conversion.sourceAmount.asset.code
  targetAsset := conversion.targetAmount.asset.code
  sourceAmount := conversion.sourceAmount.toString
  targetAmount := conversion.targetAmount.toString
  status := conversion.status
  exchangeExecutionId := conversion.exchangeExecutionId
  failureReason := conversion.failureReason
  createdAt := conversion.createdAt
  completedAt := conversion.completedAt

/-- Insert the conversion, or update the four columns of its row that the lifecycle changes. -/
def save (conversion : Conversion) : App Unit := sql (.upsertConversion (data conversion))

/-- The conversion of an id, or `null`. -/
def findById (id : ConversionId) : App (Option Conversion) := do
  match ← sql (.findConversion id.value) with
  | none => return none
  | some row => return some (← attempt (toDomain env id.value row))

/-- Advance a conversion whose funds are reserved for the event, and return it; otherwise return it
as it is. -/
def markExecutionRequestedIfFundsReserved (id : ConversionId) (eventId : String) :
    App (Option Conversion) := do
  match ← sql (.requestExecution id.value eventId) with
  | some row => return some (← attempt (toDomain env id.value row))
  | none => findById env id

end PrismaConversionRepository

/-! ### Idempotency records -/

/-- What is known of a key: nothing, a claim without its response, or the response to replay. -/
inductive IdempotencyLookup where
  | missing
  | inProgress (requestHash : String)
  | completed (requestHash : String) (responseStatus : ℕ) (responseBody : AcceptQuoteSuccessBody)
      (conversionId : Option String)

namespace PrismaIdempotencyRepository

/-- A record counts as completed once its status and its body are both there. -/
def toLookup : Option IdempotencyRow → IdempotencyLookup
  | none => .missing
  | some row =>
    match row.responseStatus, row.responseBody with
    | some responseStatus, some responseBody =>
      .completed row.requestHash responseStatus responseBody row.conversionId
    | _, _ => .inProgress row.requestHash

/-- Look up a key. The keys are unique across scopes, and the scope is not compared. -/
def find (_scope key : String) : App IdempotencyLookup := do
  return toLookup (← sql (.findIdempotency key))

/-- Claim the key. The database supplies the time. -/
def tryBegin (scope key requestHash : String) (now : Date) : App Bool :=
  sql (.insertIdempotency scope key requestHash now)

/-- Store the response of a claimed key. It must find exactly one record to update. -/
def complete (scope key : String) (responseStatus : ℕ) (responseBody : AcceptQuoteSuccessBody)
    (conversionId : String) : App Unit := do
  let count ← sql (.completeIdempotency scope key responseStatus responseBody conversionId)
  if count = 1 then return ()
  else attempt (.error (.error
    s!"Cannot complete unclaimed idempotency key {key} in scope {scope}"))

/-- Delete a batch of records created before the cutoff. The statement looks at the time only, and
skips records that are locked. -/
def deleteExpired (before : Date) (limit : ℕ) (place : String → ℕ) : App ℕ :=
  sql (.deleteExpired before limit place)

end PrismaIdempotencyRepository

/-! ### Outbox -/

namespace PrismaOutboxRepository

/-- Insert a message, inside the transaction of the accept. -/
def enqueue (message : OutboxMessage) : App Unit := sql (.createOutbox message)

/-- Rebuild the message. A row whose payload names another event throws. -/
def toDomain (id : String) (row : OutboxRow) : Except JsError OutboxMessage :=
  OutboxMessage.createConversionExecutionRequested id row.payload row.createdAt

/-- The oldest messages that are not published. One row that cannot be read fails the whole
batch. -/
def findUnpublished (limit : ℕ) (place : String → ℕ) : App (List OutboxMessage) := do
  let rows ← sql (.findUnpublished limit place)
  attempt (rows.mapM fun row ↦ toDomain row.1 row.2)

/-- Mark a message as published, unless it is already. -/
def markPublished (id : String) (publishedAt : Date) : App Unit :=
  sql (.markPublished id publishedAt)

end PrismaOutboxRepository

/-! ### Processed messages -/

namespace PrismaProcessedMessageRepository

/-- Whether the event was processed. -/
def exists' (eventId : String) : App Bool := sql (.existsProcessed eventId)

/-- Claim the event. The database supplies the time. -/
def tryRecord (eventId conversionId : String) (outcome : ExecutionOutcome) (now : Date) :
    App Bool :=
  sql (.insertProcessed eventId conversionId outcome now)

end PrismaProcessedMessageRepository

/-! ### The exchange -/

/-- An order to the exchange. The amounts are texts. -/
structure ExecuteConversionCommand where
  clientOrderId : String
  conversionId : String
  userId : String
  sourceAsset : String
  targetAsset : String
  sourceAmount : String
  targetAmount : String
  deriving DecidableEq

/-- What the exchange says of an order. -/
structure ExecutionResult where
  outcome : ExecutionOutcome
  externalReference : String
  reason : Option String

namespace FakeExchangeAdapter

/-- The result an order would get in a mode. -/
def buildResult (command : ExecuteConversionCommand) (mode : ExecutionOutcome) :
    ExecutionResult where
  outcome := mode
  externalReference := s!"fake-{command.clientOrderId}"
  reason :=
    match mode with
    | .SUCCESS => none
    | .FAILURE => some "simulated_exchange_failure"
    | .UNKNOWN => some "simulated_exchange_timeout"

/-- `new Decimal(String(n)).equals(text)`. -/
def matchesText (n : Numeric) (text : String) : Except JsError Bool := do
  let d ← Decimal.ofText env.toDecimalJs (env.numericText n)
  let other ← Decimal.ofText env.toDecimalJs text
  return d.equals other

/-- A row may answer only the order that it was inserted for: the same conversion, user and assets,
and equal numbers however they are written. -/
def assertSameCommand (command : ExecuteConversionCommand) (persisted : ExchangeRow) :
    Except JsError Unit := do
  let identityMatches := persisted.conversionId = command.conversionId ∧
    persisted.userId = command.userId ∧ persisted.sourceAsset = command.sourceAsset ∧
    persisted.targetAsset = command.targetAsset
  -- `&&` reads the target amount only when the source amount matches
  let sourceMatches ← matchesText env persisted.sourceAmount command.sourceAmount
  let amountsMatch ← if sourceMatches then
      matchesText env persisted.targetAmount command.targetAmount
    else pure false
  if identityMatches ∧ amountsMatch then .ok ()
  else .error (.error (s!"clientOrderId {command.clientOrderId} was already used for a " ++
    "different execution command"))

/-- Execute an order once. The row of the order is the external effect; whoever comes later gets
the result of the row. -/
def execute (command : ExecuteConversionCommand) (mode : ExecutionOutcome) :
    App ExecutionResult := do
  let proposed := buildResult command mode
  let _ ← sql (.insertExchange
    { clientOrderId := command.clientOrderId
      conversionId := command.conversionId
      userId := command.userId
      sourceAsset := command.sourceAsset
      targetAsset := command.targetAsset
      sourceAmount := command.sourceAmount
      targetAmount := command.targetAmount
      outcome := proposed.outcome
      reason := proposed.reason
      externalReference := proposed.externalReference })
  match ← sql (.findExchange command.clientOrderId) with
  | none => attempt (.error (.error "No FakeExchangeExecution found"))
  | some persisted =>
    attempt (assertSameCommand env command persisted)
    return ⟨persisted.outcome, persisted.externalReference, persisted.reason⟩

/-- The row an order proposes. -/
def orderData (command : ExecuteConversionCommand) (mode : ExecutionOutcome) : ExchangeData where
  clientOrderId := command.clientOrderId
  conversionId := command.conversionId
  userId := command.userId
  sourceAsset := command.sourceAsset
  targetAsset := command.targetAsset
  sourceAmount := command.sourceAmount
  targetAmount := command.targetAmount
  outcome := mode
  reason := (buildResult command mode).reason
  externalReference := s!"fake-{command.clientOrderId}"

/-- What a call answers when it has read the row of its order. -/
def answer (command : ExecuteConversionCommand) : Option ExchangeRow → App ExecutionResult
  | none => attempt (.error (.error "No FakeExchangeExecution found"))
  | some persisted => do
    attempt (assertSameCommand env command persisted)
    return ⟨persisted.outcome, persisted.externalReference, persisted.reason⟩

/-- The two statements of an order. -/
theorem execute_eq (command : ExecuteConversionCommand) (mode : ExecutionOutcome) :
    execute env command mode = .call (.insertExchange (orderData command mode)) fun _ ↦
      .call (.findExchange command.clientOrderId) (answer env command) := by
  refine congrArg (Prog.call _) (funext fun _ ↦ congrArg (Prog.call _) (funext fun x ↦ ?_))
  cases x <;> rfl

end FakeExchangeAdapter

end Repositories

end WalletConversion
