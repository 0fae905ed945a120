import WalletConversion.Database.Repositories
import WalletConversion.Application.AcceptQuote

/-!
# Executing a conversion

`ProcessConversionExecutionUseCase.execute` is the consumer of the execution event:

1. skip an event that was processed already;
2. advance `FUNDS_RESERVED` to `EXECUTION_REQUESTED`;
3. call the exchange, which remembers its result by event id;
4. in one transaction claim the event, settle the wallets, and store the conversion.

The first three steps are statements of their own, so a crash can separate any two of them.
-/

namespace WalletConversion

open Transactional

/-- What an execution draws from its surroundings. -/
structure ExecuteInputs where
  /-- The mode the exchange is in for this order. -/
  mode : ExecutionOutcome
  now : Date
  /-- `NOW()` of the database. -/
  databaseNow : Date
  /-- The id of a target wallet, if one has to be created. -/
  walletId : Uuid

/-- What an execution reports to its metrics. -/
inductive ExecutionReport where
  | replay
  | repaired
  | processed (outcome : ExecutionOutcome) (settled : Bool)
  deriving DecidableEq

namespace ProcessConversionExecutionUseCase

section UseCase

variable (env : Platform)

/-- What the event says has to be what the conversion says. The checks come in this order, and the
texts of the amounts are compared as numbers. -/
def assertPayloadMatchesConversion (payload : ConversionExecutionRequestedPayload)
    (conversion : Conversion) : Except JsError Unit :=
  if payload.eventType ≠ "ConversionExecutionRequested" then
    .error (.error "Unsupported execution event type")
  else if payload.userId ≠ conversion.userId.value then
    .error (.error s!"Execution event {payload.eventId} userId does not match conversion")
  else if payload.sourceAsset ≠ conversion.sourceAmount.asset.code ∨
      payload.targetAsset ≠ conversion.targetAmount.asset.code then
    .error (.error s!"Execution event {payload.eventId} asset pair does not match conversion")
  else do
    let sourceAmount ← Money.of env.toDecimalJs payload.sourceAmount conversion.sourceAmount.asset
    let targetAmount ← Money.of env.toDecimalJs payload.targetAmount conversion.targetAmount.asset
    if sourceAmount.equals conversion.sourceAmount = false ∨
        targetAmount.equals conversion.targetAmount = false then
      .error (.error s!"Execution event {payload.eventId} amounts do not match conversion")
    else if env.parsesDate payload.occurredAt = false then
      .error (.error (s!"Execution event {payload.eventId} occurredAt must be an ISO timestamp"))
    else .ok ()

/-- The outcome to record for a terminal conversion whose event has no marker. -/
def outcomeFromStatus (conversion : Conversion) : ExecutionOutcome :=
  match conversion.status with
  | .COMPLETED => .SUCCESS
  | .FAILED => .FAILURE
  | _ => .UNKNOWN

/-- Open the target wallet unless it exists. -/
def ensureTargetWallet (userId : UserId) (asset : Asset) (walletId : Uuid) : App Unit := do
  let wallet ← attempt (WalletAccount.opened walletId.value userId asset (Money.zero asset))
  PrismaWalletRepository.createIfMissing wallet

/-- The wallets are moved in these two states only. -/
def movesFunds (conversion : Conversion) : Bool :=
  conversion.status = .EXECUTION_REQUESTED ∨ conversion.status = .REQUIRES_RECONCILIATION

/-- Pay the source amount and credit the target amount. -/
def settleWallets (conversion : Conversion) (walletId : Uuid) : App Unit :=
  if movesFunds conversion then do
    let _ ← PrismaWalletRepository.commitReservation env conversion.userId
      conversion.sourceAmount.asset conversion.sourceAmount
    ensureTargetWallet conversion.userId conversion.targetAmount.asset walletId
    let _ ← PrismaWalletRepository.credit env conversion.userId conversion.targetAmount.asset
      conversion.targetAmount
    pure ()
  else pure ()

/-- Free the source amount. -/
def releaseWallet (conversion : Conversion) : App Unit :=
  if movesFunds conversion then do
    let _ ← PrismaWalletRepository.release env conversion.userId conversion.sourceAmount.asset
      conversion.sourceAmount
    pure ()
  else pure ()

/-- Apply the result to the aggregate and store it. -/
def saveOutcome (conversion : Conversion) (outcome : ExecutionOutcome) (now : Date)
    (reason : Option String) : App Unit := do
  let conversion ← attempt ((Conversion.applyExecutionResult outcome now reason).call conversion)
  PrismaConversionRepository.save conversion

/-- Settle the conversion, once: a status that is there already means that all of it was done. -/
def applyOutcome (conversion : Conversion) (outcome : ExecutionOutcome) (now : Date)
    (reason : Option String) (walletId : Uuid) : App Unit :=
  match outcome with
  | .SUCCESS =>
    if conversion.status = .COMPLETED then pure ()
    else do
      settleWallets env conversion walletId
      saveOutcome conversion .SUCCESS now none
  | .FAILURE =>
    if conversion.status = .FAILED then pure ()
    else do
      releaseWallet env conversion
      saveOutcome conversion .FAILURE now reason
  | .UNKNOWN => saveOutcome conversion .UNKNOWN now reason

/-- The body of the settlement transaction: `none` if another worker claimed the event, otherwise
whether the conversion was still to be settled. -/
def settlement (payload : ConversionExecutionRequestedPayload) (conversionId : ConversionId)
    (result : ExecutionResult) (inputs : ExecuteInputs) : App (Option Bool) := do
  if ← PrismaProcessedMessageRepository.tryRecord payload.eventId payload.conversionId
      result.outcome inputs.databaseNow then
    match ← PrismaConversionRepository.findById env conversionId with
    | none =>
      attempt (.error (.error
        s!"Conversion {payload.conversionId} disappeared during settlement"))
    | some fresh =>
      let fresh ← attempt (if fresh.status = .FUNDS_RESERVED then
          (Conversion.markExecutionRequested payload.eventId).call fresh
        else .ok fresh)
      applyOutcome env fresh result.outcome inputs.now result.reason inputs.walletId
      return some (fresh.status ≠ .COMPLETED ∧ fresh.status ≠ .FAILED)
  else return none

/-- The event matches its conversion, which waits for execution: call the exchange and settle. -/
def executeAndSettle (payload : ConversionExecutionRequestedPayload) (conversionId : ConversionId)
    (inputs : ExecuteInputs) : App ExecutionReport := do
  let result ← FakeExchangeAdapter.execute env
    { clientOrderId := payload.eventId
      conversionId := payload.conversionId
      userId := payload.userId
      sourceAsset := payload.sourceAsset
      targetAsset := payload.targetAsset
      sourceAmount := payload.sourceAmount
      targetAmount := payload.targetAmount } inputs.mode
  match ← Prog.transaction (settlement env payload conversionId result inputs) with
  | none => return .replay
  | some settled => return .processed result.outcome settled

/-- The conversion of the event was found: check the event against it. -/
def handle (payload : ConversionExecutionRequestedPayload) (conversionId : ConversionId)
    (conversion : Conversion) (inputs : ExecuteInputs) : App ExecutionReport := do
  attempt (assertPayloadMatchesConversion env payload conversion)
  if conversion.exchangeExecutionId ≠ some payload.eventId then
    attempt (.error (.error (s!"Conversion {payload.conversionId} is bound to execution event " ++
      conversion.exchangeExecutionId.getD "none" ++ s!", not {payload.eventId}")))
  else if conversion.isTerminal then do
    let _ ← PrismaProcessedMessageRepository.tryRecord payload.eventId payload.conversionId
      (outcomeFromStatus conversion) inputs.databaseNow
    return .repaired
  else if conversion.status ≠ .EXECUTION_REQUESTED then
    attempt (.error (.error (s!"Conversion {payload.conversionId} in unexpected status " ++
      s!"{conversion.status.text} for execution")))
  else executeAndSettle env payload conversionId inputs

/-- Handle one event: skip it if it was processed, advance the conversion, check the event against
it, and execute. -/
def execute (payload : ConversionExecutionRequestedPayload) (inputs : ExecuteInputs) :
    App ExecutionReport := do
  let conversionId ← attempt (ConversionId.of payload.conversionId)
  if ← PrismaProcessedMessageRepository.exists' payload.eventId then
    return .replay
  else
    match ← PrismaConversionRepository.markExecutionRequestedIfFundsReserved env conversionId
        payload.eventId with
    | none =>
      attempt (.error (.error
        s!"Conversion {payload.conversionId} not found for event {payload.eventId}"))
    | some conversion => handle env payload conversionId conversion inputs

end UseCase

end ProcessConversionExecutionUseCase

end WalletConversion
