import WalletConversion.Shared.Clock
import WalletConversion.Shared.Money

/-!
# Conversions and their execution event

The conversion aggregate knows its lifecycle only; moving money is the business of the use cases.
Its transitions are `Mutation`s in the order of the source's checks and assignments.

The aggregate is weaker than the table it is stored in: it admits, for instance, `FUNDS_RESERVED`
without an execution id. Which states the use cases actually store is a fact about them.
-/

namespace WalletConversion

/-- The states of the lifecycle, in its order; the last three are terminal. -/
inductive ConversionStatus where
  | CREATED
  | FUNDS_RESERVED
  | EXECUTION_REQUESTED
  | COMPLETED
  | FAILED
  | REQUIRES_RECONCILIATION
  deriving DecidableEq

/-- What the exchange says of an order. `UNKNOWN` stands for a timeout, too. -/
inductive ExecutionOutcome where
  | SUCCESS
  | FAILURE
  | UNKNOWN
  deriving DecidableEq

/-- The name of the status in rows, responses and messages. -/
def ConversionStatus.text : ConversionStatus → String
  | .CREATED => "CREATED"
  | .FUNDS_RESERVED => "FUNDS_RESERVED"
  | .EXECUTION_REQUESTED => "EXECUTION_REQUESTED"
  | .COMPLETED => "COMPLETED"
  | .FAILED => "FAILED"
  | .REQUIRES_RECONCILIATION => "REQUIRES_RECONCILIATION"

/-- Membership in `TERMINAL`. -/
def ConversionStatus.isTerminal : ConversionStatus → Bool
  | .COMPLETED | .FAILED | .REQUIRES_RECONCILIATION => true
  | _ => false

/-- The name of the outcome in rows and messages. -/
def ExecutionOutcome.text : ExecutionOutcome → String
  | .SUCCESS => "SUCCESS"
  | .FAILURE => "FAILURE"
  | .UNKNOWN => "UNKNOWN"

/-- One conversion of a source amount into a target amount. -/
@[ext] structure Conversion where
  id : ConversionId
  quoteId : QuoteId
  userId : UserId
  sourceAmount : Money
  targetAmount : Money
  status : ConversionStatus
  exchangeExecutionId : Option String
  createdAt : Date
  completedAt : Option Date
  failureReason : Option String
  distinct : sourceAmount.asset.code ≠ targetAmount.asset.code
  deriving DecidableEq

namespace Conversion

/-- A method was called in a status that does not admit it. -/
def invalidTransition (c : Conversion) (action : String) : JsError :=
  ⟨.InvalidConversionTransitionError, s!"Cannot {action} conversion in status {c.status.text}"⟩

/-- A result contradicts the one that has settled the conversion. -/
def conflictingExecutionResult (c : Conversion) (incoming : ExecutionOutcome) : JsError :=
  ⟨.ConflictingExecutionResultError,
    s!"Conflicting execution result {incoming.text} for conversion {c.id.value} " ++
      s!"already in terminal status {c.status.text}"⟩

/-- The constructor and its check. -/
def new (id : ConversionId) (quoteId : QuoteId) (userId : UserId)
    (sourceAmount targetAmount : Money) (status : ConversionStatus)
    (exchangeExecutionId : Option String) (createdAt : Date) (completedAt : Option Date)
    (failureReason : Option String) : Except JsError Conversion :=
  if h : sourceAmount.asset.code = targetAmount.asset.code then
    .error (.error "Conversion source and target assets must differ")
  else
    .ok
      { id, quoteId, userId, sourceAmount, targetAmount, status, exchangeExecutionId, createdAt
        completedAt, failureReason, distinct := h }

/-- A new conversion. The assets are compared by the constructor, after the amounts. -/
def create (id : ConversionId) (quoteId : QuoteId) (userId : UserId)
    (sourceAmount targetAmount : Money) (createdAt : Date) : Except JsError Conversion :=
  if sourceAmount.isZero then
    .error (.error "Conversion source amount must be positive")
  else if targetAmount.isZero then
    .error (.error "Conversion target amount must be positive")
  else new id quoteId userId sourceAmount targetAmount .CREATED none createdAt none none

/-- No result is expected any more, except for a conversion that requires reconciliation. -/
def isTerminal (c : Conversion) : Bool := c.status.isTerminal

/-- After the wallet reserve inside the accept transaction. -/
def markFundsReserved : Mutation Conversion Unit := do
  Mutation.throwIf (fun c ↦ c.status ≠ .CREATED) (invalidTransition · "markFundsReserved")
  Mutation.assign fun c ↦ { c with status := .FUNDS_RESERVED }

/-- Bind the single execution event while funds remain reserved. -/
def bindExecutionEvent (eventId : String) : Mutation Conversion Unit := do
  Mutation.throwIf (fun c ↦ c.status ≠ .FUNDS_RESERVED) (invalidTransition · "bindExecutionEvent")
  Mutation.throwIf (fun _ ↦ trim eventId = "") fun _ ↦ .error "eventId must not be empty"
  Mutation.throwIf (fun c ↦ c.exchangeExecutionId ≠ none ∧ c.exchangeExecutionId ≠ some eventId)
    fun c ↦ .error (s!"Conversion is already bound to execution event " ++
      c.exchangeExecutionId.getD "null")
  Mutation.assign fun c ↦ { c with exchangeExecutionId := some eventId }

/-- Request the execution under the event that is bound, or bind it now. -/
def markExecutionRequested (exchangeExecutionId : String) : Mutation Conversion Unit := do
  Mutation.throwIf (fun c ↦ c.status ≠ .FUNDS_RESERVED)
    (invalidTransition · "markExecutionRequested")
  Mutation.throwIf (fun _ ↦ trim exchangeExecutionId = "") fun _ ↦
    .error "exchangeExecutionId must not be empty"
  Mutation.throwIf
    (fun c ↦ c.exchangeExecutionId ≠ none ∧ c.exchangeExecutionId ≠ some exchangeExecutionId)
    fun c ↦ .error (s!"Conversion is bound to execution event " ++
      c.exchangeExecutionId.getD "null" ++ s!", not {exchangeExecutionId}")
  Mutation.assign fun c ↦ { c with exchangeExecutionId := some exchangeExecutionId }
  Mutation.assign fun c ↦ { c with status := .EXECUTION_REQUESTED }

/-- The assignments of a success. -/
def completed (c : Conversion) (at' : Date) : Conversion :=
  { c with status := .COMPLETED, completedAt := some at', failureReason := none }

/-- The assignments of a failure. -/
def failed (c : Conversion) (at' : Date) (reason : Option String) : Conversion :=
  { c with
    status := .FAILED
    completedAt := some at'
    failureReason := some (reason.getD "execution_failed") }

/-- The assignments of an unknown outcome. -/
def reconciling (c : Conversion) (reason : Option String) : Conversion :=
  { c with
    status := .REQUIRES_RECONCILIATION
    failureReason := some (reason.getD "execution_unknown") }

/-- Apply an exchange result: a no-op for a repeated outcome, an error for a conflicting one. -/
def applyExecutionResult (outcome : ExecutionOutcome) (at' : Date) (reason : Option String) :
    Mutation Conversion Unit := fun c ↦
  match c.status, outcome with
  | .REQUIRES_RECONCILIATION, .UNKNOWN => (.ok (), c)
  | .REQUIRES_RECONCILIATION, .SUCCESS => (.ok (), c.completed at')
  | .REQUIRES_RECONCILIATION, .FAILURE => (.ok (), c.failed at' reason)
  | .COMPLETED, .SUCCESS => (.ok (), c)
  | .COMPLETED, o => (.error (c.conflictingExecutionResult o), c)
  | .FAILED, .FAILURE => (.ok (), c)
  | .FAILED, o => (.error (c.conflictingExecutionResult o), c)
  | .EXECUTION_REQUESTED, .SUCCESS => (.ok (), c.completed at')
  | .EXECUTION_REQUESTED, .FAILURE => (.ok (), c.failed at' reason)
  -- unknown or timeout: no money moves until reconciled
  | .EXECUTION_REQUESTED, .UNKNOWN => (.ok (), c.reconciling reason)
  | _, _ => (.error (c.invalidTransition "applyExecutionResult"), c)

end Conversion

/-! ### The execution event -/

/-- The payload of the event: strings, so that it survives JSON as it is. -/
@[ext] structure ConversionExecutionRequestedPayload where
  eventId : String
  eventType : String
  conversionId : String
  userId : String
  sourceAsset : String
  targetAsset : String
  sourceAmount : String
  targetAmount : String
  occurredAt : String
  deriving DecidableEq

/-- An outbox message. Its type is always `ConversionExecutionRequested`. -/
@[ext] structure OutboxMessage where
  id : String
  eventType : String
  aggregateId : String
  payload : ConversionExecutionRequestedPayload
  createdAt : Date
  publishedAt : Option Date
  deriving DecidableEq

/-- The only way to make a message: its id is that of its event, and its aggregate is the
conversion. -/
def OutboxMessage.createConversionExecutionRequested (id : String)
    (payload : ConversionExecutionRequestedPayload) (createdAt : Date) :
    Except JsError OutboxMessage :=
  if payload.eventType ≠ "ConversionExecutionRequested" then
    .error (.error "Invalid outbox event type")
  else if payload.eventId ≠ id then
    .error (.error "Outbox message id must equal payload.eventId")
  else .ok ⟨id, "ConversionExecutionRequested", payload.conversionId, payload, createdAt, none⟩

end WalletConversion
