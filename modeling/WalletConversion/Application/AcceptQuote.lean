import WalletConversion.Database.Repositories

/-!
# Creating and accepting quotes

`CreateQuoteUseCase.execute` prices a request and saves the quote. `AcceptQuoteUseCase.execute` is
the accept transaction: it claims the idempotency key, accepts the quote, reserves the funds, and
writes the conversion, the outbox message and the stored response in one unit of work.

Whatever a call does not compute itself — clock readings, generated ids, the time of the database,
how often it polls before its deadline — is an argument.
-/

namespace WalletConversion

open Transactional

/-- The result of `randomUUID()`: an identifier, which the database stores. -/
structure Uuid extends Identifier where
  storable_value : storable value = true
  deriving DecidableEq

instance : Coe Uuid Identifier := ⟨Uuid.toIdentifier⟩

section UseCases

variable (env : Platform)

/-! ### Create quote -/

/-- A request for a quote, in the texts of its body. -/
structure CreateQuoteCommand where
  userId : String
  sourceAsset : String
  targetAsset : String
  sourceAmount : String

namespace CreateQuoteUseCase

/-- The part inside the input-error boundary. -/
def build (command : CreateQuoteCommand) (generatedId : Uuid) (now : Date) :
    Except JsError Quote := do
  let userId ← UserId.of command.userId
  let sourceAsset ← Asset.of env.registry command.sourceAsset
  let targetAsset ← Asset.of env.registry command.targetAsset
  let sourceAmount ← Money.of env.toDecimalJs command.sourceAmount sourceAsset
  let rate ← FakePricingProvider.getRate env.toDecimalJs sourceAsset targetAsset
  let id ← QuoteId.of generatedId.value
  Quote.create id userId sourceAmount rate now none

/-- Build the quote and save it. Every error of the building is the fault of the request, with the
text of the error; an error of the saving is not caught. -/
def execute (command : CreateQuoteCommand) (generatedId : Uuid) (now : Date) : App Quote :=
  match build env command generatedId now with
  | .error e => attempt (.error ⟨.InvalidQuoteRequestError, e.message⟩)
  | .ok quote => do
    PrismaQuoteRepository.save quote
    return quote

end CreateQuoteUseCase

/-! ### Accept quote -/

/-- A request to accept a quote, with the key of its header. -/
structure AcceptQuoteCommand where
  quoteId : String
  idempotencyKey : String

/-- What the client is to be told: a new response, a stored one, or an error with its status. -/
inductive AcceptQuoteResult where
  /-- Answered with status 201. -/
  | created (body : AcceptQuoteSuccessBody)
  | replay (statusCode : ℕ) (body : AcceptQuoteSuccessBody)
  | error (statusCode : ℕ) (errorCode message : String)
  deriving DecidableEq

/-- What an accept draws from its surroundings. -/
structure AcceptInputs where
  now : Date
  conversionId : Uuid
  eventId : Uuid
  /-- `NOW()` of the database. -/
  databaseNow : Date
  /-- How often the loser of a race reads the record before its deadline. -/
  polls : ℕ

namespace AcceptQuoteUseCase

/-- The scope of the idempotency keys of the route. -/
def ACCEPT_QUOTE_SCOPE : String := "POST:/quotes/:quoteId/accept"

/-- The digest of what a request asks for. It has no body, so this is its quote. -/
def requestHash (quoteId : String) : String := env.sha256Hex quoteId

/-- `/^[\x21-\x7e]+$/`. -/
def isVisibleAscii (key : String) : Bool :=
  key.toList ≠ [] ∧ key.toList.all fun c ↦ 0x21 ≤ c.toNat && c.toNat ≤ 0x7e

/-- Abort the transaction and answer with an error. -/
def abort {α : Type} (statusCode : ℕ) (errorCode message : String) : App α :=
  Prog.raise (.acceptAborted statusCode errorCode message)

/-- The key is taken: answer from the record. -/
def existing (key hash : String) : App AcceptQuoteResult := do
  match ← PrismaIdempotencyRepository.find ACCEPT_QUOTE_SCOPE key with
  | .missing =>
    return .error 409 "IDEMPOTENCY_RACE" "Idempotency key conflict; retry the request"
  | .inProgress requestHash =>
    if requestHash ≠ hash then
      return .error 409 "IDEMPOTENCY_KEY_REUSE"
        "Idempotency-Key was already used with a different request fingerprint"
    else
      return .error 409 "IDEMPOTENCY_IN_PROGRESS"
        "A request with this Idempotency-Key is already in progress"
  | .completed requestHash responseStatus responseBody _ =>
    if requestHash ≠ hash then
      return .error 409 "IDEMPOTENCY_KEY_REUSE"
        "Idempotency-Key was already used with a different request fingerprint"
    else return .replay responseStatus responseBody

/-- The response of a successful accept. -/
def successBody (quote : Quote) (conversion : Conversion) : AcceptQuoteSuccessBody where
  conversionId := conversion.id.value
  quoteId := quote.id.value
  userId := quote.userId.value
  status := conversion.status.text
  sourceAsset := quote.sourceAsset.code
  targetAsset := quote.targetAsset.code
  sourceAmount := trimTrailingZeros quote.sourceAmount.toString
  targetAmount := trimTrailingZeros quote.targetAmount.toString
  createdAt := conversion.createdAt.timestampText

/-- The payload of the execution event. -/
def eventPayload (quote : Quote) (conversion : Conversion) (eventId : String) (now : Date) :
    ConversionExecutionRequestedPayload where
  eventId := eventId
  eventType := "ConversionExecutionRequested"
  conversionId := conversion.id.value
  userId := quote.userId.value
  sourceAsset := quote.sourceAsset.code
  targetAsset := quote.targetAsset.code
  sourceAmount := trimTrailingZeros quote.sourceAmount.toString
  targetAmount := trimTrailingZeros quote.targetAmount.toString
  occurredAt := now.timestampText

/-- The funds are reserved: bind the event, write the outbox message, and store the response. -/
def finish (key : String) (quote : Quote) (conversion : Conversion) (inputs : AcceptInputs) :
    App AcceptQuoteResult := do
  let conversion ← attempt (Conversion.markFundsReserved.call conversion)
  let conversion ← attempt ((Conversion.bindExecutionEvent inputs.eventId.value).call conversion)
  PrismaConversionRepository.save conversion
  let outbox ← attempt (OutboxMessage.createConversionExecutionRequested inputs.eventId.value
    (eventPayload quote conversion inputs.eventId.value inputs.now) inputs.now)
  PrismaOutboxRepository.enqueue outbox
  let body := successBody quote conversion
  PrismaIdempotencyRepository.complete ACCEPT_QUOTE_SCOPE key 201 body conversion.id.value
  return .created body

/-- The quote is accepted in memory: accept it in the database and reserve the funds. -/
def convert (key : String) (quote : Quote) (inputs : AcceptInputs) : App AcceptQuoteResult := do
  match ← PrismaQuoteRepository.saveAccepted env quote inputs.now with
  | none =>
    abort 409 "QUOTE_ACCEPT_CONFLICT"
      "Quote could not be accepted (expired or already accepted concurrently)"
  | some _ =>
    let conversionId ← attempt (ConversionId.of inputs.conversionId.value)
    let conversion ← attempt (Conversion.create conversionId quote.id quote.userId
      quote.sourceAmount quote.targetAmount inputs.now)
    PrismaConversionRepository.save conversion
    match ← PrismaWalletRepository.reserve env quote.userId quote.sourceAsset
        quote.sourceAmount with
    | .insufficientOrConflict =>
      abort 409 "INSUFFICIENT_AVAILABLE_BALANCE"
        (s!"Insufficient available {quote.sourceAsset.code} balance to reserve " ++
          trimTrailingZeros quote.sourceAmount.toString)
    | .reserved _ => finish key quote conversion inputs

/-- The key is claimed: accept the quote. -/
def claimed (quoteIdValue key : String) (inputs : AcceptInputs) : App AcceptQuoteResult := do
  let quoteId ← attempt (QuoteId.of quoteIdValue)
  match ← PrismaQuoteRepository.findById env quoteId with
  | none => abort 404 "QUOTE_NOT_FOUND" s!"Quote {quoteIdValue} was not found"
  | some quote =>
    match (Quote.accept inputs.now).call quote with
    | .error e =>
      match e.name with
      | .QuoteExpiredError => abort 409 "QUOTE_EXPIRED" e.message
      | .QuoteAlreadyAcceptedError => abort 409 "QUOTE_ALREADY_ACCEPTED" e.message
      | _ => attempt (.error e)
    | .ok quote => convert env key quote inputs

/-- The body of the accept transaction. -/
def work (quoteIdValue key hash : String) (inputs : AcceptInputs) : App AcceptQuoteResult := do
  if ← PrismaIdempotencyRepository.tryBegin ACCEPT_QUOTE_SCOPE key hash inputs.databaseNow then
    claimed env quoteIdValue key inputs
  else existing key hash

/-- Poll the record outside any transaction until it is completed, at most so many times. -/
def waitForIdempotentCompletion (key hash : String) : ℕ → App (Option AcceptQuoteResult)
  | 0 => return none
  | polls + 1 => do
    match ← PrismaIdempotencyRepository.find ACCEPT_QUOTE_SCOPE key with
    | .completed requestHash responseStatus responseBody _ =>
      if requestHash ≠ hash then return none
      else return some (.replay responseStatus responseBody)
    | .missing => return none
    | .inProgress _ => waitForIdempotentCompletion key hash polls

/-- The unit of work and, for the loser of a race, the wait after it. -/
def run (quoteIdValue key hash : String) (inputs : AcceptInputs) : App AcceptQuoteResult := do
  let result ← Prog.transaction (work env quoteIdValue key hash inputs)
  match result with
  | .error _ errorCode _ =>
    if errorCode = "IDEMPOTENCY_IN_PROGRESS" then
      match ← waitForIdempotentCompletion key hash inputs.polls with
      | some replay => return replay
      | none => return result
    else return result
  | _ => return result

/-- An aborted accept becomes its error result; every other error is rethrown. -/
def caught : Thrown → App AcceptQuoteResult
  | .acceptAborted statusCode errorCode message => return .error statusCode errorCode message
  | .error e => Prog.raise (.error e)

/-- Why a command is refused before the database is asked. -/
def refused (command : AcceptQuoteCommand) : Option AcceptQuoteResult :=
  let quoteIdValue := trim command.quoteId
  let idempotencyKey := trim command.idempotencyKey
  if quoteIdValue = "" ∨ 128 < utf16Length quoteIdValue then
    some (.error 400 "INVALID_QUOTE_ID" "quoteId must contain between 1 and 128 characters")
  else if idempotencyKey = "" then
    some (.error 400 "MISSING_IDEMPOTENCY_KEY" "Idempotency-Key header is required")
  else if 255 < utf16Length idempotencyKey ∨ isVisibleAscii idempotencyKey = false then
    some (.error 400 "INVALID_IDEMPOTENCY_KEY"
      "Idempotency-Key must contain at most 255 visible ASCII characters")
  else none

/-- Check the request, accept in one transaction, and turn an abort of it into its answer. -/
def execute (command : AcceptQuoteCommand) (inputs : AcceptInputs) : App AcceptQuoteResult :=
  match refused command with
  | some result => return result
  | none =>
    let quoteIdValue := trim command.quoteId
    Prog.tryCatch
      (run env quoteIdValue (trim command.idempotencyKey) (requestHash env quoteIdValue) inputs)
      caught

end AcceptQuoteUseCase

end UseCases

end WalletConversion
