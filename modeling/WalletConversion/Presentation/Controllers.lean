import WalletConversion.Application.GetConversion
import WalletConversion.Presentation.CreateQuoteDto
import WalletConversion.Presentation.Http

/-!
# The controllers

The handlers of the three routes: what each makes of the result of its use case, and which counters
it raises on the way. A path parameter has to be a UUID of version 4; what is one is the decision of
the framework, and a parameter here.
-/

namespace WalletConversion

/-- A counter that a handler raises. -/
inductive Metric where
  | quoteCreatedTotal
  | quoteAcceptanceTotal
  | quoteAcceptanceFailedTotal (errorCode : String)
  | walletReservationConflictTotal
  deriving DecidableEq

/-- What a handler has done: the counters it has raised, and its result. -/
structure Handled (β : Type) where
  metrics : List Metric
  result : Except Exception β

/-- `ParseUUIDPipe` with an error of its own. -/
def parseUuid (isUuid : String → Bool) (errorCode message value : String) :
    Except Exception String :=
  if isUuid value = true then .ok value
  else .error (.http (.badRequest (errorBody errorCode message)))

/-- An exception of a use case passes through its handler. -/
def rethrown {β : Type} (x : Thrown) : Handled β := ⟨[], .error (.other x)⟩

/-! ### Accepting a quote -/

namespace AcceptQuoteSuccessBody

/-- The body as it is sent and stored. -/
def toJson (body : AcceptQuoteSuccessBody) : Json :=
  .obj
    [("conversionId".toList, .str body.conversionId.toList),
      ("quoteId".toList, .str body.quoteId.toList),
      ("userId".toList, .str body.userId.toList),
      ("status".toList, .str body.status.toList),
      ("sourceAsset".toList, .str body.sourceAsset.toList),
      ("targetAsset".toList, .str body.targetAsset.toList),
      ("sourceAmount".toList, .str body.sourceAmount.toList),
      ("targetAmount".toList, .str body.targetAmount.toList),
      ("createdAt".toList, .str body.createdAt.toList)]

end AcceptQuoteSuccessBody

namespace AcceptQuoteController

/-- The check of the path parameter, before anything else. -/
def QUOTE_ID_PIPE (isUuid : String → Bool) : String → Except Exception String :=
  parseUuid isUuid "INVALID_QUOTE_ID" "quoteId must be a valid UUID"

/-- The nine members that a stored response must have to be replayed. -/
def isAcceptQuoteSuccessBody (value : Json) : Bool :=
  ["conversionId", "quoteId", "userId", "status", "sourceAsset", "targetAsset", "sourceAmount",
    "targetAmount", "createdAt"].all fun key ↦ (value.textAt key).isSome

/-- What the handler makes of the result of the use case. -/
def handle : AcceptQuoteResult → Handled AcceptQuoteSuccessBody
  | .created body => ⟨[.quoteAcceptanceTotal], .ok body⟩
  | .replay statusCode body =>
    if 200 ≤ statusCode ∧ statusCode < 300 then
      if isAcceptQuoteSuccessBody body.toJson = false then
        ⟨[], .error (.http (.internalServerError
          (errorBody "INVALID_IDEMPOTENCY_RESPONSE" "Stored idempotency response is invalid")))⟩
      else ⟨[.quoteAcceptanceTotal], .ok body⟩
    else ⟨[], .error (.http (.of "Http Exception" body.toJson statusCode))⟩
  | .error statusCode errorCode message =>
    ⟨.quoteAcceptanceFailedTotal errorCode ::
        if errorCode = "INSUFFICIENT_AVAILABLE_BALANCE" then
          [.walletReservationConflictTotal] else [],
      .error (.http (
        if statusCode = 404 then .notFound (errorBody errorCode message)
        else if statusCode = 409 then .conflict (errorBody errorCode message)
        else .of "Http Exception" (errorBody errorCode message) statusCode))⟩

/-- `POST /quotes/:quoteId/accept`. -/
def accept (env : Platform) (isUuid : String → Bool) (quoteId : String)
    (idempotencyKey : Option String) (inputs : AcceptInputs) :
    App (Handled AcceptQuoteSuccessBody) :=
  match QUOTE_ID_PIPE isUuid quoteId with
  | .error e => return ⟨[], .error e⟩
  | .ok quoteId =>
    (AcceptQuoteUseCase.execute env ⟨quoteId, idempotencyKey.getD ""⟩ inputs).handle
      (fun result ↦ return handle result) fun x ↦ return rethrown x

/-- What the handler makes of a use case that has ended. -/
def handled : Except Thrown AcceptQuoteResult → Handled AcceptQuoteSuccessBody
  | .ok result => handle result
  | .error x => rethrown x

/-- The route refuses an id that is no UUID, and the database is not asked. -/
theorem accept_of_not_uuid {env : Platform} {isUuid : String → Bool} {quoteId : String}
    (h : isUuid quoteId = false) (idempotencyKey : Option String) (inputs : AcceptInputs) :
    accept env isUuid quoteId idempotencyKey inputs = .ret ⟨[], .error (.http (.badRequest
      (errorBody "INVALID_QUOTE_ID" "quoteId must be a valid UUID")))⟩ := by
  have hpipe : QUOTE_ID_PIPE isUuid quoteId = .error (.http (.badRequest
      (errorBody "INVALID_QUOTE_ID" "quoteId must be a valid UUID"))) :=
    if_neg (by simp [h])
  rw [accept, hpipe]
  rfl

/-- Otherwise the route is its use case, of whose ending it makes what `handled` says. A missing
header counts as an empty key. -/
theorem accept_of_uuid {env : Platform} {isUuid : String → Bool} {quoteId : String}
    (h : isUuid quoteId = true) (idempotencyKey : Option String) (inputs : AcceptInputs) :
    accept env isUuid quoteId idempotencyKey inputs =
      (AcceptQuoteUseCase.execute env ⟨quoteId, idempotencyKey.getD ""⟩ inputs).handle
        (fun result ↦ .ret (handled (.ok result))) fun x ↦ .ret (handled (.error x)) := by
  have hpipe : QUOTE_ID_PIPE isUuid quoteId = .ok quoteId := if_pos h
  rw [accept, hpipe]
  rfl

/-- The response to an accept whose use case has ended. -/
def response (statusName : ℕ → Option String) (requestId : Option String)
    (ended : Except Thrown AcceptQuoteResult) : HttpResponse AcceptQuoteSuccessBody :=
  respond statusName requestId 201 (handled ended).result

/-- Every response that is stored is one that may be replayed. -/
theorem isAcceptQuoteSuccessBody_toJson (body : AcceptQuoteSuccessBody) :
    isAcceptQuoteSuccessBody body.toJson = true := by
  simp only [isAcceptQuoteSuccessBody, List.all_cons, List.all_nil, Bool.and_true]
  rfl

theorem handle_replay (body : AcceptQuoteSuccessBody) :
    handle (.replay 201 body) = ⟨[.quoteAcceptanceTotal], .ok body⟩ := by
  rw [handle, if_pos ⟨by decide, by decide⟩, isAcceptQuoteSuccessBody_toJson, if_neg (by decide)]

/-- A refusal reaches the client with its status, its code and its message. -/
theorem response_error (statusName : ℕ → Option String) (requestId : Option String)
    (statusCode : ℕ) (errorCode message : String) :
    response statusName requestId (.ok (.error statusCode errorCode message)) =
      .failure ⟨statusCode, errorCode, .text message, requestId.filter (· ≠ "")⟩ := by
  have hexception : (if statusCode = 404 then HttpException.notFound (errorBody errorCode message)
      else if statusCode = 409 then .conflict (errorBody errorCode message)
      else .of "Http Exception" (errorBody errorCode message) statusCode) =
      .of "Http Exception" (errorBody errorCode message) statusCode := by
    split_ifs with h h'
    · rw [h]
      rfl
    · rw [h']
      rfl
    · rfl
  simp only [response, handled, handle, respond, hexception,
    ApiExceptionFilter.toEnvelope_errorBody]

end AcceptQuoteController

/-! ### Asking for a conversion -/

namespace ConversionsController

/-- The check of the path parameter. -/
def CONVERSION_ID_PIPE (isUuid : String → Bool) : String → Except Exception String :=
  parseUuid isUuid "INVALID_CONVERSION_ID" "conversionId must be a valid UUID"

/-- What the handler makes of the result of the use case. -/
def handle (conversionId : String) : GetConversionResult → Handled ConversionStatusResponse
  | .found body => ⟨[], .ok body⟩
  | .invalidId message =>
      ⟨[], .error (.http (.badRequest (errorBody "INVALID_CONVERSION_ID" message)))⟩
  | .notFound =>
    ⟨[], .error (.http (.notFound
      (errorBody "CONVERSION_NOT_FOUND" s!"Conversion {conversionId} was not found")))⟩

/-- `GET /conversions/:conversionId`. -/
def getById (env : Platform) (isUuid : String → Bool) (conversionId : String) :
    App (Handled ConversionStatusResponse) :=
  match CONVERSION_ID_PIPE isUuid conversionId with
  | .error e => return ⟨[], .error e⟩
  | .ok conversionId =>
    (GetConversionUseCase.execute env conversionId).handle
      (fun result ↦ return handle conversionId result) fun x ↦ return rethrown x

end ConversionsController

/-! ### Asking for a quote -/

/-- The name of the status in a response. -/
def QuoteStatus.text : QuoteStatus → String
  | .ACTIVE => "ACTIVE"
  | .ACCEPTED => "ACCEPTED"
  | .EXPIRED => "EXPIRED"

/-- The body of the answer to a new quote. -/
structure QuoteResponse where
  quoteId : String
  sourceAsset : String
  targetAsset : String
  sourceAmount : String
  targetAmount : String
  rate : String
  expiresAt : String
  status : String
  deriving DecidableEq

namespace QuotesController

/-- The terms of the quote. Its amounts lose their trailing zeros, its rate does not. -/
def toResponse (quote : Quote) : QuoteResponse where
  quoteId := quote.id.value
  sourceAsset := quote.sourceAsset.code
  targetAsset := quote.targetAsset.code
  sourceAmount := trimTrailingZeros quote.sourceAmount.toString
  targetAmount := trimTrailingZeros quote.targetAmount.toString
  rate := quote.rate.toString
  expiresAt := quote.expiresAt.timestampText
  status := (quote.statusAt quote.createdAt).text

/-- What the handler makes of a use case that has ended. -/
def handled : Except Thrown Quote → Handled QuoteResponse
  | .ok quote => ⟨[.quoteCreatedTotal], .ok (toResponse quote)⟩
  | .error (.error e) =>
    if e.name = .InvalidQuoteRequestError then
      ⟨[], .error (.http (.badRequest (errorBody "INVALID_QUOTE_REQUEST" e.message)))⟩
    else rethrown (.error e)
  | .error x => rethrown x

/-- `POST /quotes`, with a body that has been validated. -/
def create (env : Platform) (body : CreateQuoteDto) (generatedId : Uuid) (now : Date) :
    App (Handled QuoteResponse) :=
  (CreateQuoteUseCase.execute env body.command generatedId now).handle
    (fun quote ↦ return handled (.ok quote)) fun x ↦ return handled (.error x)

end QuotesController

end WalletConversion
