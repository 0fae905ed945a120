import WalletConversion.Application.AcceptQuote
import WalletConversion.Foundation.Json
import WalletConversion.Foundation.Pattern

/-!
# Errors over HTTP

A handler that throws is answered with an error envelope (`ApiExceptionFilter`): the status and the
error code of an `HttpException`, and a fixed text for everything else. The envelope carries the
correlation id of the request, which is a safe value from its header or a new one
(`correlationIdFromHeader`).

`HttpStatus[statusCode]`, the name the framework has for a status, is a parameter.
-/

namespace WalletConversion

/-! ### Exceptions -/

/-- A string. -/
def Json.text? : Json → Option String
  | .str text => some (String.ofList text)
  | _ => none

/-- The member of an object, if it is a string. -/
def Json.textAt (name : String) (value : Json) : Option String := (value.field name).bind Json.text?

/-- `{ errorCode, message }`. -/
def errorBody (errorCode message : String) : Json :=
  .obj [("errorCode".toList, .str errorCode.toList), ("message".toList, .str message.toList)]

@[simp] theorem textAt_errorCode (errorCode message : String) :
    (errorBody errorCode message).textAt "errorCode" = some errorCode := by
  have hfield : (errorBody errorCode message).field "errorCode" =
      some (.str errorCode.toList) := rfl
  rw [Json.textAt, hfield, Option.bind_some, Json.text?, String.ofList_toList]

@[simp] theorem field_message (errorCode message : String) :
    (errorBody errorCode message).field "message" = some (.str message.toList) := rfl

/-- An `HttpException`: its status, the object it was made from, and its message. -/
structure HttpException where
  status : ℕ
  response : Json
  message : String

namespace HttpException

/-- `new C(response, status)`, for a class with this name in words. -/
def of (className : String) (response : Json) (status : ℕ) : HttpException where
  status := status
  response := response
  message := (response.text? <|> response.textAt "message").getD className

/-- `BadRequestException`, 400. -/
def badRequest (response : Json) : HttpException := .of "Bad Request Exception" response 400

/-- `NotFoundException`, 404. -/
def notFound (response : Json) : HttpException := .of "Not Found Exception" response 404

/-- `ConflictException`, 409. -/
def conflict (response : Json) : HttpException := .of "Conflict Exception" response 409

/-- `InternalServerErrorException`, 500. -/
def internalServerError (response : Json) : HttpException :=
  .of "Internal Server Error Exception" response 500

end HttpException

/-- What a handler throws. -/
inductive Exception where
  | http (e : HttpException)
  | other (x : Thrown)

/-! ### The filter -/

/-- The message of an envelope: the validation pipe reports several texts at once. -/
inductive ErrorMessage where
  | text (message : String)
  | texts (messages : List String)
  deriving DecidableEq

/-- The body of every error response. -/
structure ErrorEnvelope where
  statusCode : ℕ
  errorCode : String
  message : ErrorMessage
  correlationId : Option String
  deriving DecidableEq

namespace ApiExceptionFilter

section

variable (statusName : ℕ → Option String)

/-- `HttpStatus[statusCode] ?? 'HTTP_ERROR'`, for an exception that names no code. -/
def defaultErrorCode (statusCode : ℕ) : String := (statusName statusCode).getD "HTTP_ERROR"

/-- A message is a string or an array of strings. -/
def rawMessage : Json → Option ErrorMessage
  | .str text => some (.text (String.ofList text))
  | .arr elements => (elements.mapM Json.text?).map .texts
  | _ => none

/-- The message of the response object if it has one of the two shapes, otherwise a text response
itself or the message of the exception. -/
def messageOf (e : HttpException) : ErrorMessage :=
  ((e.response.field "message").bind rawMessage).getD <|
    .text (e.response.text?.getD (if e.message = "" then "Request failed" else e.message))

/-- `Array.isArray(message)`. -/
def isArray : ErrorMessage → Bool
  | .text _ => false
  | .texts _ => true

/-- The code of the response object, otherwise one for the status. A list of messages under 400
comes from the validation pipe. -/
def errorCodeOf (e : HttpException) : String :=
  (e.response.textAt "errorCode").getD <|
    if e.status = 400 ∧ isArray (messageOf e) then "VALIDATION_ERROR"
    else defaultErrorCode statusName e.status

/-- What the filter answers. An exception that is not an `HttpException` is answered with a fixed
text, so that nothing of it reaches the client. An empty request id counts as none. -/
def toEnvelope (requestId : Option String) : Exception → ErrorEnvelope
  | .other _ =>
    { statusCode := 500
      errorCode := "INTERNAL_SERVER_ERROR"
      message := .text "Internal server error"
      correlationId := requestId.filter (· ≠ "") }
  | .http e =>
    { statusCode := e.status
      errorCode := errorCodeOf statusName e
      message := messageOf e
      correlationId := requestId.filter (· ≠ "") }

end

/-- An exception with an error body is answered with its status, its code and its message. -/
theorem toEnvelope_errorBody (statusName : ℕ → Option String) (requestId : Option String)
    (className errorCode message : String) (status : ℕ) :
    toEnvelope statusName requestId (.http (.of className (errorBody errorCode message) status)) =
      ⟨status, errorCode, .text message, requestId.filter (· ≠ "")⟩ := by
  have hmessage : messageOf (.of className (errorBody errorCode message) status) =
      .text message := by
    simp [messageOf, HttpException.of, rawMessage]
  have hcode : errorCodeOf statusName (.of className (errorBody errorCode message) status) =
      errorCode := by
    simp [errorCodeOf, HttpException.of]
  rw [toEnvelope, hmessage, hcode]
  rfl

end ApiExceptionFilter

/-! ### Responses -/

/-- What the client gets: the body of a handler, or an error envelope. -/
inductive HttpResponse (β : Type) where
  | success (statusCode : ℕ) (body : β)
  | failure (envelope : ErrorEnvelope)

/-- The status on the wire. -/
def HttpResponse.statusCode {β : Type} : HttpResponse β → ℕ
  | .success statusCode _ => statusCode
  | .failure envelope => envelope.statusCode

/-- Answer with the status of the handler, or by the filter. -/
def respond {β : Type} (statusName : ℕ → Option String) (requestId : Option String)
    (statusCode : ℕ) : Except Exception β → HttpResponse β
  | .ok body => .success statusCode body
  | .error e => .failure (ApiExceptionFilter.toEnvelope statusName requestId e)

namespace HttpMetricsInterceptor

/-- The label `status_code` of a request, from the status that the handler has set. -/
def observedStatus {β : Type} (handlerStatus : ℕ) : Except Exception β → ℕ
  | .ok _ => if handlerStatus = 0 then 500 else handlerStatus
  | .error (.http e) => e.status
  | .error (.other _) => 500

/-- **The label is the status on the wire.** -/
theorem observedStatus_eq {β : Type} (statusName : ℕ → Option String) (requestId : Option String)
    {handlerStatus : ℕ} (h : handlerStatus ≠ 0) (result : Except Exception β) :
    observedStatus handlerStatus result =
      (respond statusName requestId handlerStatus result).statusCode := by
  rcases result with (e | x) | body
  · rfl
  · rfl
  · exact if_neg h

end HttpMetricsInterceptor

/-! ### Correlation ids -/

/-- `[A-Za-z0-9._:-]`. -/
def isCorrelationChar (c : Char) : Bool := c.isAlphanum ∨ c ∈ ['.', '_', ':', '-']

/-- `/^[A-Za-z0-9][A-Za-z0-9._:-]{0,127}$/`. -/
def SAFE_CORRELATION_ID : Pattern :=
  .seq (.one Char.isAlphanum) <| .seq (.chars isCorrelationChar 0 (some 127)) .ending

/-- The correlation id of a request, from the values of its header. -/
def correlationIdFromHeader (values : List String) (generated : Uuid) : String :=
  match values.head?.map trim with
  | none => generated.value
  | some candidate =>
    if candidate ≠ "" ∧ SAFE_CORRELATION_ID.test candidate = true then candidate
    else generated.value

/-- Which texts are safe: at most 128 characters of a small alphabet, the first a letter or a
digit. -/
theorem test_SAFE_CORRELATION_ID {text : String} :
    SAFE_CORRELATION_ID.test text = true ↔ ∃ c cs, text.toList = c :: cs ∧ c.isAlphanum = true ∧
      (∀ d ∈ cs, isCorrelationChar d = true) ∧ cs.length ≤ 127 := by
  rw [Pattern.test_iff]
  simp only [SAFE_CORRELATION_ID, Pattern.mem_rests_seq, Pattern.mem_rests_one,
    Pattern.mem_rests_chars,
    Pattern.mem_rests_ending]
  constructor
  · rintro ⟨_, _, ⟨c, htext, hc⟩, _, ⟨cs, rfl, hcs, -, hmost⟩, rfl, -⟩
    rw [List.append_nil] at htext
    exact ⟨c, cs, htext, hc, hcs, hmost 127 rfl⟩
  · rintro ⟨c, cs, htext, hc, hcs, hmost⟩
    refine ⟨[], cs, ⟨c, htext, hc⟩, [],
      ⟨cs, (List.append_nil cs).symm, hcs, Nat.zero_le _, ?_⟩, rfl, rfl⟩
    rintro _ ⟨⟩
    exact hmost

/-- **A correlation id is generated or safe**, whatever the client sends: no blank, quote or line
break of a header gets into the logs. -/
theorem correlationIdFromHeader_safe (values : List String) (generated : Uuid) :
    correlationIdFromHeader values generated = generated.value ∨
      ∃ c cs, (correlationIdFromHeader values generated).toList = c :: cs ∧ c.isAlphanum = true ∧
        (∀ d ∈ cs, isCorrelationChar d = true) ∧ cs.length ≤ 127 := by
  unfold correlationIdFromHeader
  split
  · exact .inl rfl
  · split
    · rename_i hsafe
      exact .inr (test_SAFE_CORRELATION_ID.1 hsafe.2)
    · exact .inl rfl

end WalletConversion
