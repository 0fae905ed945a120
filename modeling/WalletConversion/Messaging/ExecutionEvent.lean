import WalletConversion.Conversion.Conversion
import WalletConversion.Foundation.Json
import WalletConversion.Messaging.Message

/-!
# The execution event on the wire

`RabbitMqConnection.publish` sends the payload of an outbox row as the bytes of its JSON text, and
`ExecutionConsumerService.handleMessage` reads it again. Every payload comes back as it was
(`received_publication`), and every retry and the dead letter of a message carry the same bytes
(`received_of_copyOf`).

The type annotation of `handleMessage` promises nine strings, and nothing checks it. The model
speaks of messages that keep the promise, as all messages of the application do. Of other messages
it says nothing: `received` has no payload for them, while the code goes on, and executes for
instance an event whose amounts or time are JSON numbers.
-/

namespace WalletConversion

namespace ConversionExecutionRequestedPayload

/-- The JSON value of a payload. The column is `jsonb`, which orders members by the length of their
names. -/
def toJson (payload : ConversionExecutionRequestedPayload) : Json :=
  .obj
    [("userId".toList, .str payload.userId.toList),
      ("eventId".toList, .str payload.eventId.toList),
      ("eventType".toList, .str payload.eventType.toList),
      ("occurredAt".toList, .str payload.occurredAt.toList),
      ("sourceAsset".toList, .str payload.sourceAsset.toList),
      ("targetAsset".toList, .str payload.targetAsset.toList),
      ("conversionId".toList, .str payload.conversionId.toList),
      ("sourceAmount".toList, .str payload.sourceAmount.toList),
      ("targetAmount".toList, .str payload.targetAmount.toList)]

/-- A member that is a string. -/
def text (name : String) (value : Json) : Option String :=
  match value.field name with
  | some (.str text) => some (.ofList text)
  | _ => none

/-- The payload that a JSON value stands for, if each of its nine members is a string. -/
def ofJson (value : Json) : Option ConversionExecutionRequestedPayload := do
  return {
    eventId := ← text "eventId" value
    eventType := ← text "eventType" value
    conversionId := ← text "conversionId" value
    userId := ← text "userId" value
    sourceAsset := ← text "sourceAsset" value
    targetAsset := ← text "targetAsset" value
    sourceAmount := ← text "sourceAmount" value
    targetAmount := ← text "targetAmount" value
    occurredAt := ← text "occurredAt" value }

private theorem text_of_field {name t : String} {value : Json}
    (h : value.field name = some (.str t.toList)) :
    ConversionExecutionRequestedPayload.text name value = some t := by
  simp [ConversionExecutionRequestedPayload.text, h]

theorem ofJson_toJson (payload : ConversionExecutionRequestedPayload) :
    ofJson payload.toJson = some payload := by
  unfold ofJson
  rw [text_of_field (t := payload.eventId) rfl, text_of_field (t := payload.eventType) rfl,
    text_of_field (t := payload.conversionId) rfl, text_of_field (t := payload.userId) rfl,
    text_of_field (t := payload.sourceAsset) rfl, text_of_field (t := payload.targetAsset) rfl,
    text_of_field (t := payload.sourceAmount) rfl,
    text_of_field (t := payload.targetAmount) rfl,
    text_of_field (t := payload.occurredAt) rfl]
  rfl

end ConversionExecutionRequestedPayload

open ConversionExecutionRequestedPayload

/-! ### Bytes -/

/-- `Buffer.from(text)`. -/
def bufferFrom (text : String) : List UInt8 := text.toUTF8.data.toList

/-- `buffer.toString('utf8')`. What it makes of bytes that are no UTF-8 text is left open. -/
def bufferText (lossy : List UInt8 → String) (bytes : List UInt8) : String :=
  (String.fromUTF8? ⟨bytes.toArray⟩).getD (lossy bytes)

theorem bufferText_bufferFrom (lossy : List UInt8 → String) (text : String) :
    bufferText lossy (bufferFrom text) = text := by
  have hvalid : text.toByteArray.IsValidUTF8 := text.isValidUTF8
  have hdecoded : String.fromUTF8? text.toByteArray = some text := dif_pos hvalid
  rw [bufferText, bufferFrom, Array.toArray_toList, String.toUTF8_eq_toByteArray, hdecoded,
    Option.getD_some]

/-! ### Publishing and receiving -/

namespace RabbitMqConnection

/-- What `publish(routingKey, payload)` hands to the channel. -/
def publication (routingKey : String) (payload : ConversionExecutionRequestedPayload) :
    Publication where
  routingKey := routingKey
  body := bufferFrom payload.toJson.stringify
  options :=
    { contentType := "application/json"
      headers := none
      deliveryMode := 2
      messageId := some payload.eventId
      correlationId := some payload.eventId }

end RabbitMqConnection

namespace ExecutionConsumerService

/-- The payload with which `handleMessage` calls the use case, if it does not throw before, for a
message of nine strings. -/
def received (lossy : List UInt8 → String) (content : List UInt8) :
    Option ConversionExecutionRequestedPayload := do
  let payload ← ofJson (← Json.parse (bufferText lossy content))
  if payload.eventType = "ConversionExecutionRequested" ∧ payload.eventId ≠ "" then return payload
  else none

theorem received_body (lossy : List UInt8 → String) (routingKey : String)
    (payload : ConversionExecutionRequestedPayload) :
    received lossy (RabbitMqConnection.publication routingKey payload).message.content =
      if payload.eventType = "ConversionExecutionRequested" ∧ payload.eventId ≠ "" then some payload
      else none := by
  have hbody : (RabbitMqConnection.publication routingKey payload).message.content =
      bufferFrom payload.toJson.stringify := rfl
  rw [received, hbody, bufferText_bufferFrom, Json.parse_stringify]
  simp only [Option.bind_eq_bind, Option.bind_some, ofJson_toJson]
  rfl

/-- **What is published is received.** The use case is called with the payload that was published,
if it is the payload of an event. -/
theorem received_publication (lossy : List UInt8 → String) (routingKey : String)
    {payload : ConversionExecutionRequestedPayload}
    (htype : payload.eventType = "ConversionExecutionRequested") (hid : payload.eventId ≠ "") :
    received lossy (RabbitMqConnection.publication routingKey payload).message.content =
      some payload := by
  rw [received_body, if_pos ⟨htype, hid⟩]

/-- Nothing else is received of it. -/
theorem eq_of_received {lossy : List UInt8 → String} {routingKey : String}
    {payload payload' : ConversionExecutionRequestedPayload}
    (h : received lossy (RabbitMqConnection.publication routingKey payload).message.content =
      some payload') : payload' = payload := by
  rw [received_body] at h
  split at h
  · exact (Option.some.inj h).symm
  · cases h

/-- A copy of a message is received as the message is. -/
theorem received_of_copyOf (lossy : List UInt8 → String) {m m' : Message} (h : m'.CopyOf m) :
    received lossy m'.content = received lossy m.content := by
  rw [h.content]

end ExecutionConsumerService

end WalletConversion
