import WalletConversion.Foundation.FiniteTable
import Mathlib.Algebra.Order.Ring.Rat
import Mathlib.Data.Nat.Cast.Order.Ring

/-!
# Messages of the broker

A message is what `consume` hands to its callback: a body and properties that the code treats as
`unknown`. A copy of it is published with the same body and identity; its headers are those of the
message, but for the three that keep the books of the retries.
-/

namespace WalletConversion

/-! ### Values of headers -/

/-- A JavaScript number. -/
inductive JsNumber where
  | finite (value : ℚ)
  | infinity (negative : Bool)
  | nan
  deriving DecidableEq

/-- `Number.MAX_SAFE_INTEGER`. -/
def MAX_SAFE_INTEGER : ℕ := 2 ^ 53 - 1

/-- `Number.isSafeInteger(n)`. -/
def JsNumber.isSafeInteger : JsNumber → Bool
  | .finite value => value.den = 1 ∧ value.num.natAbs ≤ MAX_SAFE_INTEGER
  | .infinity _ | .nan => false

/-- The result of `nonNegativeInteger`: any other configuration is refused at the start. -/
abbrev SafeNat := { n : ℕ // n ≤ MAX_SAFE_INTEGER }

/-- A value of a header or a property. -/
inductive HeaderValue where
  | number (value : JsNumber)
  | string (text : String)
  | boolean (value : Bool)
  | null
  /-- A list, a table, a time or a byte string, which nothing looks into. -/
  | object (encoded : List UInt8)
  deriving DecidableEq

/-- The headers by their names. -/
abbrev Headers := Table String HeaderValue

/-! ### Messages -/

/-- What the callback of `consume` is given. -/
structure Message where
  content : List UInt8
  messageId : Option HeaderValue
  correlationId : Option HeaderValue
  /-- Missing if the property is no object. -/
  headers : Option Headers

/-- The options of `channel.publish`. -/
structure PublishOptions where
  contentType : String
  headers : Option Headers
  deliveryMode : ℕ
  messageId : Option String
  correlationId : Option String

/-- One call of `channel.publish` to the exchange of the application. -/
structure Publication where
  routingKey : String
  body : List UInt8
  options : PublishOptions

/-- The message that the broker delivers of a publication. -/
def Publication.message (p : Publication) : Message where
  content := p.body
  messageId := p.options.messageId.map .string
  correlationId := p.options.correlationId.map .string
  headers := p.options.headers

/-- The key of new events and of retries. -/
def CONVERSION_EXECUTION_ROUTING_KEY : String := "conversion.execution.requested"

/-- The key of messages that are given up. -/
def CONVERSION_EXECUTION_DEAD_LETTER_ROUTING_KEY : String :=
  "conversion.execution.requested.dead-letter"

/-- The two queues of the topology. -/
inductive QueueName where
  | execution
  | deadLetter
  deriving DecidableEq

/-- The queue that is bound to a routing key. -/
def boundQueue (routingKey : String) : Option QueueName :=
  if routingKey = CONVERSION_EXECUTION_ROUTING_KEY then some .execution
  else if routingKey = CONVERSION_EXECUTION_DEAD_LETTER_ROUTING_KEY then some .deadLetter
  else none

namespace RabbitMqConnection

/-- `value` if it is a string. -/
def stringOf : Option HeaderValue → Option String
  | some (.string text) => some text
  | _ => none

/-- The headers, none if the property is missing or no object. -/
def messageHeaders (message : Message) : Headers := message.headers.getD ∅

/-- The count a header value stands for. -/
def countOf : Option HeaderValue → ℕ
  | some (.number (.finite value)) =>
    if JsNumber.isSafeInteger (.finite value) = true ∧ 0 ≤ value then value.num.toNat else 0
  | _ => 0

/-- How often the message was retried, by its own account. What is no count is zero. -/
def retryCount (message : Message) : ℕ :=
  countOf ((messageHeaders message).lookup "x-retry-count")

/-- The options of a copy. Of the properties it takes over the two ids, if they are strings. -/
def copyPublishOptions (message : Message) (headers : Headers) : PublishOptions where
  contentType := "application/json"
  headers := some headers
  deliveryMode := 2
  messageId := stringOf message.messageId
  correlationId := stringOf message.correlationId

/-- What `handleConsumerFailure` publishes for a message of the queue whose handler failed. -/
def failurePublication (consumerMaxRetries : SafeNat) (queue errorCode : String)
    (message : Message) : Publication :=
  if retryCount message < consumerMaxRetries.1 then
    { routingKey := queue
      body := message.content
      options := copyPublishOptions message
        ((messageHeaders message).insert "x-retry-count"
          (.number (.finite (retryCount message + 1 : ℕ)))) }
  else
    { routingKey := CONVERSION_EXECUTION_DEAD_LETTER_ROUTING_KEY
      body := message.content
      options := copyPublishOptions message
        ((((messageHeaders message).insert "x-retry-count"
          (.number (.finite (retryCount message : ℕ)))).insert "x-error-code"
          (.string errorCode)).insert "x-original-routing-key" (.string queue)) }

end RabbitMqConnection

/-! ### Copies -/

/-- The headers that the retries write. -/
def bookkeeping : List String := ["x-retry-count", "x-error-code", "x-original-routing-key"]

/-- **The same message, but for its bookkeeping**: body, identity and every other header. -/
structure Message.CopyOf (m' m : Message) : Prop where
  content : m'.content = m.content
  messageId : RabbitMqConnection.stringOf m'.messageId = RabbitMqConnection.stringOf m.messageId
  correlationId : RabbitMqConnection.stringOf m'.correlationId =
    RabbitMqConnection.stringOf m.correlationId
  headers : ∀ name, name ∉ bookkeeping → (RabbitMqConnection.messageHeaders m').lookup name =
    (RabbitMqConnection.messageHeaders m).lookup name

theorem Message.CopyOf.refl (m : Message) : m.CopyOf m := ⟨rfl, rfl, rfl, fun _ _ ↦ rfl⟩

theorem Message.CopyOf.trans {m m' m'' : Message} (h : m''.CopyOf m') (h' : m'.CopyOf m) :
    m''.CopyOf m where
  content := h.content.trans h'.content
  messageId := h.messageId.trans h'.messageId
  correlationId := h.correlationId.trans h'.correlationId
  headers name hname := (h.headers name hname).trans (h'.headers name hname)

namespace RabbitMqConnection

variable {consumerMaxRetries : SafeNat} {queue errorCode : String} {m : Message}

@[simp] theorem stringOf_map (text : Option String) : stringOf (text.map .string) = text := by
  cases text <;> rfl

theorem countOf_natCast {n : ℕ} (h : n ≤ MAX_SAFE_INTEGER) :
    countOf (some (.number (.finite n))) = n := by
  have hsafe : JsNumber.isSafeInteger (.finite n) = true := by
    simp [JsNumber.isSafeInteger, h]
  rw [countOf, if_pos ⟨hsafe, Nat.cast_nonneg n⟩, Rat.num_natCast, Int.toNat_natCast]

/-- **What is published for a failed message is a copy of it.** -/
theorem failurePublication_copyOf :
    (failurePublication consumerMaxRetries queue errorCode m).message.CopyOf m := by
  unfold failurePublication
  split
  · refine ⟨rfl, stringOf_map _, stringOf_map _, fun name hname ↦ ?_⟩
    simp only [bookkeeping, List.mem_cons, List.not_mem_nil, or_false, not_or] at hname
    exact Finmap.lookup_insert_of_ne _ hname.1
  · refine ⟨rfl, stringOf_map _, stringOf_map _, fun name hname ↦ ?_⟩
    simp only [bookkeeping, List.mem_cons, List.not_mem_nil, or_false, not_or] at hname
    simp only [messageHeaders, Publication.message, copyPublishOptions, Option.getD_some]
    rw [Finmap.lookup_insert_of_ne _ hname.2.2, Finmap.lookup_insert_of_ne _ hname.2.1,
      Finmap.lookup_insert_of_ne _ hname.1]

/-- A message below the limit goes back to its queue, with its count increased. -/
theorem failurePublication_of_lt (h : retryCount m < consumerMaxRetries.1) :
    (failurePublication consumerMaxRetries queue errorCode m).routingKey = queue ∧
      retryCount (failurePublication consumerMaxRetries queue errorCode m).message =
        retryCount m + 1 := by
  rw [failurePublication, if_pos h]
  refine ⟨rfl, ?_⟩
  have hsafe : retryCount m + 1 ≤ MAX_SAFE_INTEGER := h.trans_le consumerMaxRetries.2
  exact (congrArg countOf (Finmap.lookup_insert _)).trans (countOf_natCast hsafe)

/-- Any other is dead-lettered. -/
theorem failurePublication_of_not_lt (h : ¬ retryCount m < consumerMaxRetries.1) :
    (failurePublication consumerMaxRetries queue errorCode m).routingKey =
      CONVERSION_EXECUTION_DEAD_LETTER_ROUTING_KEY := by
  rw [failurePublication, if_neg h]

end RabbitMqConnection

end WalletConversion
