import WalletConversion.Application.System
import WalletConversion.Messaging.Delivery
import WalletConversion.Messaging.ExecutionEvent
import WalletConversion.Messaging.OutboxPublisher

/-!
# From the outbox to the consumer

The application, any number of publishers and any number of consumers, around one database and one
broker. A request starts a call of the application. A publisher selects a batch of outbox rows, and
publishes and marks them one after the other. A consumer reads what it is delivered, and starts an
execution with it. Nothing is promised about the payload of an execution here: it is what the
consumer has read.

`Pipeline.step` is one step of it all. Between any two steps a call may be cut off, a publisher may
crash, a publication may be lost or be stored although its confirmation was given up, and a channel
may close.

## What is assumed of the surroundings

* The queue holds what the publishers have published. A message of anybody else is not modelled
  here.
* The broker keeps what `Copies` says.
* A generated id is new, as in `Startable`.
-/

namespace WalletConversion

open Transactional RabbitMqConnection

/-! ### The state -/

/-- The publication of an outbox row, with every copy of it. -/
structure Parcel where
  /-- The id of the row. -/
  eventId : String
  payload : ConversionExecutionRequestedPayload
  copies : Copies

/-- A call of `publishBatch` in one of the publishers, and what it waits for: the parcel it has
handed to the channel, or the call that marks its row. -/
structure Batch where
  call : OutboxPublisherService.Call
  waits : Option ℕ

/-- The application with its calls, the batches of its publisher, and what the broker has of each
message. -/
structure Pipeline where
  app : System
  batches : List Batch
  parcels : List Parcel
  /-- The execution that a consumer has started for a copy of a parcel that was delivered to it. -/
  serving : Table (ℕ × ℕ) ℕ

/-- What may happen. -/
inductive Happening where
  /-- Somebody creates a quote, accepts one, or cleans up. -/
  | request (pid : ℕ) (t : Task)
  /-- A call of the application takes its next step. -/
  | run (pid : ℕ)
  /-- A call of the application is cut off. -/
  | fail (pid : ℕ)
  /-- A call of `publishBatch` begins and selects its batch. -/
  | select (batchSize : ℕ) (place : String → ℕ)
  /-- Call `i` hands its message to the channel. -/
  | publish (i : ℕ)
  /-- The publication of call `i` is confirmed, and its row is going to be marked. -/
  | confirm (i pid : ℕ) (now : Date)
  | publishFailed (i : ℕ)
  | marked (i : ℕ)
  | markFailed (i : ℕ)
  /-- The process of call `i` is gone. -/
  | crash (i : ℕ)
  /-- Something happens to a copy of parcel `k`. -/
  | signal (k : ℕ) (signal : Signal)
  /-- A consumer starts an execution for copy `i` of parcel `k`. -/
  | handle (k i pid : ℕ) (inputs : ExecuteInputs)

namespace OutboxPublisherService

/-- The head of the loop of `publishBatch`. -/
def Call.loop (batch : List OutboxMessage) (published : ℕ) : Call :=
  match batch with
  | [] => .returned published
  | message :: rest => .publishing message rest published

/-- Where an answer takes a call. -/
def Call.next : Call → Answer → Option Call
  | .publishing message rest published, .confirmed now => some (.marking message rest published now)
  | .publishing _ _ published, .publishFailed => some (.returned published)
  | .marking _ rest published _, .marked => some (.loop rest (published + 1))
  | .marking _ _ published _, .markFailed => some (.returned published)
  | _, _ => none

end OutboxPublisherService

/-- A task that somebody asks for. Executions and marks have their own reasons. -/
def Task.requested : Task → Bool
  | .createQuote _ _ _ | .acceptQuote _ _ | .cleanup _ _ _ _ => true
  | .execute _ _ | .markPublished _ _ => false

namespace Pipeline

section Step

variable (env : Platform) (lossy : List UInt8 → String) (consumerMaxRetries : SafeNat)

/-- The application before its first call, and an empty broker. -/
def initial (wallets : Table (String × String) WalletRow) : Pipeline where
  app := System.initial wallets
  batches := []
  parcels := []
  serving := ∅

/-- A move of the application. -/
def move (P : Pipeline) (m : Move Task) : Option Pipeline :=
  (P.app.step postgres (Task.program env) m).map fun app ↦ { P with app := app }

/-- A call of the application is started. -/
def start (P : Pipeline) (pid : ℕ) (t : Task) : Option Pipeline :=
  if Startable P.app t then P.move env (.spawn pid t) else none

/-- Let one batch come further. -/
def onBatch (P : Pipeline) (i : ℕ) (batch : Batch) : Pipeline :=
  { P with batches := P.batches.set i batch }

/-- Copy 0 of the parcel, its publication, is stored. -/
def arrived (P : Pipeline) (k : ℕ) : Bool := P.parcels[k]?.any fun parcel ↦ parcel.copies.stored 0

/-- The call of the application has returned. -/
def returned (P : Pipeline) (pid : ℕ) : Bool :=
  (P.app.procs.lookup pid).any fun p ↦ p.live ∧ p.rest matches .ret _

/-- The call of the application has thrown, or was cut off. -/
def failed (P : Pipeline) (pid : ℕ) : Bool :=
  (P.app.procs.lookup pid).any fun p ↦ ¬ p.live ∨ p.rest matches .raise _

/-- The parcel of an outbox row, handed to the channel. -/
def parcelOf (message : OutboxMessage) : Parcel where
  eventId := message.id
  payload := message.payload
  copies := [⟨(publication CONVERSION_EXECUTION_ROUTING_KEY message.payload).message,
    .inFlight CONVERSION_EXECUTION_ROUTING_KEY⟩]

/-- The copy was delivered, and its handler is running. -/
def running (P : Pipeline) (k i : ℕ) : Option Copy :=
  P.parcels[k]?.bind fun parcel ↦ parcel.copies[i]?.bind fun c ↦
    if c.place = .delivered .running then some c else none

/-- A handler resolves when its execution has returned. It rejects when its execution has thrown, or
when it could not read the message. -/
def permits (P : Pipeline) (k : ℕ) : Signal → Bool
  | .resolve i => (P.serving.lookup (k, i)).any P.returned
  | .reject i _ =>
    match P.serving.lookup (k, i) with
    | some pid => P.failed pid
    | none => (P.running k i).any fun c ↦
        ExecutionConsumerService.received lossy c.message.content = none
  | _ => true

/-- Call `pid` serves copy `i` of parcel `k`. -/
def serve (P : Pipeline) (k i pid : ℕ) : Pipeline :=
  { P with serving := P.serving.insert (k, i) pid }

/-- The execution of the last delivery is nothing to the next one. -/
def served (P : Pipeline) (k : ℕ) : Signal → Table (ℕ × ℕ) ℕ
  | .deliver i => P.serving.erase (k, i)
  | _ => P.serving

/-- What a happening makes of the pipeline, if it can happen at all. -/
def step (P : Pipeline) : Happening → Option Pipeline
  | .request pid t => if t.requested then P.start env pid t else none
  | .run pid => P.move env (.run pid)
  | .fail pid => P.move env (.fail pid)
  | .select batchSize place =>
    match (PrismaOutboxRepository.findUnpublished batchSize place).solo postgres none P.app.db with
    | (.returned batch, _) => some { P with batches := P.batches ++ [⟨.loop batch 0, none⟩] }
    | (.threw _, _) | (.refused _, _) => none
  | .publish i =>
    match P.batches[i]? with
    | some ⟨.publishing message rest published, none⟩ =>
      some { P.onBatch i ⟨.publishing message rest published, some P.parcels.length⟩ with
        parcels := P.parcels ++ [parcelOf message] }
    | _ => none
  | .confirm i pid now =>
    match P.batches[i]? with
    | some ⟨.publishing message rest published, some k⟩ =>
      if P.arrived k then
        (P.onBatch i ⟨.marking message rest published now, some pid⟩).start env pid
          (.markPublished message.id now)
      else none
    | _ => none
  | .publishFailed i => do
    let batch ← P.batches[i]?
    return P.onBatch i ⟨← batch.call.next .publishFailed, none⟩
  | .marked i => do
    let batch ← P.batches[i]?
    if P.returned (← batch.waits) then
      return P.onBatch i ⟨← batch.call.next .marked, none⟩
    else none
  | .markFailed i => do
    let batch ← P.batches[i]?
    if P.failed (← batch.waits) then
      return P.onBatch i ⟨← batch.call.next .markFailed, none⟩
    else none
  | .crash i => P.batches[i]?.map fun _ ↦ P.onBatch i ⟨.threw, none⟩
  | .signal k signal => do
    let parcel ← P.parcels[k]?
    let copies ← parcel.copies.step consumerMaxRetries signal
    if P.permits lossy k signal then
      return { P with
        parcels := P.parcels.set k { parcel with copies := copies }
        serving := P.served k signal }
    else none
  | .handle k i pid inputs => do
    let c ← P.running k i
    let payload ← ExecutionConsumerService.received lossy c.message.content
    if P.serving.lookup (k, i) = none then
      (P.serve k i pid).start env pid (.execute payload inputs)
    else none

/-- One happening after the other. -/
def steps (P : Pipeline) : List Happening → Option Pipeline
  | [] => some P
  | happening :: rest => (P.step env lossy consumerMaxRetries happening).bind fun P' ↦ steps P' rest

end Step

end Pipeline

end WalletConversion
