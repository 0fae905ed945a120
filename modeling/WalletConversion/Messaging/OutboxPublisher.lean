import WalletConversion.Database.Repositories
import Mathlib.Logic.Relation

/-!
# The outbox publisher

`publishBatch` selects a batch of unpublished outbox rows, and publishes and marks them one after
the other. It waits for the database or for the broker at every step, and meanwhile a timer may call
it again, and other calls may write to the tables. `State.answer` runs what stands between two such
places.

## What is assumed of the surroundings

* A statement that fails has no effect.
* No other process publishes: only this one changes an outbox row (`Elsewhere`).
-/

namespace WalletConversion.OutboxPublisherService

/-! ### The service -/

/-- How far a call of `publishBatch` has come. -/
inductive Call where
  /-- At `findUnpublished`. -/
  | selecting
  /-- At `rabbit.publish`. -/
  | publishing (message : OutboxMessage) (rest : List OutboxMessage) (published : ℕ)
  /-- At `markPublished`. -/
  | marking (message : OutboxMessage) (rest : List OutboxMessage) (published : ℕ)
      (publishedAt : Date)
  | returned (published : ℕ)
  | threw
  deriving DecidableEq

/-- Nothing more happens to the call. -/
def Call.over : Call → Bool
  | .selecting | .publishing _ _ _ | .marking _ _ _ _ => false
  | .returned _ | .threw => true

/-- The fields of the service, the tables, and what its calls have done. -/
structure State where
  running : Bool
  outboxPublishFailureTotal : ℕ
  db : Db
  /-- In the order of their beginning. -/
  calls : List Call
  /-- What `rabbit.publish` was called with. -/
  attempted : List ConversionExecutionRequestedPayload
  /-- What the broker has confirmed. -/
  confirmed : List ConversionExecutionRequestedPayload
  /-- The rows for which `markPublished` has succeeded. -/
  marked : List String

/-- What a call waits for. -/
inductive Answer where
  | selected (place : String → ℕ)
  | selectFailed
  | confirmed (now : Date)
  | publishFailed
  | marked
  | markFailed

namespace State

/-- The service before its first call. -/
def initial (db : Db) : State where
  running := false
  outboxPublishFailureTotal := 0
  db := db
  calls := []
  attempted := []
  confirmed := []
  marked := []

/-- Let one call come further. -/
def onCall (s : State) (i : ℕ) (call : Call) : State := { s with calls := s.calls.set i call }

/-- The end of a call, with its `finally`. -/
def leave (s : State) (i : ℕ) (call : Call) : State := { s.onCall i call with running := false }

/-- The head of the loop. -/
def loop (s : State) (i : ℕ) (batch : List OutboxMessage) (published : ℕ) : State :=
  match batch with
  | [] => s.leave i (.returned published)
  | message :: rest =>
    { s.onCall i (.publishing message rest published) with
      attempted := s.attempted ++ [message.payload] }

/-- `publishBatch()` up to its first `await`. -/
def publishBatch (s : State) : State :=
  if s.running then { s with calls := s.calls ++ [.returned 0] }
  else { s with running := true, calls := s.calls ++ [.selecting] }

/-- The answer of `findUnpublished`. -/
def select (batchSize : ℕ) (s : State) (i : ℕ) (place : String → ℕ) : State :=
  match (PrismaOutboxRepository.findUnpublished batchSize place).solo postgres none s.db with
  | (.returned batch, _) => s.loop i batch 0
  | (.threw _, _) | (.refused _, _) => s.leave i .threw

/-- The answer of `markPublished`. -/
def mark (s : State) (i : ℕ) (message : OutboxMessage) (rest : List OutboxMessage)
    (published : ℕ) (publishedAt : Date) : State :=
  match (PrismaOutboxRepository.markPublished message.id publishedAt).solo postgres none s.db with
  | (.returned _, db) =>
    { s with db := db, marked := s.marked ++ [message.id] }.loop i rest (published + 1)
  | (.threw _, _) | (.refused _, _) => s.leave i (.returned published)

/-- What follows the next `await` of a call. -/
def answer (batchSize : ℕ) (s : State) (i : ℕ) : Call → Answer → Option State
  | .selecting, .selected place => some (s.select batchSize i place)
  | .selecting, .selectFailed => some (s.leave i .threw)
  | .publishing message rest published, .confirmed now =>
    some { s.onCall i (.marking message rest published now) with
      confirmed := s.confirmed ++ [message.payload] }
  | .publishing _ _ published, .publishFailed =>
    some { s.leave i (.returned published) with
      outboxPublishFailureTotal := s.outboxPublishFailureTotal + 1 }
  | .marking message rest published publishedAt, .marked =>
    some (s.mark i message rest published publishedAt)
  | .marking _ _ published _, .markFailed => some (s.leave i (.returned published))
  | _, _ => none

/-- The answers that call `i` gets, one after the other. -/
def play (batchSize i : ℕ) : State → List Answer → Option State
  | s, [] => some s
  | s, a :: rest =>
    s.calls[i]?.bind fun call ↦ (s.answer batchSize i call a).bind fun s' ↦ play batchSize i s' rest

end State

/-! ### Runs -/

/-- The row is marked. -/
def Published (db : Db) (id : String) : Prop :=
  ∃ row, db.outbox.lookup id = some row ∧ row.publishedAt ≠ none

/-- The row is there and not marked. -/
def Unpublished (db : Db) (id : String) : Prop :=
  ∃ row, db.outbox.lookup id = some row ∧ row.publishedAt = none

/-- What everybody else may do to the outbox: add unpublished rows. -/
structure Elsewhere (a b : Db) : Prop where
  kept : ∀ id row, a.outbox.lookup id = some row → b.outbox.lookup id = some row
  added : ∀ id row, b.outbox.lookup id = some row →
    a.outbox.lookup id = some row ∨ row.publishedAt = none

/-- One step: a call begins, a call goes on, or the tables change. -/
inductive Step (batchSize : ℕ) : State → State → Prop where
  | publishBatch (s : State) : Step batchSize s s.publishBatch
  | answer {s s' : State} {i : ℕ} {call : Call} (a : Answer) (hcall : s.calls[i]? = some call)
      (h : s.answer batchSize i call a = some s') : Step batchSize s s'
  | elsewhere {s : State} {db : Db} (h : Elsewhere s.db db) : Step batchSize s { s with db := db }

/-- Any number of steps. -/
abbrev Reaches (batchSize : ℕ) : State → State → Prop := Relation.ReflTransGen (Step batchSize)

namespace State

/-- Call `i` has begun and is not over. -/
def InProgress (s : State) (i : ℕ) : Prop := ∃ call, s.calls[i]? = some call ∧ call.over = false

end State

theorem reaches_of_play {batchSize i : ℕ} {s s' : State} {answers : List Answer}
    (h : s.play batchSize i answers = some s') : Reaches batchSize s s' := by
  induction answers generalizing s with
  | nil =>
    cases h
    exact .refl
  | cons a rest ih =>
    obtain ⟨call, hcall, h⟩ := Option.bind_eq_some_iff.1 h
    obtain ⟨s₁, hs₁, hrest⟩ := Option.bind_eq_some_iff.1 h
    exact .head (.answer a hcall hs₁) (ih hrest)

end WalletConversion.OutboxPublisherService
