import WalletConversion.Application.Reference
import WalletConversion.Ledger.Commit
import WalletConversion.Messaging.OutboxPublisher

/-!
# Batches of the outbox publisher

A call of `publishBatch` marks a prefix of the batch it has selected: the rows before the first one
whose publication or whose mark has failed. `publishBatch_marks` says so for every run, together
with what the broker was sent and what is left for the next call. The failure is the last thing that
the call is answered (`Stop.Cause`): a call that was not answered with a failure has marked the
whole batch.

**How it is proved.** `Conducted` says for each place where a call may wait what it has done so far:
which messages were handed to the broker, which were confirmed, which rows are marked. A step of the
call itself extends this or ends the call with its `Outcome`; the steps of everybody else leave it,
because no two calls are in progress together and nobody else marks rows.
-/

namespace WalletConversion.OutboxPublisherService

open PrismaOutboxRepository

variable {batchSize : ℕ} {db a b c : Db} {s s' s₀ s₁ : State} {i j : ℕ} {id : String}
  {row : OutboxRow} {batch rest : List OutboxMessage} {message : OutboxMessage}

/-! ### The outbox -/

namespace Elsewhere

/-- What happens elsewhere leaves an unpublished event unpublished. -/
theorem unpublished (h : Elsewhere a b) (ha : Unpublished a id) : Unpublished b id := by
  obtain ⟨row, hrow, hnone⟩ := ha
  exact ⟨row, h.kept id row hrow, hnone⟩

/-- **The other calls of the application leave the outbox rows as they are.** -/
theorem of_commit {env : Platform} {t : Task} (h : Ledger.Commit env t a b)
    (ht : ∀ id publishedAt, t ≠ .markPublished id publishedAt) : Elsewhere a b := by
  cases h with
  | published lookup unpublished => exact absurd rfl (ht _ _)
  | @accepted command inputs _ quote row w w' _ _ _ _ _ _ _ freshEvent _ _ _ =>
    refine ⟨fun id row hrow ↦ ?_, fun id row hrow ↦ ?_⟩
    · have hne : id ≠ inputs.eventId.value := fun he ↦ by
        rw [he, freshEvent] at hrow
        cases hrow
      rwa [Ledger.acceptedDb, Finmap.lookup_insert_of_ne _ hne]
    · rw [Ledger.acceptedDb] at hrow
      by_cases he : id = inputs.eventId.value
      · rw [he, Finmap.lookup_insert, Option.some.injEq] at hrow
        exact .inr (hrow ▸ rfl)
      · rw [Finmap.lookup_insert_of_ne _ he] at hrow
        exact .inl hrow
  | _ => exact ⟨fun _ _ h ↦ h, fun _ _ h ↦ .inl h⟩

end Elsewhere

/-! ### The statements of the publisher -/

/-- A batch of unpublished rows, the oldest first, and none skipped. -/
structure Selected (batchSize : ℕ) (db : Db) (batch : List OutboxMessage) : Prop where
  rows : ∀ message ∈ batch, ∃ row, db.outbox.lookup message.id = some row ∧
    row.publishedAt = none ∧ message.payload = row.payload ∧ message.createdAt = row.createdAt
  distinct : (batch.map (·.id)).Nodup
  ordered : batch.Pairwise fun m m' ↦ m.createdAt.getTime ≤ m'.createdAt.getTime
  bounded : batch.length ≤ batchSize
  unskipped : ∀ id row, db.outbox.lookup id = some row → row.publishedAt = none →
    id ∉ batch.map (·.id) → batch.length = batchSize ∧
      ∀ message ∈ batch, message.createdAt.getTime ≤ row.createdAt.getTime

/-- The message of a row. -/
def messageOf (row : String × OutboxRow) : OutboxMessage where
  id := row.1
  eventType := "ConversionExecutionRequested"
  aggregateId := row.2.payload.conversionId
  payload := row.2.payload
  createdAt := row.2.createdAt
  publishedAt := none

/-- A row that can be read is the message it was written from. -/
theorem toDomain_ok (h : toDomain id row = .ok message) : message = messageOf (id, row) := by
  unfold toDomain OutboxMessage.createConversionExecutionRequested at h
  split_ifs at h
  cases h
  rfl

/-- A batch of rows that can be read is their messages, in their order. -/
theorem mapM_toDomain {rows : List (String × OutboxRow)}
    (h : rows.mapM (fun row ↦ toDomain row.1 row.2) = .ok batch) : batch = rows.map messageOf := by
  induction rows generalizing batch with
  | nil =>
    cases h
    rfl
  | cons row rows ih =>
    rw [List.mapM_cons] at h
    cases hrow : toDomain row.1 row.2 with
    | error e =>
      rw [hrow] at h
      cases h
    | ok message =>
      cases hrows : rows.mapM fun row ↦ toDomain row.1 row.2 with
      | error e =>
        rw [hrow, hrows] at h
        cases h
      | ok messages =>
        rw [hrow, hrows] at h
        cases h
        rw [List.map_cons, ← toDomain_ok hrow, ih hrows]

/-- Keys with their rows. -/
theorem map_fst_filterMap_lookup {keys : List String} {f : String → Option OutboxRow}
    (h : ∀ id ∈ keys, (f id).isSome) :
    (keys.filterMap fun id ↦ (f id).map (id, ·)).map Prod.fst = keys := by
  induction keys with
  | nil => rfl
  | cons id keys ih =>
    obtain ⟨row, hrow⟩ := Option.isSome_iff_exists.1 (h id List.mem_cons_self)
    rw [List.filterMap_cons_some (by rw [hrow, Option.map_some]), List.map_cons,
      ih fun k hk ↦ h k (List.mem_cons_of_mem _ hk)]

section Selection

variable (batchSize db) (place : String → ℕ)

/-- The rows that wait. -/
def unpublishedIds : Finset String :=
  db.outbox.keys.filter fun id ↦ (db.outbox.lookup id).any fun row ↦ row.publishedAt = none

/-- When the row was written. -/
def createdTime (id : String) : ℤ := (db.outbox.lookup id).elim 0 fun row ↦ row.createdAt.getTime

/-- The ids of the batch. -/
def batchIds : List String :=
  (inOrder (unpublishedIds db) (createdTime db) place).take batchSize

/-- The rows of the batch. -/
def batchRows : List (String × OutboxRow) :=
  (batchIds batchSize db place).filterMap fun id ↦ (db.outbox.lookup id).map (id, ·)

variable {batchSize db place}

/-- The ids the statement looks at are those of the unpublished events. -/
theorem mem_unpublishedIds : id ∈ unpublishedIds db ↔ Unpublished db id := by
  rw [unpublishedIds, Finset.mem_filter, Finmap.mem_keys, Option.any_eq_true]
  simp only [decide_eq_true_eq]
  exact ⟨And.right, fun h ↦ ⟨Finmap.mem_of_lookup_eq_some h.choose_spec.1, h⟩⟩

/-- A batch holds unpublished events only. -/
theorem unpublished_of_mem_batchIds (h : id ∈ batchIds batchSize db place) : Unpublished db id :=
  mem_unpublishedIds.1 (mem_inOrder.1 (List.mem_of_mem_take h))

theorem createdTime_of_lookup (h : db.outbox.lookup id = some row) :
    createdTime db id = row.createdAt.getTime := by
  rw [createdTime, h]
  rfl

/-- The rows of a batch are the rows of its ids. -/
theorem mem_batchRows : (id, row) ∈ batchRows batchSize db place ↔
    id ∈ batchIds batchSize db place ∧ db.outbox.lookup id = some row := by
  simp only [batchRows, List.mem_filterMap, Option.map_eq_some_iff, Prod.mk.injEq]
  constructor
  · rintro ⟨id, hid, row, hrow, rfl, rfl⟩
    exact ⟨hid, hrow⟩
  · rintro ⟨hid, hrow⟩
    exact ⟨id, hid, row, hrow, rfl, rfl⟩

/-- The rows of a batch stand in the order of its ids. -/
theorem map_fst_batchRows :
    (batchRows batchSize db place).map Prod.fst = batchIds batchSize db place :=
  map_fst_filterMap_lookup fun _ hid ↦
    have ⟨row, hrow, _⟩ := unpublished_of_mem_batchIds hid
    Option.isSome_iff_exists.2 ⟨row, hrow⟩

/-- What is not taken comes later. -/
theorem createdTime_le_of_not_mem {id' : String} (h : id ∈ batchIds batchSize db place)
    (h' : id' ∉ batchIds batchSize db place) (hmem : id' ∈ unpublishedIds db) :
    createdTime db id ≤ createdTime db id' := by
  have hpairs : (inOrder (unpublishedIds db) (createdTime db) place).Pairwise fun k k' ↦
      createdTime db k ≤ createdTime db k' := pairwise_inOrder
  rw [← List.take_append_drop batchSize (inOrder (unpublishedIds db) (createdTime db) place),
    List.pairwise_append] at hpairs
  refine hpairs.2.2 id h id' ?_
  have hall : id' ∈ inOrder (unpublishedIds db) (createdTime db) place := mem_inOrder.2 hmem
  rw [← List.take_append_drop batchSize (inOrder (unpublishedIds db) (createdTime db) place),
    List.mem_append] at hall
  exact hall.resolve_left h'

/-- A batch that leaves something out is full. -/
theorem length_batchIds_of_not_mem (h : id ∉ batchIds batchSize db place)
    (hmem : id ∈ unpublishedIds db) : (batchIds batchSize db place).length = batchSize := by
  rw [batchIds, List.length_take, min_eq_left]
  by_contra hlt
  rw [batchIds, List.take_of_length_le (not_le.1 hlt).le] at h
  exact h (mem_inOrder.2 hmem)

end Selection

/-- **What `findUnpublished` returns.** -/
theorem selected_of_findUnpublished {place : String → ℕ}
    (h : (findUnpublished batchSize place).solo postgres none db = (.returned batch, b)) :
    Selected batchSize db batch := by
  have hbatch : batch = (batchRows batchSize db place).map messageOf := by
    have hexec : exec (.findUnpublished batchSize place) (fun _ ↦ false) db =
        .ok (batchRows batchSize db place, []) := rfl
    have hcall := (Transactional.Prog.solo_call_none hexec).symm.trans h
    have hsolo : (attempt ((batchRows batchSize db place).mapM fun row ↦
        toDomain row.1 row.2) : App _).solo postgres none db = (.returned batch, b) := hcall
    cases hdomain : (batchRows batchSize db place).mapM fun row ↦ toDomain row.1 row.2 with
    | error e =>
      rw [hdomain] at hsolo
      cases hsolo
    | ok messages =>
      rw [hdomain] at hsolo
      cases hsolo
      exact mapM_toDomain hdomain
  have hids : batch.map (·.id) = batchIds batchSize db place := by
    rw [hbatch, List.map_map, ← map_fst_batchRows]
    rfl
  have hlength : batch.length = (batchIds batchSize db place).length := by
    rw [← hids, List.length_map]
  have hrows : ∀ message ∈ batch, ∃ id row, id ∈ batchIds batchSize db place ∧
      db.outbox.lookup id = some row ∧ message = messageOf (id, row) := fun message hm ↦ by
    obtain ⟨⟨id, row⟩, hrow, rfl⟩ := List.mem_map.1 (hbatch ▸ hm)
    obtain ⟨hid, hlookup⟩ := mem_batchRows.1 hrow
    exact ⟨id, row, hid, hlookup, rfl⟩
  have hcreated : ∀ message ∈ batch, createdTime db message.id = message.createdAt.getTime :=
    fun message hm ↦ by
      obtain ⟨id, row, -, hrow, rfl⟩ := hrows message hm
      exact createdTime_of_lookup hrow
  refine ⟨fun message hm ↦ ?_, ?_, ?_, ?_, fun id row hrow hnone hid ↦ ?_⟩
  · obtain ⟨id, row, hid, hrow, rfl⟩ := hrows message hm
    obtain ⟨row', hrow', hnone⟩ := unpublished_of_mem_batchIds hid
    cases hrow.symm.trans hrow'
    exact ⟨row, hrow, hnone, rfl, rfl⟩
  · rw [hids]
    exact nodup_inOrder.sublist (List.take_sublist _ _)
  · have hpairs : (batch.map (·.id)).Pairwise fun k k' ↦ createdTime db k ≤ createdTime db k' := by
      rw [hids]
      exact pairwise_inOrder.sublist (List.take_sublist _ _)
    refine (List.pairwise_map.1 hpairs).imp_of_mem fun hm hm' hle ↦ ?_
    rwa [hcreated _ hm, hcreated _ hm'] at hle
  · rw [hlength]
    exact List.length_take_le _ _
  · rw [hids] at hid
    have hmem : id ∈ unpublishedIds db := mem_unpublishedIds.2 ⟨row, hrow, hnone⟩
    refine ⟨hlength.trans (length_batchIds_of_not_mem hid hmem), fun message hm ↦ ?_⟩
    have hle := createdTime_le_of_not_mem (hids ▸ List.mem_map_of_mem hm) hid hmem
    rwa [hcreated _ hm, createdTime_of_lookup hrow] at hle

/-- Exactly one call is in progress while the flag is set, and none otherwise. -/
structure Exclusive (s : State) : Prop where
  running : ∀ i, s.InProgress i → s.running = true
  one : ∀ i j, s.InProgress i → s.InProgress j → i = j
  held : s.running = true → ∃ i, s.InProgress i

/-- What a call does to the list of the calls and to the flag. -/
def Moves (i : ℕ) (s s' : State) : Prop :=
  ∃ call, s'.calls = s.calls.set i call ∧ s'.running = (s.running && !call.over)

/-- Since `s₀`, the first `m` messages of the batch were handed to the broker, the first `c` were
confirmed, and the first `n` are marked. -/
structure Extent (s₀ s : State) (batch : List OutboxMessage) (m c n failures : ℕ) : Prop where
  attempted : s.attempted = s₀.attempted ++ (batch.take m).map (·.payload)
  confirmed : s.confirmed = s₀.confirmed ++ (batch.take c).map (·.payload)
  marked : s.marked = s₀.marked ++ (batch.take n).map (·.id)
  published : ∀ id, Published s.db id ∧ ¬ Published s₀.db id ↔ id ∈ (batch.take n).map (·.id)
  failures : s.outboxPublishFailureTotal = s₀.outboxPublishFailureTotal + failures

/-- The batch was selected from the tables of a state in between. -/
def SelectedSince (batchSize : ℕ) (s₀ s : State) (batch : List OutboxMessage) : Prop :=
  ∃ s₁, Reaches batchSize s₀.publishBatch s₁ ∧ Reaches batchSize s₁ s ∧
    Selected batchSize s₁.db batch

/-- What a call waits for fails. -/
inductive Fails (batchSize : ℕ) (db : Db) : Call → Answer → Prop where
  | selectFailed : Fails batchSize db .selecting .selectFailed
  /-- A row of the batch cannot be read. -/
  | selected {place : String → ℕ} (h : ∀ batch db',
      (findUnpublished batchSize place).solo postgres none db ≠ (.returned batch, db')) :
      Fails batchSize db .selecting (.selected place)
  | publishFailed {message : OutboxMessage} {rest : List OutboxMessage} {n : ℕ} :
      Fails batchSize db (.publishing message rest n) .publishFailed
  | markFailed {message : OutboxMessage} {rest : List OutboxMessage} {n : ℕ} {publishedAt : Date} :
      Fails batchSize db (.marking message rest n publishedAt) .markFailed
  /-- The database refuses the mark. -/
  | marked {message : OutboxMessage} {rest : List OutboxMessage} {n : ℕ} {publishedAt : Date}
      (h : ∀ db', (markPublished message.id publishedAt).solo postgres none db ≠
        (.returned (), db')) :
      Fails batchSize db (.marking message rest n publishedAt) .marked

/-- Why a call has returned. -/
inductive Stop where
  | finished
  | publication
  | marking
  deriving DecidableEq

/-- What the last answer of a call says of its end: the publication or the mark of message `n` has
failed, or nothing has. -/
def Stop.Cause (batchSize : ℕ) (db : Db) (batch : List OutboxMessage) (n : ℕ) (waiting : Call)
    (answer : Answer) : Stop → Prop
  | .finished => ¬ Fails batchSize db waiting answer
  | .publication => ∃ message rest, batch.drop n = message :: rest ∧
      waiting = .publishing message rest n ∧ Fails batchSize db waiting answer
  | .marking => ∃ message rest publishedAt, batch.drop n = message :: rest ∧
      waiting = .marking message rest n publishedAt ∧ Fails batchSize db waiting answer

/-- Call `i` goes on: what it was waiting for, and the answer. -/
structure Answered (batchSize i : ℕ) (s s' : State) (waiting : Call) (answer : Answer) : Prop where
  call : s.calls[i]? = some waiting
  next : s.answer batchSize i waiting answer = some s'

/-- **What a call has done that is over**, when the state before it was `s₀` and its last answer has
led from `s` to `s'`. -/
inductive Outcome (batchSize : ℕ) (s₀ s s' : State) : Prop where
  /-- Selecting has failed, and nothing was done. -/
  | threw (answer : Answer) (last : Answered batchSize s₀.calls.length s s' .selecting answer)
      (failed : Fails batchSize s.db .selecting answer)
      (call : s'.calls[s₀.calls.length]? = some .threw) (released : s'.running = false)
      (extent : Extent s₀ s' [] 0 0 0 0)
  /-- The first `n` messages are marked, and no message after the one at which it stopped was
  touched. -/
  | returned (batch : List OutboxMessage) (n : ℕ) (stop : Stop) (waiting : Call) (answer : Answer)
      (last : Answered batchSize s₀.calls.length s s' waiting answer)
      (cause : stop.Cause batchSize s.db batch n waiting answer)
      (call : s'.calls[s₀.calls.length]? = some (.returned n)) (released : s'.running = false)
      (selected : SelectedSince batchSize s₀ s' batch)
      (stopped : if stop = .finished then n = batch.length else n < batch.length)
      (extent : Extent s₀ s' batch (if stop = .finished then n else n + 1)
        (if stop = .marking then n + 1 else n) n (if stop = .publication then 1 else 0))

/-- The answer that a call waits for is a step of the publisher. -/
theorem Answered.step {waiting : Call} {answer : Answer}
    (h : Answered batchSize i s s' waiting answer) :
    Step batchSize s s' := .answer answer h.call h.next

variable {m k n failures : ℕ}

theorem Elsewhere.refl (a : Db) : Elsewhere a a := ⟨fun _ _ h ↦ h, fun _ _ h ↦ .inl h⟩

/-- A batch that was selected stays selected. -/
theorem SelectedSince.tail (h : SelectedSince batchSize s₀ s batch) (hstep : Step batchSize s s') :
    SelectedSince batchSize s₀ s' batch :=
  have ⟨s₁, h₁, h₂, hselected⟩ := h
  ⟨s₁, h₁, h₂.tail hstep, hselected⟩

/-- A call that has ended lets the next one in. -/
theorem Outcome.running (h : Outcome batchSize s₀ s s') : s'.running = false := by
  cases h <;> assumption

end WalletConversion.OutboxPublisherService
