import WalletConversion.Database.Schema
import WalletConversion.Foundation.Program
import Mathlib.Data.Finset.Sort
import Mathlib.Data.Prod.Lex
import Mathlib.Data.String.Basic

/-!
# SQL statements

The statements the repositories issue, one constructor for each, and what they do: `exec` reads the
tables a statement sees and returns its result with its writes, or the error of the database.
Amounts arrive as text, as the repositories send them. A save of a quote or of a conversion sends
the whole object, also when the row exists.

**Locks.** A write takes the locks of `Write.keys`. Inserting a conversion takes the entries of its
id and of its quote in the two unique indexes; nobody can see, and so nobody can wait for, the row
itself before the insert is committed. Updating a row takes its row lock.

`NOW()` and the physical order of rows are arguments of the statements that depend on them.
-/

namespace WalletConversion

open DecimalNotation Transactional

/-! ### Writes and locks -/

/-- A change of one row. -/
inductive Write where
  | putWallet (userId asset : String) (row : WalletRow)
  | putQuote (id : String) (row : QuoteRow)
  | insertConversion (id : String) (row : ConversionRow)
  | updateConversion (id : String) (row : ConversionRow)
  | putOutbox (id : String) (row : OutboxRow)
  | putIdempotency (key : String) (row : IdempotencyRow)
  | deleteIdempotency (key : String)
  | putProcessed (eventId : String) (row : ProcessedRow)
  | putExchange (clientOrderId : String) (row : ExchangeRow)

/-- What a transaction can lock: rows, and entries of unique indexes. -/
inductive LockKey where
  | idempotency (key : String)
  | processed (eventId : String)
  | exchange (clientOrderId : String)
  | quote (id : String)
  | conversionId (id : String)
  | conversionQuote (quoteId : String)
  | wallet (userId asset : String)
  | conversion (id : String)
  | outbox (id : String)
  deriving DecidableEq

/-- The locks a write takes. -/
def Write.keys : Write → List LockKey
  | .putWallet userId asset _ => [.wallet userId asset]
  | .putQuote id _ => [.quote id]
  | .insertConversion id row => [.conversionId id, .conversionQuote row.quoteId]
  | .updateConversion id _ => [.conversion id]
  | .putOutbox id _ => [.outbox id]
  | .putIdempotency key _ => [.idempotency key]
  | .deleteIdempotency key => [.idempotency key]
  | .putProcessed eventId _ => [.processed eventId]
  | .putExchange clientOrderId _ => [.exchange clientOrderId]

/-- The effect of a write. -/
def Db.write (db : Db) : Write → Db
  | .putWallet userId asset row => { db with wallets := db.wallets.insert (userId, asset) row }
  | .putQuote id row => { db with quotes := db.quotes.insert id row }
  | .insertConversion id row =>
    if db.conversions.lookup id = none then
      { db with conversions := db.conversions.insert id row }
    else db
  | .updateConversion id row =>
    if db.conversions.lookup id = none then db
    else { db with conversions := db.conversions.insert id row }
  | .putOutbox id row => { db with outbox := db.outbox.insert id row }
  | .putIdempotency key row => { db with idempotency := db.idempotency.insert key row }
  | .deleteIdempotency key => { db with idempotency := db.idempotency.erase key }
  | .putProcessed eventId row => { db with processed := db.processed.insert eventId row }
  | .putExchange clientOrderId row => { db with exchange := db.exchange.insert clientOrderId row }

/-- What a lock protects. -/
def LockKey.same : LockKey → Db → Db → Prop
  | .idempotency key, a, b => a.idempotency.lookup key = b.idempotency.lookup key
  | .processed eventId, a, b => a.processed.lookup eventId = b.processed.lookup eventId
  | .exchange id, a, b => a.exchange.lookup id = b.exchange.lookup id
  | .quote id, a, b => a.quotes.lookup id = b.quotes.lookup id
  | .conversionId id, a, b => a.conversions.lookup id = none → b.conversions.lookup id = none
  | .conversionQuote _, _, _ => True
  | .wallet userId asset, a, b => a.wallets.lookup (userId, asset) =
      b.wallets.lookup (userId, asset)
  | .conversion id, a, b =>
    ∀ row, a.conversions.lookup id = some row → b.conversions.lookup id = some row
  | .outbox id, a, b => a.outbox.lookup id = b.outbox.lookup id

theorem LockKey.same_refl (key : LockKey) (a : Db) : key.same a a := by
  cases key <;> simp [LockKey.same]

theorem LockKey.same_trans (key : LockKey) (a b c : Db) (hab : key.same a b) (hbc : key.same b c) :
    key.same a c := by
  cases key with
  | conversionId id => exact fun h ↦ hbc (hab h)
  | conversion id => exact fun row h ↦ hbc row (hab row h)
  | conversionQuote _ => trivial
  | _ => exact Eq.trans hab hbc

/-- A write leaves alone whatever it does not lock. -/
theorem LockKey.same_write (key : LockKey) (a : Db) (w : Write) (h : key ∉ w.keys) :
    key.same a (a.write w) := by
  cases w with
  | insertConversion id row =>
    cases key with
    | conversionId id' =>
      have hne : id' ≠ id := fun he ↦ h (by simp [Write.keys, he])
      intro hnone
      simp only [Db.write]
      split
      · simpa only [Finmap.lookup_insert_of_ne _ hne] using hnone
      · exact hnone
    | conversion id' =>
      -- an existing row is never replaced by an insert
      intro row' hrow
      simp only [Db.write]
      split
      · rename_i hnone
        have hne : id' ≠ id := fun he ↦ by
          rw [he, hnone] at hrow
          cases hrow
        simpa only [Finmap.lookup_insert_of_ne _ hne] using hrow
      · exact hrow
    | _ =>
      simp only [LockKey.same, Db.write]
      try split
      all_goals trivial
  | updateConversion id row =>
    cases key with
    | conversionId id' =>
      -- an update never creates a row
      intro hnone
      simp only [Db.write]
      split
      · exact hnone
      · rename_i hsome
        have hne : id' ≠ id := fun he ↦ hsome (he ▸ hnone)
        simpa only [Finmap.lookup_insert_of_ne _ hne] using hnone
    | conversion id' =>
      have hne : id' ≠ id := fun he ↦ h (by simp [Write.keys, he])
      intro row' hrow
      simp only [Db.write]
      split
      · exact hrow
      · simpa only [Finmap.lookup_insert_of_ne _ hne] using hrow
    | _ =>
      simp only [LockKey.same, Db.write]
      try split
      all_goals trivial
  | putWallet userId asset row =>
    cases key with
    | wallet userId' asset' =>
      have hne : (userId', asset') ≠ (userId, asset) := fun he ↦ h (by simp_all [Write.keys])
      simp only [LockKey.same, Db.write, Finmap.lookup_insert_of_ne _ hne]
    | _ => simp [LockKey.same, Db.write]
  | putQuote id row =>
    cases key with
    | quote id' =>
      have hne : id' ≠ id := fun he ↦ h (by simp [Write.keys, he])
      simp only [LockKey.same, Db.write, Finmap.lookup_insert_of_ne _ hne]
    | _ => simp [LockKey.same, Db.write]
  | putOutbox id row =>
    cases key with
    | outbox id' =>
      have hne : id' ≠ id := fun he ↦ h (by simp [Write.keys, he])
      simp only [LockKey.same, Db.write, Finmap.lookup_insert_of_ne _ hne]
    | _ => simp [LockKey.same, Db.write]
  | putIdempotency id row =>
    cases key with
    | idempotency id' =>
      have hne : id' ≠ id := fun he ↦ h (by simp [Write.keys, he])
      simp only [LockKey.same, Db.write, Finmap.lookup_insert_of_ne _ hne]
    | _ => simp [LockKey.same, Db.write]
  | deleteIdempotency id =>
    cases key with
    | idempotency id' =>
      have hne : id' ≠ id := fun he ↦ h (by simp [Write.keys, he])
      simp only [LockKey.same, Db.write, Finmap.lookup_erase_ne hne]
    | _ => simp [LockKey.same, Db.write]
  | putProcessed id row =>
    cases key with
    | processed id' =>
      have hne : id' ≠ id := fun he ↦ h (by simp [Write.keys, he])
      simp only [LockKey.same, Db.write, Finmap.lookup_insert_of_ne _ hne]
    | _ => simp [LockKey.same, Db.write]
  | putExchange id row =>
    cases key with
    | exchange id' =>
      have hne : id' ≠ id := fun he ↦ h (by simp [Write.keys, he])
      simp only [LockKey.same, Db.write, Finmap.lookup_insert_of_ne _ hne]
    | _ => simp [LockKey.same, Db.write]

/-! ### Statements -/

/-- The data of `quotes.save`. -/
structure QuoteData where
  id : String
  userId : String
  sourceAsset : String
  targetAsset : String
  sourceAmount : String
  targetAmount : String
  rate : String
  status : QuoteStatus
  createdAt : Date
  expiresAt : Date
  acceptedAt : Option Date

/-- The texts that are stored. -/
def QuoteData.texts (data : QuoteData) : List String :=
  [data.id, data.userId, data.sourceAsset, data.targetAsset]

/-- The data of `conversions.save`. -/
structure ConversionData where
  id : String
  quoteId : String
  userId : String
  sourceAsset : String
  targetAsset : String
  sourceAmount : String
  targetAmount : String
  status : ConversionStatus
  exchangeExecutionId : Option String
  failureReason : Option String
  createdAt : Date
  completedAt : Option Date

@[inherit_doc QuoteData.texts] def ConversionData.texts (data : ConversionData) : List String :=
  [data.id, data.quoteId, data.userId, data.sourceAsset, data.targetAsset] ++
    data.exchangeExecutionId.toList ++ data.failureReason.toList

/-- The data of `wallets.create`. -/
structure WalletData where
  id : String
  userId : String
  asset : String
  balance : String
  available : String
  reserved : String

/-- The data of the exchange adapter's `createMany`. -/
structure ExchangeData where
  clientOrderId : String
  conversionId : String
  userId : String
  sourceAsset : String
  targetAsset : String
  sourceAmount : String
  targetAmount : String
  outcome : ExecutionOutcome
  reason : Option String
  externalReference : String

/-- The statements. -/
inductive Stmt where
  | findQuote (id : String)
  | upsertQuote (data : QuoteData)
  /-- `UPDATE quotes SET status = 'ACCEPTED' … RETURNING …`. -/
  | acceptQuote (id : String) (acceptedAt now : Date)
  | findConversion (id : String)
  | upsertConversion (data : ConversionData)
  /-- `UPDATE conversions SET status = 'EXECUTION_REQUESTED' … RETURNING …`. -/
  | requestExecution (id eventId : String)
  | createOutbox (message : OutboxMessage)
  | findUnpublished (limit : ℕ) (place : String → ℕ)
  | markPublished (id : String) (publishedAt : Date)
  | findIdempotency (key : String)
  /-- `INSERT … ON CONFLICT (idempotency_key) DO NOTHING RETURNING id`. -/
  | insertIdempotency (scope key requestHash : String) (now : Date)
  | completeIdempotency (scope key : String) (responseStatus : ℕ)
      (responseBody : AcceptQuoteSuccessBody) (conversionId : String)
  /-- `DELETE … ORDER BY created_at LIMIT … FOR UPDATE SKIP LOCKED`. -/
  | deleteExpired (before : Date) (limit : ℕ) (place : String → ℕ)
  | existsProcessed (eventId : String)
  /-- `INSERT … ON CONFLICT (event_id) DO NOTHING RETURNING event_id`. -/
  | insertProcessed (eventId conversionId : String) (outcome : ExecutionOutcome) (now : Date)
  /-- `INSERT … ON CONFLICT DO NOTHING`. -/
  | insertExchange (data : ExchangeData)
  | findExchange (clientOrderId : String)
  | findWallet (userId asset : String)
  | createWallet (data : WalletData)
  /-- `INSERT … ON CONFLICT (user_id, asset) DO NOTHING`. -/
  | insertWallet (id userId asset : String)
  | reserveWallet (userId asset amount : String)
  | releaseWallet (userId asset amount : String)
  | commitWallet (userId asset amount : String)
  | creditWallet (userId asset amount : String)

/-- What a statement returns. -/
@[reducible] def Stmt.Result : Stmt → Type
  | .findQuote _ => Option QuoteRow
  | .upsertQuote _ => Unit
  | .acceptQuote _ _ _ => Option QuoteRow
  | .findConversion _ => Option ConversionRow
  | .upsertConversion _ => Unit
  | .requestExecution _ _ => Option ConversionRow
  | .createOutbox _ => Unit
  | .findUnpublished _ _ => List (String × OutboxRow)
  | .markPublished _ _ => Unit
  | .findIdempotency _ => Option IdempotencyRow
  | .insertIdempotency _ _ _ _ => Bool
  | .completeIdempotency _ _ _ _ _ => ℕ
  | .deleteExpired _ _ _ => ℕ
  | .existsProcessed _ => Bool
  | .insertProcessed _ _ _ _ => Bool
  | .insertExchange _ => ℕ
  | .findExchange _ => Option ExchangeRow
  | .findWallet _ _ => Option WalletRow
  | .createWallet _ => Unit
  | .insertWallet _ _ _ => Unit
  | .reserveWallet _ _ _ => Option WalletRow
  | .releaseWallet _ _ _ => Option WalletRow
  | .commitWallet _ _ _ => Option WalletRow
  | .creditWallet _ _ _ => Option WalletRow

/-! ### Meaning -/

/-- `text::numeric`. -/
def number (text : String) : Except DbError ℚ :=
  match signedLiteral text.toList with
  | some d => .ok (signedValue d.1 d.2.value)
  | none => .error .invalidNumber

/-- Assign to a `NUMERIC(38,18)` column. -/
def assign (q : ℚ) : Except DbError Numeric :=
  (Numeric.store q).elim (.error .numericOverflow) .ok

/-- Store a text in a `NUMERIC(38,18)` column. -/
def column (text : String) : Except DbError Numeric := do
  assign (← number text)

/-- Refuse texts that the server does not store. -/
def storing (texts : List String) : Except DbError Unit :=
  if texts.all storable then .ok () else .error .invalidText

theorem storing_eq_ok {texts : List String} :
    storing texts = .ok () ↔ ∀ text ∈ texts, storable text = true := by
  rw [storing, ← List.all_eq_true]
  split_ifs with h <;> simp [h]

theorem storing_of_ne {texts : List String} (h : storing texts ≠ .ok ()) :
    storing texts = .error .invalidText :=
  if_neg fun hall ↦ h (if_pos hall)

/-- Refuse a row that violates a constraint. -/
def checked : Option ConstraintName → Except DbError Unit
  | none => .ok ()
  | some name => .error (.constraint name)

/-- `UPDATE wallet_accounts SET … WHERE user_id = … AND asset = … AND … RETURNING …`. -/
def updateWallet (db : Db) (userId asset : String) (guard : WalletRow → Bool)
    (set : WalletRow → Except DbError WalletRow) : Except DbError (Option WalletRow × List Write) :=
  match db.wallets.lookup (userId, asset) with
  | none => .ok (none, [])
  | some row =>
    if guard row then do
      let row' ← set row
      checked row'.violated
      .ok (some row', [.putWallet userId asset row'])
    else .ok (none, [])

/-- Keys in the order of a date, ties in the physical order of the rows. -/
def inOrder (keys : Finset String) (date : String → ℤ) (place : String → ℕ) : List String :=
  ((keys.image fun k ↦ toLex (date k, toLex (place k, k))).sort (· ≤ ·)).map fun t ↦
    (ofLex (ofLex t).2).2

section InOrder

variable {keys : Finset String} {date : String → ℤ} {place : String → ℕ} {k : String}

@[simp] theorem mem_inOrder : k ∈ inOrder keys date place ↔ k ∈ keys := by
  simp [inOrder]

theorem nodup_inOrder : (inOrder keys date place).Nodup := by
  refine List.Nodup.map_on (fun t ht t' ht' heq ↦ ?_) (Finset.sort_nodup _ _)
  obtain ⟨k, -, rfl⟩ := Finset.mem_image.1 ((Finset.mem_sort _).1 ht)
  obtain ⟨k', -, rfl⟩ := Finset.mem_image.1 ((Finset.mem_sort _).1 ht')
  cases heq
  rfl

@[simp] theorem length_inOrder : (inOrder keys date place).length = keys.card := by
  have hkeys : (inOrder keys date place).toFinset = keys := by
    ext k
    rw [List.mem_toFinset, mem_inOrder]
  rw [← List.toFinset_card_of_nodup nodup_inOrder, hkeys]

/-- The dates do not go back. -/
theorem pairwise_inOrder : (inOrder keys date place).Pairwise fun k k' ↦ date k ≤ date k' := by
  rw [inOrder, List.pairwise_map]
  refine (Finset.pairwise_sort _ _).imp_of_mem fun {t t'} ht ht' hle ↦ ?_
  obtain ⟨k, -, rfl⟩ := Finset.mem_image.1 ((Finset.mem_sort _).1 ht)
  obtain ⟨k', -, rfl⟩ := Finset.mem_image.1 ((Finset.mem_sort _).1 ht')
  exact (Prod.Lex.monotone_fst _ _ hle)

end InOrder

/-- Run a statement on the tables it sees.

A quote or a conversion with a `NUL` in one of its texts is refused. The other statements write
generated ids, texts of rows that were read, header values, and what an event, the exchange or an
error says: a refusal of one of these for a `NUL`, or of a read by a key with one, is outside the
model. -/
def exec (s : Stmt) (locked : LockKey → Bool) (db : Db) :
    Except DbError (s.Result × List Write) :=
  match s with
  | .findQuote id => .ok (db.quotes.lookup id, [])
  | .upsertQuote data => do
    storing data.texts
    match db.quotes.lookup data.id with
    | some row => do
      let row' := { row with status := data.status, acceptedAt := data.acceptedAt }
      checked row'.violated
      .ok ((), [.putQuote data.id row'])
    | none => do
      let row : QuoteRow :=
        { userId := data.userId
          sourceAsset := data.sourceAsset
          targetAsset := data.targetAsset
          sourceAmount := ← column data.sourceAmount
          targetAmount := ← column data.targetAmount
          rate := ← column data.rate
          status := data.status
          createdAt := data.createdAt
          expiresAt := data.expiresAt
          acceptedAt := data.acceptedAt }
      checked row.violated
      .ok ((), [.putQuote data.id row])
  | .acceptQuote id acceptedAt now =>
    match db.quotes.lookup id with
    | none => .ok (none, [])
    | some row =>
      if row.status = .ACTIVE ∧ now.getTime ≤ row.expiresAt.getTime then do
        let row' := { row with status := .ACCEPTED, acceptedAt := some acceptedAt }
        checked row'.violated
        .ok (some row', [.putQuote id row'])
      else .ok (none, [])
  | .findConversion id => .ok (db.conversions.lookup id, [])
  | .upsertConversion data => do
    storing data.texts
    match db.conversions.lookup data.id with
    | some row => do
      let row' :=
        { row with
          status := data.status
          exchangeExecutionId := data.exchangeExecutionId
          failureReason := data.failureReason
          completedAt := data.completedAt }
      checked row'.violated
      .ok ((), [.updateConversion data.id row'])
    | none => do
      let row : ConversionRow :=
        { quoteId := data.quoteId
          userId := data.userId
          sourceAsset := data.sourceAsset
          targetAsset := data.targetAsset
          sourceAmount := ← column data.sourceAmount
          targetAmount := ← column data.targetAmount
          status := data.status
          exchangeExecutionId := data.exchangeExecutionId
          failureReason := data.failureReason
          createdAt := data.createdAt
          completedAt := data.completedAt }
      checked row.violated
      if ∃ id ∈ db.conversions.keys,
          (db.conversions.lookup id).map (·.quoteId) = some data.quoteId then
        .error (.constraint .conversions_quote_id_key)
      else .ok ((), [.insertConversion data.id row])
  | .requestExecution id eventId =>
    match db.conversions.lookup id with
    | none => .ok (none, [])
    | some row =>
      if row.status = .FUNDS_RESERVED ∧ row.exchangeExecutionId = some eventId then do
        let row' := { row with status := .EXECUTION_REQUESTED }
        checked row'.violated
        .ok (some row', [.updateConversion id row'])
      else .ok (none, [])
  | .createOutbox message => do
    let row : OutboxRow :=
      ⟨message.eventType, message.aggregateId, message.payload, message.createdAt,
        message.publishedAt⟩
    checked row.violated
    if db.outbox.lookup message.id = none then .ok ((), [.putOutbox message.id row])
    else .error (.constraint .outbox_messages_pkey)
  | .findUnpublished limit place =>
    let unpublished := db.outbox.keys.filter fun id ↦
      (db.outbox.lookup id).any fun row ↦ row.publishedAt = none
    let date id := (db.outbox.lookup id).elim 0 fun row ↦ row.createdAt.getTime
    .ok (((inOrder unpublished date place).take limit).filterMap fun id ↦
      (db.outbox.lookup id).map (id, ·), [])
  | .markPublished id publishedAt =>
    match db.outbox.lookup id with
    | some row =>
      if row.publishedAt = none then do
        let row' := { row with publishedAt := some publishedAt }
        checked row'.violated
        .ok ((), [.putOutbox id row'])
      else .ok ((), [])
    | none => .ok ((), [])
  | .findIdempotency key => .ok (db.idempotency.lookup key, [])
  | .insertIdempotency scope key requestHash now =>
    match db.idempotency.lookup key with
    | some _ => .ok (false, [])
    | none => do
      let row : IdempotencyRow := ⟨scope, requestHash, none, none, none, now⟩
      checked (row.violated key)
      .ok (true, [.putIdempotency key row])
  | .completeIdempotency scope key responseStatus responseBody conversionId =>
    match db.idempotency.lookup key with
    | none => .ok ((0 : ℕ), [])
    | some row =>
      if row.scope = scope then do
        let row' :=
          { row with
            responseStatus := some responseStatus
            responseBody := some responseBody
            conversionId := some conversionId }
        checked (row'.violated key)
        .ok ((1 : ℕ), [.putIdempotency key row'])
      else .ok ((0 : ℕ), [])
  | .deleteExpired before limit place =>
    let expired := db.idempotency.keys.filter fun key ↦
      (db.idempotency.lookup key).any (fun row ↦ row.createdAt.getTime < before.getTime) ∧
        locked (.idempotency key) = false
    let date key := (db.idempotency.lookup key).elim 0 fun row ↦ row.createdAt.getTime
    let victims := (inOrder expired date place).take limit
    .ok (victims.length, victims.map .deleteIdempotency)
  | .existsProcessed eventId => .ok ((db.processed.lookup eventId).isSome, [])
  | .insertProcessed eventId conversionId outcome now =>
    match db.processed.lookup eventId with
    | some _ => .ok (false, [])
    | none => .ok (true, [.putProcessed eventId ⟨conversionId, outcome, now⟩])
  | .insertExchange data => do
    let row : ExchangeRow :=
      { conversionId := data.conversionId
        userId := data.userId
        sourceAsset := data.sourceAsset
        targetAsset := data.targetAsset
        sourceAmount := ← column data.sourceAmount
        targetAmount := ← column data.targetAmount
        outcome := data.outcome
        reason := data.reason
        externalReference := data.externalReference }
    match db.exchange.lookup data.clientOrderId with
    | some _ => .ok ((0 : ℕ), [])
    | none => .ok ((1 : ℕ), [.putExchange data.clientOrderId row])
  | .findExchange clientOrderId => .ok (db.exchange.lookup clientOrderId, [])
  | .findWallet userId asset => .ok (db.wallets.lookup (userId, asset), [])
  | .createWallet data => do
    let row : WalletRow :=
      { id := data.id
        balance := ← column data.balance
        available := ← column data.available
        reserved := ← column data.reserved }
    if nonBlank data.asset = false then .error (.constraint .wallet_accounts_asset_nonempty_check)
    else do
      checked row.violated
      if ∃ key ∈ db.wallets.keys, (db.wallets.lookup key).map (·.id) = some data.id then
        .error (.constraint .wallet_accounts_pkey)
      else if (db.wallets.lookup (data.userId, data.asset)).isSome then
        .error (.constraint .wallet_accounts_user_id_asset_key)
      else .ok ((), [.putWallet data.userId data.asset row])
  | .insertWallet id userId asset =>
    if nonBlank asset = false then .error (.constraint .wallet_accounts_asset_nonempty_check)
    else
      match db.wallets.lookup (userId, asset) with
      | some _ => .ok ((), [])
      | none => do
        let zero ← assign 0
        if ∃ key ∈ db.wallets.keys, (db.wallets.lookup key).map (·.id) = some id then
          .error (.constraint .wallet_accounts_pkey)
        else .ok ((), [.putWallet userId asset ⟨id, zero, zero, zero⟩])
  | .reserveWallet userId asset amount => do
    let q ← number amount
    updateWallet db userId asset (fun row ↦ q ≤ row.available.1) fun row ↦ do
      let available ← assign (row.available.1 - q)
      let reserved ← assign (row.reserved.1 + q)
      .ok { row with available, reserved }
  | .releaseWallet userId asset amount => do
    let q ← number amount
    updateWallet db userId asset (fun row ↦ q ≤ row.reserved.1) fun row ↦ do
      let available ← assign (row.available.1 + q)
      let reserved ← assign (row.reserved.1 - q)
      .ok { row with available, reserved }
  | .commitWallet userId asset amount => do
    let q ← number amount
    updateWallet db userId asset (fun row ↦ q ≤ row.reserved.1) fun row ↦ do
      let reserved ← assign (row.reserved.1 - q)
      let balance ← assign (row.balance.1 - q)
      .ok { row with reserved, balance }
  | .creditWallet userId asset amount => do
    let q ← number amount
    updateWallet db userId asset (fun _ ↦ true) fun row ↦ do
      let balance ← assign (row.balance.1 + q)
      let available ← assign (row.available.1 + q)
      .ok { row with balance, available }

/-- PostgreSQL running the statements of the application. -/
def postgres : Store Db Write LockKey DbError Stmt Stmt.Result where
  exec := exec
  apply := Db.write
  keys := Write.keys
  same := LockKey.same
  same_refl := LockKey.same_refl
  same_trans := LockKey.same_trans
  same_apply := LockKey.same_write

end WalletConversion
