import WalletConversion.Foundation.Escrow
import WalletConversion.Ledger.Encoding

/-!
# What a commit does to the tables

The use cases are long programs, but each of them changes the committed tables in a few ways only.
`Commit env t a b` lists them: the task `t` takes the tables `a` to the tables `b` in one commit.
Each constructor says under which circumstances the commit happens and which rows it writes; nothing
else changes.

On the tables three notions are built:

* `Evolves a b` — what no commit ever undoes: terms never change, a status only advances, a
  settlement is final;
* `Db.book` — the tables read as an escrow book: a wallet row is an account, a conversion is a hold;
* `Valid` — the invariant: every row is the image of a domain object and agrees with the rows that
  belong to it.
-/

namespace WalletConversion

open DecimalNotation

namespace Ledger

/-! ### Rows the use cases write -/

/-- The conversion an accept creates. -/
def createdConversion (quote : Quote) (inputs : AcceptInputs) : Conversion where
  id := inputs.conversionId
  quoteId := quote.id
  userId := quote.userId
  sourceAmount := quote.sourceAmount
  targetAmount := quote.targetAmount
  status := .CREATED
  exchangeExecutionId := none
  createdAt := inputs.now
  completedAt := none
  failureReason := none
  distinct := by
    rw [quote.pair.1, quote.pair.2]
    exact quote.rate.distinct

/-- The conversion an accept commits. -/
def reservedConversion (quote : Quote) (inputs : AcceptInputs) : Conversion :=
  { createdConversion quote inputs with
    status := .FUNDS_RESERVED
    exchangeExecutionId := some inputs.eventId.value }

/-- The row of the conversion an accept creates. -/
def createdRow (quoteId : String) (row : QuoteRow) (inputs : AcceptInputs) : ConversionRow where
  quoteId := quoteId
  userId := row.userId
  sourceAsset := row.sourceAsset
  targetAsset := row.targetAsset
  sourceAmount := row.sourceAmount
  targetAmount := row.targetAmount
  status := .CREATED
  exchangeExecutionId := none
  failureReason := none
  createdAt := inputs.now
  completedAt := none

/-- The row of the conversion an accept commits. -/
def reservedRow (quoteId : String) (row : QuoteRow) (inputs : AcceptInputs) : ConversionRow :=
  { createdRow quoteId row inputs with
    status := .FUNDS_RESERVED
    exchangeExecutionId := some inputs.eventId.value }

/-- The accepted quote. -/
def acceptedRow (row : QuoteRow) (inputs : AcceptInputs) : QuoteRow :=
  { row with status := .ACCEPTED, acceptedAt := some inputs.now }

/-- The outbox row of an accept. -/
def eventRow (quote : Quote) (inputs : AcceptInputs) : OutboxRow where
  eventType := "ConversionExecutionRequested"
  aggregateId := inputs.conversionId.value
  payload := AcceptQuoteUseCase.eventPayload quote (reservedConversion quote inputs)
    inputs.eventId.value inputs.now
  createdAt := inputs.now
  publishedAt := none

/-- The completed idempotency record of an accept. -/
def recordRow (env : Platform) (quoteId : String) (quote : Quote) (inputs : AcceptInputs) :
    IdempotencyRow where
  scope := AcceptQuoteUseCase.ACCEPT_QUOTE_SCOPE
  requestHash := AcceptQuoteUseCase.requestHash env quoteId
  responseStatus := some 201
  responseBody := some (AcceptQuoteUseCase.successBody quote (reservedConversion quote inputs))
  conversionId := some inputs.conversionId.value
  createdAt := inputs.databaseNow

/-- The exchange row of an order for a conversion. -/
def exchangeRow (eventId conversionId : String) (row : ConversionRow) (mode : ExecutionOutcome) :
    ExchangeRow where
  conversionId := conversionId
  userId := row.userId
  sourceAsset := row.sourceAsset
  targetAsset := row.targetAsset
  sourceAmount := row.sourceAmount
  targetAmount := row.targetAmount
  outcome := mode
  reason :=
    match mode with
    | .SUCCESS => none
    | .FAILURE => some "simulated_exchange_failure"
    | .UNKNOWN => some "simulated_exchange_timeout"
  externalReference := s!"fake-{eventId}"

/-- The terminal status of an outcome. -/
def statusOf : ExecutionOutcome → ConversionStatus
  | .SUCCESS => .COMPLETED
  | .FAILURE => .FAILED
  | .UNKNOWN => .REQUIRES_RECONCILIATION

/-- A conversion after its result arrived. -/
def settledRow (row : ConversionRow) (outcome : ExecutionOutcome) (now : Date) : ConversionRow :=
  match outcome with
  | .SUCCESS => { row with status := .COMPLETED, completedAt := some now, failureReason := none }
  | .FAILURE =>
    { row with
      status := .FAILED
      completedAt := some now
      failureReason := some "simulated_exchange_failure" }
  | .UNKNOWN =>
    { row with
      status := .REQUIRES_RECONCILIATION
      failureReason := some "simulated_exchange_timeout" }

/-! ### Wallet updates -/

/-- `reserve` on a wallet row. -/
structure Reserves (amount : ℚ) (w w' : WalletRow) : Prop where
  id_eq : w'.id = w.id
  balance_eq : w'.balance = w.balance
  available_eq : w'.available.1 = w.available.1 - amount
  reserved_eq : w'.reserved.1 = w.reserved.1 + amount

/-- `release` on a wallet row. -/
structure Releases (amount : ℚ) (w w' : WalletRow) : Prop where
  id_eq : w'.id = w.id
  balance_eq : w'.balance = w.balance
  available_eq : w'.available.1 = w.available.1 + amount
  reserved_eq : w'.reserved.1 = w.reserved.1 - amount

/-- `commitReservation` on a wallet row. -/
structure Commits (amount : ℚ) (w w' : WalletRow) : Prop where
  id_eq : w'.id = w.id
  balance_eq : w'.balance.1 = w.balance.1 - amount
  available_eq : w'.available = w.available
  reserved_eq : w'.reserved.1 = w.reserved.1 - amount

/-- `credit` on a wallet row. -/
structure Credits (amount : ℚ) (w w' : WalletRow) : Prop where
  id_eq : w'.id = w.id
  balance_eq : w'.balance.1 = w.balance.1 + amount
  available_eq : w'.available.1 = w.available.1 + amount
  reserved_eq : w'.reserved = w.reserved

/-- The wallet a settlement credits: the one that exists, or a new one without money. -/
def TargetWallet (db : Db) (key : String × String) (id : String) (w : WalletRow) : Prop :=
  db.wallets.lookup key = some w ∨
    (db.wallets.lookup key = none ∧ w.id = id ∧ w.balance.1 = 0 ∧ w.available.1 = 0 ∧
      w.reserved.1 = 0)

/-! ### Commits -/

/-- The tables after an accept. -/
def acceptedDb (env : Platform) (a : Db) (command : AcceptQuoteCommand) (inputs : AcceptInputs)
    (quote : Quote) (row : QuoteRow) (w' : WalletRow) : Db :=
  { a with
    wallets := a.wallets.insert (row.userId, row.sourceAsset) w'
    quotes := a.quotes.insert (trim command.quoteId) (acceptedRow row inputs)
    conversions := a.conversions.insert inputs.conversionId.value
      (reservedRow (trim command.quoteId) row inputs)
    outbox := a.outbox.insert inputs.eventId.value (eventRow quote inputs)
    idempotency := a.idempotency.insert (trim command.idempotencyKey)
      (recordRow env (trim command.quoteId) quote inputs) }

/-- The tables after a settlement, apart from the wallets. -/
def settledDb (a : Db) (c e : String) (row : ConversionRow) (outcome : ExecutionOutcome)
    (inputs : ExecuteInputs) : Db :=
  { a with
    conversions := a.conversions.insert c (settledRow row outcome inputs.now)
    processed := a.processed.insert e ⟨c, outcome, inputs.databaseNow⟩ }

/-- A conversion that waits for the settlement of its event with an outcome the exchange has
recorded. -/
structure Settles (a : Db) (payload : ConversionExecutionRequestedPayload) (c : String)
    (row : ConversionRow) (outcome : ExecutionOutcome) : Prop where
  id_eq : payload.conversionId = c
  lookup : a.conversions.lookup c = some row
  status : row.status = .EXECUTION_REQUESTED
  event : row.exchangeExecutionId = some payload.eventId
  distinct : row.sourceAsset ≠ row.targetAsset
  unclaimed : a.processed.lookup payload.eventId = none
  exchange : a.exchange.lookup payload.eventId =
    some (exchangeRow payload.eventId c row outcome)

/-- **Everything a task can commit.** -/
inductive Commit (env : Platform) : Task → Db → Db → Prop where
  | idle (t : Task) (a : Db) : Commit env t a a
  | quoteCreated {command : CreateQuoteCommand} {generatedId : Uuid} {now : Date} {a : Db}
      {quote : Quote} {row : QuoteRow}
      (built : CreateQuoteUseCase.build env command generatedId now = .ok quote)
      (stored : quote.StoredAs env generatedId.value row) (checks : row.violated = none)
      (active : row.status = .ACTIVE) (fresh : a.quotes.lookup generatedId.value = none) :
      Commit env (.createQuote command generatedId now) a
        { a with quotes := a.quotes.insert generatedId.value row }
  | accepted {command : AcceptQuoteCommand} {inputs : AcceptInputs} {a : Db} {quote : Quote}
      {row : QuoteRow} {w w' : WalletRow}
      (valid : AcceptQuoteUseCase.refused command = none)
      (unclaimed : a.idempotency.lookup (trim command.idempotencyKey) = none)
      (lookup : a.quotes.lookup (trim command.quoteId) = some row)
      (stored : quote.StoredAs env (trim command.quoteId) row)
      (active : row.status = .ACTIVE) (inTime : inputs.now.getTime ≤ row.expiresAt.getTime)
      (freshConversion : a.conversions.lookup inputs.conversionId.value = none)
      (freshEvent : a.outbox.lookup inputs.eventId.value = none)
      (wallet : a.wallets.lookup (row.userId, row.sourceAsset) = some w)
      (reserves : Reserves row.sourceAmount.1 w w') (checks : w'.violated = none) :
      Commit env (.acceptQuote command inputs) a (acceptedDb env a command inputs quote row w')
  | executionRequested {payload : ConversionExecutionRequestedPayload} {inputs : ExecuteInputs}
      {a : Db} {row : ConversionRow}
      (lookup : a.conversions.lookup payload.conversionId = some row)
      (status : row.status = .FUNDS_RESERVED)
      (event : row.exchangeExecutionId = some payload.eventId) :
      Commit env (.execute payload inputs) a
        { a with conversions := a.conversions.insert payload.conversionId
                  { row with status := .EXECUTION_REQUESTED } }
  | exchangeRecorded {payload : ConversionExecutionRequestedPayload} {inputs : ExecuteInputs}
      {a : Db} {row : ConversionRow}
      (lookup : a.conversions.lookup payload.conversionId = some row)
      (status : row.status = .EXECUTION_REQUESTED)
      (event : row.exchangeExecutionId = some payload.eventId)
      (fresh : a.exchange.lookup payload.eventId = none) :
      Commit env (.execute payload inputs) a
        { a with exchange := a.exchange.insert payload.eventId
                  (exchangeRow payload.eventId payload.conversionId row inputs.mode) }
  | completed {payload : ConversionExecutionRequestedPayload} {inputs : ExecuteInputs} {a : Db}
      {c : String} {row : ConversionRow} {w w' v v' : WalletRow}
      (settles : Settles a payload c row .SUCCESS)
      (source : a.wallets.lookup (row.userId, row.sourceAsset) = some w)
      (commits : Commits row.sourceAmount.1 w w') (checks : w'.violated = none)
      (target : TargetWallet a (row.userId, row.targetAsset) inputs.walletId.value v)
      (credits : Credits row.targetAmount.1 v v') (checks' : v'.violated = none) :
      Commit env (.execute payload inputs) a
        { settledDb a c payload.eventId row .SUCCESS inputs with
          wallets := (a.wallets.insert (row.userId, row.sourceAsset) w').insert
            (row.userId, row.targetAsset) v' }
  | failed {payload : ConversionExecutionRequestedPayload} {inputs : ExecuteInputs} {a : Db}
      {c : String} {row : ConversionRow} {w w' : WalletRow}
      (settles : Settles a payload c row .FAILURE)
      (source : a.wallets.lookup (row.userId, row.sourceAsset) = some w)
      (releases : Releases row.sourceAmount.1 w w') (checks : w'.violated = none) :
      Commit env (.execute payload inputs) a
        { settledDb a c payload.eventId row .FAILURE inputs with
          wallets := a.wallets.insert (row.userId, row.sourceAsset) w' }
  | reconciling {payload : ConversionExecutionRequestedPayload} {inputs : ExecuteInputs} {a : Db}
      {c : String} {row : ConversionRow} (settles : Settles a payload c row .UNKNOWN) :
      Commit env (.execute payload inputs) a (settledDb a c payload.eventId row .UNKNOWN inputs)
  | published {id : String} {publishedAt : Date} {a : Db} {row : OutboxRow}
      (lookup : a.outbox.lookup id = some row) (unpublished : row.publishedAt = none) :
      Commit env (.markPublished id publishedAt) a
        { a with outbox := a.outbox.insert id { row with publishedAt := some publishedAt } }
  | cleaned {now : Date} {retentionMs batchSize : ℕ} {place : String → ℕ} {a : Db}
      (keys : List String) :
      Commit env (.cleanup now retentionMs batchSize place) a
        { a with idempotency := keys.foldl (fun t key ↦ t.erase key) a.idempotency }

/-! ### What never changes -/

/-- The columns of a quote that no statement changes, and the lifecycle. -/
def QuoteEvolves (r r' : QuoteRow) : Prop :=
  r' = r ∨ (r.status = .ACTIVE ∧ ∃ at', r' = { r with status := .ACCEPTED, acceptedAt := some at' })

/-- The columns of a conversion that no statement changes, and the lifecycle. -/
def ConversionEvolves (r r' : ConversionRow) : Prop :=
  r' = r ∨
  (r.status = .FUNDS_RESERVED ∧ r' = { r with status := .EXECUTION_REQUESTED }) ∨
  ((r.status = .FUNDS_RESERVED ∨ r.status = .EXECUTION_REQUESTED) ∧
    ∃ outcome now, r' = settledRow r outcome now)

/-- An outbox row is marked as published once. -/
def OutboxEvolves (r r' : OutboxRow) : Prop :=
  r' = r ∨ (r.publishedAt = none ∧ ∃ at', r' = { r with publishedAt := some at' })

/-- **What no commit undoes.** -/
structure Evolves (a b : Db) : Prop where
  quotes : ∀ id r, a.quotes.lookup id = some r → ∃ r', b.quotes.lookup id = some r' ∧
    QuoteEvolves r r'
  conversions : ∀ id r, a.conversions.lookup id = some r → ∃ r', b.conversions.lookup id = some r' ∧
    ConversionEvolves r r'
  outbox : ∀ id r, a.outbox.lookup id = some r → ∃ r', b.outbox.lookup id = some r' ∧
    OutboxEvolves r r'
  processed : ∀ id r, a.processed.lookup id = some r → b.processed.lookup id = some r
  exchange : ∀ id r, a.exchange.lookup id = some r → b.exchange.lookup id = some r
  wallets : ∀ key r, a.wallets.lookup key = some r → ∃ r', b.wallets.lookup key = some r' ∧
    r'.id = r.id

/-! ### The tables as an escrow book -/

/-- A conversion holds its source amount until it is paid or returned. -/
def phaseOf : ConversionStatus → Escrow.Phase
  | .FUNDS_RESERVED | .EXECUTION_REQUESTED | .REQUIRES_RECONCILIATION => .held
  | .COMPLETED => .paid
  | .FAILED | .CREATED => .returned

/-- A conversion as a hold on its source wallet, with what its target wallet is to get. -/
def holdOf (row : ConversionRow) : Escrow.Hold (String × String) ℚ where
  source := (row.userId, row.sourceAsset)
  amount := row.sourceAmount.1
  target := (row.userId, row.targetAsset)
  proceeds := row.targetAmount.1
  phase := phaseOf row.status

/-- A wallet row as an account; a missing row is an empty account. -/
def accountOf (wallet : Option WalletRow) : Escrow.Account ℚ :=
  wallet.elim ⟨0, 0⟩ fun w ↦ ⟨w.available.1, w.reserved.1⟩

end Ledger

/-- The wallets and the conversions as an escrow book. -/
def Db.book (db : Db) : Escrow.Book (String × String) String ConversionRow ℚ where
  accounts key := Ledger.accountOf (db.wallets.lookup key)
  rows := db.conversions

namespace Ledger

/-! ### The invariant -/

/-- A conversion has the terms of its quote. -/
structure SameTerms (q : QuoteRow) (c : ConversionRow) : Prop where
  user : c.userId = q.userId
  sourceAsset : c.sourceAsset = q.sourceAsset
  targetAsset : c.targetAsset = q.targetAsset
  sourceAmount : c.sourceAmount = q.sourceAmount
  targetAmount : c.targetAmount = q.targetAmount

/-- An outbox row is the event of a conversion. -/
structure Announces (env : Platform) (e : String) (o : OutboxRow) (c : String)
    (row : ConversionRow) : Prop where
  eventType : o.eventType = "ConversionExecutionRequested"
  aggregateId : o.aggregateId = c
  payloadEventId : o.payload.eventId = e
  payloadEventType : o.payload.eventType = "ConversionExecutionRequested"
  conversionId : o.payload.conversionId = c
  user : o.payload.userId = row.userId
  sourceAsset : o.payload.sourceAsset = row.sourceAsset
  targetAsset : o.payload.targetAsset = row.targetAsset
  sourceAmount : Denotes o.payload.sourceAmount.toList row.sourceAmount.1
  targetAmount : Denotes o.payload.targetAmount.toList row.targetAmount.1
  occurredAt : env.parsesDate o.payload.occurredAt = true

/-- A quote row is the image of a quote; once accepted, it has its conversion. -/
structure QuoteValid (env : Platform) (db : Db) (id : String) (row : QuoteRow) : Prop where
  stored : ∃ q : Quote, q.StoredAs env id row
  checks : row.violated = none
  converted : row.status = .ACCEPTED → ∃ c r, db.conversions.lookup c = some r ∧ r.quoteId = id

/-- A conversion row is the image of a conversion, has the terms of its accepted quote, and its
event; once it is terminal, the event was processed with the outcome the exchange recorded. -/
structure ConversionValid (env : Platform) (db : Db) (c : String) (row : ConversionRow) : Prop where
  stored : ∃ conversion : Conversion, conversion.StoredAs env c row
  checks : row.violated = none
  notCreated : row.status ≠ .CREATED
  quote : ∃ q, db.quotes.lookup row.quoteId = some q ∧ q.status = .ACCEPTED ∧ SameTerms q row
  event : ∃ e o, row.exchangeExecutionId = some e ∧ db.outbox.lookup e = some o ∧
    Announces env e o c row
  settled : row.status.isTerminal = true → ∃ e p outcome, row.exchangeExecutionId = some e ∧
    db.processed.lookup e = some p ∧ p.conversionId = c ∧ p.outcome = outcome ∧
    row.status = statusOf outcome ∧
    db.exchange.lookup e = some (exchangeRow e c row outcome)

/-- An outbox row belongs to the conversion bound to it. -/
def OutboxValid (db : Db) (e : String) (o : OutboxRow) : Prop :=
  ∃ row, db.conversions.lookup o.aggregateId = some row ∧ row.exchangeExecutionId = some e

/-- A processed event belongs to a conversion that was settled with its outcome. -/
def ProcessedValid (db : Db) (e : String) (p : ProcessedRow) : Prop :=
  ∃ row, db.conversions.lookup p.conversionId = some row ∧ row.exchangeExecutionId = some e ∧
    row.status = statusOf p.outcome

/-- An exchange row is the order of a conversion whose execution was requested. -/
def ExchangeValid (db : Db) (e : String) (x : ExchangeRow) : Prop :=
  ∃ row, db.conversions.lookup x.conversionId = some row ∧ row.exchangeExecutionId = some e ∧
    row.status ≠ .FUNDS_RESERVED ∧ x = exchangeRow e x.conversionId row x.outcome

/-- An idempotency record is completed and names a conversion of the quote it was made for. -/
structure RecordValid (env : Platform) (db : Db) (rec : IdempotencyRow) : Prop where
  scope : rec.scope = AcceptQuoteUseCase.ACCEPT_QUOTE_SCOPE
  status : rec.responseStatus = some 201
  completed : ∃ c row body, rec.conversionId = some c ∧ rec.responseBody = some body ∧
    db.conversions.lookup c = some row ∧ body.conversionId = c ∧ body.quoteId = row.quoteId ∧
    rec.requestHash = AcceptQuoteUseCase.requestHash env row.quoteId

/-- What the wallets held at the beginning. -/
def openingBalance (wallets : Table (String × String) WalletRow) (key : String × String) : ℚ :=
  (accountOf (wallets.lookup key)).available

/-- Every wallet belongs to a user and a registered asset, and can be read back. -/
def ReadableWallets (env : Platform) (wallets : Table (String × String) WalletRow) : Prop :=
  ∀ key w, wallets.lookup key = some w → ∃ (userId : UserId) (asset : Asset),
    asset ∈ env.registry.assets ∧ key = (userId.value, asset.code) ∧ w.Readable asset

/-- **The invariant of the committed tables.** -/
structure Valid (env : Platform) (opening : Table (String × String) WalletRow)
    (db : Db) : Prop where
  quotes : ∀ id row, db.quotes.lookup id = some row → QuoteValid env db id row
  conversions : ∀ c row, db.conversions.lookup c = some row → ConversionValid env db c row
  outbox : ∀ e o, db.outbox.lookup e = some o → OutboxValid db e o
  processed : ∀ e p, db.processed.lookup e = some p → ProcessedValid db e p
  exchange : ∀ e x, db.exchange.lookup e = some x → ExchangeValid db e x
  records : ∀ key rec, db.idempotency.lookup key = some rec → RecordValid env db rec
  oneConversion : ∀ c c' r r', db.conversions.lookup c = some r →
    db.conversions.lookup c' = some r' → r.quoteId = r'.quoteId → c = c'
  wallets : ∀ key w, db.wallets.lookup key = some w → w.violated = none
  readable : ReadableWallets env opening → ReadableWallets env db.wallets
  book : db.book.Balanced holdOf (openingBalance opening)

end Ledger

end WalletConversion
