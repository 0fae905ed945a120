import WalletConversion.Ledger.Contract

/-!
# The accept transaction keeps the contract

The proof follows the transaction statement by statement, from its last part to its first
(`finish_wp`, `convert_wp`, `claimed_wp`, `work_wp`). Between two statements anything may happen
that the locks taken so far allow; what a part needs of the tables is its hypothesis, and the lemmas
`…_of_rely` carry it over.

What an accept has done when it answers is `AcceptAnswer`:

* `created`: it committed the record of its key, with the body it answers;
* `replay`: it wrote nothing, and answers the body of a committed record of its key with its hash;
* an error: it wrote nothing, and the error is never `IDEMPOTENCY_IN_PROGRESS`.
-/

namespace WalletConversion

open DecimalNotation Transactional Relation

namespace Ledger

variable {env : Platform} {opening : Table (String × String) WalletRow}
  {observed : Db → Db → Prop} {t : Task} {held : List LockKey} {a b db : Db}

/-! ### Locked rows -/

/-- Nobody writes a record whose key is held. -/
theorem idempotency_of_rely {C : Contract postgres Task} (h : C.Rely t held a b) {key : String}
    (hk : .idempotency key ∈ held) : b.idempotency.lookup key = a.idempotency.lookup key :=
  (h.same hk).symm

/-- Nobody writes a quote that is held. -/
theorem quote_of_rely {C : Contract postgres Task} (h : C.Rely t held a b) {id : String}
    (hk : .quote id ∈ held) : b.quotes.lookup id = a.quotes.lookup id :=
  (h.same hk).symm

/-- Nobody writes a wallet that is held. -/
theorem wallet_of_rely {C : Contract postgres Task} (h : C.Rely t held a b) {userId asset : String}
    (hk : .wallet userId asset ∈ held) :
    b.wallets.lookup (userId, asset) = a.wallets.lookup (userId, asset) :=
  (h.same hk).symm

/-! ### Records -/

/-- The record was in valid tables, and these have changed as observed since. -/
def Recorded (env : Platform) (opening : Table (String × String) WalletRow)
    (observed : Db → Db → Prop) (key : String) (rec : IdempotencyRow) (db : Db) : Prop :=
  ∃ db₀, Valid env opening db₀ ∧ db₀.idempotency.lookup key = some rec ∧ Evolves db₀ db ∧
    ReflTransGen observed db₀ db

theorem Recorded.of_rely {key : String} {rec : IdempotencyRow}
    (h : Recorded env opening observed key rec a)
    (hr : (ledger env opening observed).Rely t held a b) :
    Recorded env opening observed key rec b := by
  obtain ⟨db₀, hvalid, hrec, hev, hobs⟩ := h
  exact ⟨db₀, hvalid, hrec, hev.trans (evolves_of_rely hr), hobs.trans (observed_of_rely hr)⟩

/-- What an accept has done when it answers. -/
def AcceptAnswer (env : Platform) (opening : Table (String × String) WalletRow)
    (observed : Db → Db → Prop) (command : AcceptQuoteCommand) (inputs : AcceptInputs)
    (r : Except Thrown AcceptQuoteResult) (durable : List Write) (db : Db) : Prop :=
  match r with
  | .ok (.created body) => durable ≠ [] ∧ ∃ rec,
      Recorded env opening observed (trim command.idempotencyKey) rec db ∧
      rec.requestHash = AcceptQuoteUseCase.requestHash env (trim command.quoteId) ∧
      rec.responseBody = some body ∧ rec.conversionId = some inputs.conversionId.value
  | .ok (.replay statusCode body) => durable = [] ∧ statusCode = 201 ∧ ∃ rec,
      Recorded env opening observed (trim command.idempotencyKey) rec db ∧
      rec.requestHash = AcceptQuoteUseCase.requestHash env (trim command.quoteId) ∧
      rec.responseBody = some body
  | .ok (.error _ errorCode _) => durable = [] ∧ errorCode ≠ "IDEMPOTENCY_IN_PROGRESS"
  | .error _ => durable = []

/-- What the accept transaction has collected at the end of its body. -/
def AcceptBody (env : Platform) (opening : Table (String × String) WalletRow)
    (observed : Db → Db → Prop) (command : AcceptQuoteCommand) (inputs : AcceptInputs)
    (r : Except Thrown AcceptQuoteResult) (o : Option (List Write)) (durable : List Write)
    (db : Db) : Prop :=
  durable = [] ∧ Valid env opening db ∧ ∃ vs, o = some vs ∧
    match r with
    | .ok (.created body) => vs ≠ [] ∧ ∃ quote row w',
        postgres.applyAll db vs = acceptedDb env db command inputs quote row w' ∧
        Commit env (.acceptQuote command inputs) db
          (acceptedDb env db command inputs quote row w') ∧
        body = AcceptQuoteUseCase.successBody quote (reservedConversion quote inputs)
    | .ok (.replay statusCode body) => vs = [] ∧
        AcceptAnswer env opening observed command inputs (.ok (.replay statusCode body)) [] db
    | .ok (.error _ errorCode _) => vs = [] ∧ errorCode ≠ "IDEMPOTENCY_IN_PROGRESS"
    | .error (.acceptAborted _ errorCode _) => errorCode ≠ "IDEMPOTENCY_IN_PROGRESS"
    | .error (.error _) => True

section Accept

-- the statements of a program do not depend on how rows are read back or dates are written
attribute [local irreducible] PrismaQuoteRepository.toDomain PrismaWalletRepository.toDomain
  Date.timestampText

variable {command : AcceptQuoteCommand} {inputs : AcceptInputs}

/-- The key is taken: the record is completed, so the answer is a replay or a refusal. -/
theorem existing_wp :
    (ledger env opening observed).wp (.acceptQuote command inputs)
      (AcceptQuoteUseCase.existing (trim command.idempotencyKey)
        (AcceptQuoteUseCase.requestHash env (trim command.quoteId)))
      (AcceptBody env opening observed command inputs) (some []) [] db := by
  refine wp_read (s := .findIdempotency (trim command.idempotencyKey)) fun db' hr hi ↦
    ⟨db'.idempotency.lookup (trim command.idempotencyKey), fun _ ↦ rfl, ?_⟩
  rcases hrec : db'.idempotency.lookup (trim command.idempotencyKey) with - | rec
  · exact Contract.wp_ret fun _ _ hi' ↦ ⟨rfl, hi', [], rfl, rfl, by decide⟩
  · obtain ⟨c, row, body, -, hbody, -⟩ := (hi.records _ rec hrec).completed
    have hstatus := (hi.records _ rec hrec).status
    obtain ⟨scope, hash, _, _, conversionId, createdAt⟩ := rec
    cases hstatus
    cases hbody
    show Contract.wp _ _ (ite _ _ _) _ _ _ _
    by_cases hhash : hash = AcceptQuoteUseCase.requestHash env (trim command.quoteId)
    · rw [if_neg (not_not_intro hhash)]
      exact Contract.wp_ret fun db'' hr' hi' ↦ ⟨rfl, hi', [], rfl, rfl, rfl, rfl, _,
        ⟨db', hi, hrec, evolves_of_rely hr', observed_of_rely hr'⟩, hhash, rfl⟩
    · rw [if_pos hhash]
      exact Contract.wp_ret fun _ _ hi' ↦ ⟨rfl, hi', [], rfl, rfl, by decide⟩

/-! ### The domain steps -/

/-- The conversion of a quote that is worth something is created. -/
theorem create_eq {q : Quote} (htarget : q.targetAmount.amount ≠ 0) :
    Conversion.create inputs.conversionId q.id q.userId q.sourceAmount q.targetAmount inputs.now =
      .ok (createdConversion q inputs) := by
  have hsource : ¬ q.sourceAmount.isZero = true := by simpa [Money.isZero] using q.positive
  have htarget' : ¬ q.targetAmount.isZero = true := by simpa [Money.isZero] using htarget
  have hne : ¬ q.sourceAmount.asset.code = q.targetAmount.asset.code :=
    (createdConversion q inputs).distinct
  rw [Conversion.create, if_neg hsource, if_neg htarget', Conversion.new, dif_neg hne]
  rfl

/-- A new conversion holds its reservation. -/
theorem markFundsReserved_created (q : Quote) :
    Conversion.markFundsReserved.call (createdConversion q inputs) =
      .ok { createdConversion q inputs with status := .FUNDS_RESERVED } := by
  simp [Conversion.markFundsReserved, Mutation.call, Mutation.bind_apply, createdConversion]

/-- And it is bound to its event. -/
theorem bindExecutionEvent_created (q : Quote) :
    (Conversion.bindExecutionEvent inputs.eventId.value).call
      { createdConversion q inputs with status := .FUNDS_RESERVED } =
      .ok (reservedConversion q inputs) := by
  simp [Conversion.bindExecutionEvent, Mutation.call, Mutation.bind_apply, createdConversion,
    reservedConversion, inputs.eventId.trimmed, inputs.eventId.nonempty]

/-- The outbox message of an accept. -/
def eventMessage (q : Quote) (inputs : AcceptInputs) : OutboxMessage where
  id := inputs.eventId.value
  eventType := "ConversionExecutionRequested"
  aggregateId := inputs.conversionId.value
  payload := AcceptQuoteUseCase.eventPayload q (reservedConversion q inputs) inputs.eventId.value
    inputs.now
  createdAt := inputs.now
  publishedAt := none

/-- The event of a reserved conversion is as its row says. -/
theorem createConversionExecutionRequested_eq (q : Quote) :
    OutboxMessage.createConversionExecutionRequested inputs.eventId.value
      (AcceptQuoteUseCase.eventPayload q (reservedConversion q inputs) inputs.eventId.value
        inputs.now) inputs.now = .ok (eventMessage q inputs) := by
  have htype : (AcceptQuoteUseCase.eventPayload q (reservedConversion q inputs)
      inputs.eventId.value inputs.now).eventType = "ConversionExecutionRequested" := rfl
  have hid : (AcceptQuoteUseCase.eventPayload q (reservedConversion q inputs)
      inputs.eventId.value inputs.now).eventId = inputs.eventId.value := rfl
  rw [OutboxMessage.createConversionExecutionRequested, if_neg (not_not_intro htype),
    if_neg (not_not_intro hid)]
  rfl

/-- The statements of the last part. -/
theorem finish_eq (key : String) (q : Quote) :
    AcceptQuoteUseCase.finish key q (createdConversion q inputs) inputs =
      .call (.upsertConversion (PrismaConversionRepository.data (reservedConversion q inputs)))
        fun _ ↦ .call (.createOutbox (eventMessage q inputs)) fun _ ↦
          (PrismaIdempotencyRepository.complete AcceptQuoteUseCase.ACCEPT_QUOTE_SCOPE key 201
            (AcceptQuoteUseCase.successBody q (reservedConversion q inputs))
            inputs.conversionId.value).handle (fun _ ↦
              .ret (.created (AcceptQuoteUseCase.successBody q (reservedConversion q inputs))))
            .raise := by
  simp only [AcceptQuoteUseCase.finish, Prog.bind_eq_handle, markFundsReserved_created,
    bindExecutionEvent_created, createConversionExecutionRequested_eq, attempt_ok, Prog.handle_ret,
    PrismaConversionRepository.save, PrismaOutboxRepository.enqueue, sql, Prog.handle_stmt]
  rfl

/-- The statement of `saveAccepted`. -/
theorem saveAccepted_eq (q : Quote) :
    PrismaQuoteRepository.saveAccepted env (q.accepted inputs.now) inputs.now =
      .call (.acceptQuote q.id.value inputs.now inputs.now) fun row ↦
        match row with
        | none => .ret none
        | some row => (attempt (PrismaQuoteRepository.toDomain env q.id.value row)).handle
          (fun q' ↦ .ret (some q')) .raise := by
  show Prog.call _ _ = _
  congr 1
  funext row
  cases row <;> rfl

/-- The statement of `reserve`. -/
theorem reserve_eq (userId : UserId) (asset : Asset) (m : Money) :
    PrismaWalletRepository.reserve env userId asset m =
      .call (.reserveWallet userId.value asset.code m.toString) fun row ↦
        match row with
        | none => .ret .insufficientOrConflict
        | some row => (attempt (PrismaWalletRepository.toDomain env userId.value asset.code
          row)).handle (fun wallet ↦ .ret (.reserved wallet)) .raise := by
  show Prog.call _ _ = _
  congr 1

/-- The statements of the middle part. -/
theorem convert_eq (key : String) {q : Quote} (htarget : q.targetAmount.amount ≠ 0) :
    AcceptQuoteUseCase.convert env key (q.accepted inputs.now) inputs =
      .call (.acceptQuote q.id.value inputs.now inputs.now) fun row ↦
        match row with
        | none => AcceptQuoteUseCase.abort 409 "QUOTE_ACCEPT_CONFLICT"
            "Quote could not be accepted (expired or already accepted concurrently)"
        | some row => (attempt (PrismaQuoteRepository.toDomain env q.id.value row)).handle
          (fun _ ↦ .call (.upsertConversion
              (PrismaConversionRepository.data (createdConversion q inputs))) fun _ ↦
            .call (.reserveWallet q.userId.value q.sourceAmount.asset.code
              q.sourceAmount.toString) fun row ↦
              match row with
              | none => AcceptQuoteUseCase.abort 409 "INSUFFICIENT_AVAILABLE_BALANCE"
                  (s!"Insufficient available {q.sourceAsset.code} balance to reserve " ++
                    trimTrailingZeros q.sourceAmount.toString)
              | some row => (attempt (PrismaWalletRepository.toDomain env q.userId.value
                  q.sourceAmount.asset.code row)).handle
                (fun _ ↦ AcceptQuoteUseCase.finish key (q.accepted inputs.now)
                  (createdConversion q inputs) inputs) .raise) .raise := by
  have hcreate : Conversion.create inputs.conversionId (q.accepted inputs.now).id
      (q.accepted inputs.now).userId (q.accepted inputs.now).sourceAmount
      (q.accepted inputs.now).targetAmount inputs.now = .ok (createdConversion q inputs) :=
    create_eq htarget
  simp only [AcceptQuoteUseCase.convert, Prog.bind_eq_handle, saveAccepted_eq, Prog.handle_call]
  congr 1
  funext row
  cases row with
  | none => rfl
  | some row =>
    simp only [Prog.handle_handle, Prog.handle_ret, Prog.handle_raise, ConversionId.of_value,
      attempt_ok, hcreate, PrismaConversionRepository.save, sql, Prog.handle_stmt, reserve_eq,
      Prog.handle_call]
    congr 1
    funext _
    congr 1
    funext _
    show Prog.call _ _ = Prog.call _ _
    congr 1
    funext row
    cases row with
    | none => rfl
    | some row => simp only [Prog.handle_handle, Prog.handle_ret, Prog.handle_raise]; rfl

/-! ### The transaction -/

/-- A call that has its key to itself. -/
structure Claimed (command : AcceptQuoteCommand) (inputs : AcceptInputs) (db : Db) : Prop where
  valid : AcceptQuoteUseCase.refused command = none
  fresh : (Task.acceptQuote command inputs).Fresh db
  unclaimed : db.idempotency.lookup (trim command.idempotencyKey) = none

/-- A key that was claimed stays so while it is held. -/
theorem Claimed.of_rely (h : Claimed command inputs a)
    (hr : (ledger env opening observed).Rely (.acceptQuote command inputs) held a b)
    (hkey : .idempotency (trim command.idempotencyKey) ∈ held) : Claimed command inputs b where
  valid := h.valid
  fresh := fresh_of_rely hr h.fresh
  unclaimed := (idempotency_of_rely hr hkey).trans h.unclaimed

/-- A quote that was read active and in time. -/
structure Acceptable (env : Platform) (command : AcceptQuoteCommand) (inputs : AcceptInputs)
    (q : Quote) (row : QuoteRow) : Prop where
  stored : q.StoredAs env (trim command.quoteId) row
  active : row.status = .ACTIVE
  inTime : inputs.now.getTime ≤ row.expiresAt.getTime
  checks : row.violated = none

/-- The quote is still active, and locked. -/
structure Accepting (env : Platform) (command : AcceptQuoteCommand) (inputs : AcceptInputs)
    (q : Quote) (row : QuoteRow) (db : Db) : Prop
    extends Claimed command inputs db, Acceptable env command inputs q row where
  lookup : db.quotes.lookup (trim command.quoteId) = some row

/-- What an accept has found stays so while it holds the quote. -/
theorem Accepting.of_rely {q : Quote} {row : QuoteRow} (h : Accepting env command inputs q row a)
    (hr : (ledger env opening observed).Rely (.acceptQuote command inputs) held a b)
    (hkey : .idempotency (trim command.idempotencyKey) ∈ held)
    (hquote : .quote (trim command.quoteId) ∈ held) : Accepting env command inputs q row b where
  toClaimed := h.toClaimed.of_rely hr hkey
  toAcceptable := h.toAcceptable
  lookup := (quote_of_rely hr hquote).trans h.lookup

/-- The claim of the key. -/
def claimRow (env : Platform) (command : AcceptQuoteCommand) (inputs : AcceptInputs) :
    IdempotencyRow where
  scope := AcceptQuoteUseCase.ACCEPT_QUOTE_SCOPE
  requestHash := AcceptQuoteUseCase.requestHash env (trim command.quoteId)
  responseStatus := none
  responseBody := none
  conversionId := none
  createdAt := inputs.databaseNow

/-- The writes up to the reservation of the funds. -/
def reservingWrites (env : Platform) (command : AcceptQuoteCommand) (inputs : AcceptInputs)
    (row : QuoteRow) (w' : WalletRow) : List Write :=
  [.putIdempotency (trim command.idempotencyKey) (claimRow env command inputs),
    .putQuote (trim command.quoteId) (acceptedRow row inputs),
    .insertConversion inputs.conversionId.value (createdRow (trim command.quoteId) row inputs),
    .putWallet row.userId row.sourceAsset w']

/-- The locks taken up to the reservation of the funds. -/
def reservingKeys (command : AcceptQuoteCommand) (inputs : AcceptInputs) (row : QuoteRow) :
    List LockKey :=
  [.idempotency (trim command.idempotencyKey), .quote (trim command.quoteId),
    .conversionId inputs.conversionId.value, .conversionQuote (trim command.quoteId),
    .wallet row.userId row.sourceAsset]

theorem keysOf_reservingWrites (row : QuoteRow) (w' : WalletRow) :
    postgres.keysOf (reservingWrites env command inputs row w') =
      reservingKeys command inputs row := rfl

/-- The funds are there and locked. -/
structure Reserving (env : Platform) (command : AcceptQuoteCommand) (inputs : AcceptInputs)
    (q : Quote) (row : QuoteRow) (w : WalletRow) (db : Db) : Prop
    extends Accepting env command inputs q row db where
  wallet : db.wallets.lookup (row.userId, row.sourceAsset) = some w

/-- What an accept has found stays so while it holds the wallet. -/
theorem Reserving.of_rely {q : Quote} {row : QuoteRow} {w : WalletRow}
    (h : Reserving env command inputs q row w a)
    (hr : (ledger env opening observed).Rely (.acceptQuote command inputs) held a b)
    (hheld : ∀ key ∈ reservingKeys command inputs row, key ∈ held) :
    Reserving env command inputs q row w b where
  toAccepting := h.toAccepting.of_rely hr (hheld _ (by simp [reservingKeys]))
    (hheld _ (by simp [reservingKeys]))
  wallet := (wallet_of_rely hr (hheld _ (by simp [reservingKeys]))).trans h.wallet

/-- The view after the reservation. -/
theorem applyAll_reservingWrites {row : QuoteRow} {w' : WalletRow}
    (hnew : db.conversions.lookup inputs.conversionId.value = none) :
    postgres.applyAll db (reservingWrites env command inputs row w') =
      { db with
        wallets := db.wallets.insert (row.userId, row.sourceAsset) w'
        quotes := db.quotes.insert (trim command.quoteId) (acceptedRow row inputs)
        conversions := db.conversions.insert inputs.conversionId.value
          (createdRow (trim command.quoteId) row inputs)
        idempotency := db.idempotency.insert (trim command.idempotencyKey)
          (claimRow env command inputs) } := by
  simp only [reservingWrites, Store.applyAll_cons, Store.applyAll_nil, postgres_apply, Db.write,
    hnew, if_true]

/-- The writes of a whole accept. -/
def acceptWrites (env : Platform) (command : AcceptQuoteCommand) (inputs : AcceptInputs)
    (q : Quote) (row : QuoteRow) (w' : WalletRow) : List Write :=
  reservingWrites env command inputs row w' ++
    [.updateConversion inputs.conversionId.value (reservedRow (trim command.quoteId) row inputs),
      .putOutbox inputs.eventId.value (eventRow q inputs),
      .putIdempotency (trim command.idempotencyKey)
        (recordRow env (trim command.quoteId) q inputs)]

/-- **The writes of an accept are its commit.** -/
theorem applyAll_acceptWrites {q : Quote} {row : QuoteRow} {w' : WalletRow}
    (hnew : db.conversions.lookup inputs.conversionId.value = none) :
    postgres.applyAll db (acceptWrites env command inputs q row w') =
      acceptedDb env db command inputs q row w' := by
  rw [acceptWrites, postgres.applyAll_append, applyAll_reservingWrites hnew]
  simp only [Store.applyAll_cons, Store.applyAll_nil, postgres_apply, Db.write,
    Finmap.lookup_insert, reduceCtorEq, if_false, Finmap.insert_insert, acceptedDb]

/-- A valid command has a key that is not blank. -/
theorem nonBlank_key (h : AcceptQuoteUseCase.refused command = none) :
    nonBlank (trim command.idempotencyKey) = true := by
  have hascii : AcceptQuoteUseCase.isVisibleAscii (trim command.idempotencyKey) = true := by
    unfold AcceptQuoteUseCase.refused at h
    simp only at h
    split_ifs at h with h₁ h₂ h₃
    rw [not_or, Bool.not_eq_false] at h₃
    exact h₃.2
  simp only [AcceptQuoteUseCase.isVisibleAscii, decide_eq_true_eq] at hascii
  obtain ⟨hne, hall⟩ := hascii
  obtain ⟨c, hc⟩ := List.exists_mem_of_ne_nil _ hne
  refine List.any_eq_true.2 ⟨c, hc, ?_⟩
  have hvisible := List.all_eq_true.1 hall c hc
  rw [decide_eq_true_eq]
  rintro rfl
  simp at hvisible

theorem nonBlank_scope : nonBlank AcceptQuoteUseCase.ACCEPT_QUOTE_SCOPE = true := by decide

/-- **The last part**: the conversion is bound to its event, the event is written, and the record is
completed. -/
theorem finish_wp {q : Quote} {row : QuoteRow} {w w' : WalletRow}
    (h : Reserving env command inputs q row w db)
    (hreserves : Reserves row.sourceAmount.1 w w') (hchecks : w'.violated = none) :
    (ledger env opening observed).wp (.acceptQuote command inputs)
      (AcceptQuoteUseCase.finish (trim command.idempotencyKey) (q.accepted inputs.now)
        (createdConversion q inputs) inputs)
      (AcceptBody env opening observed command inputs)
      (some (reservingWrites env command inputs row w')) [] db := by
  -- accepting the quote has not changed its terms
  have hcreated : createdConversion q inputs = createdConversion (q.accepted inputs.now) inputs :=
    rfl
  rw [hcreated, finish_eq]
  -- the conversion moves on from CREATED and is bound to its event
  refine wp_statement fun db₁ hr₁ _ ↦ ⟨(), [.updateConversion inputs.conversionId.value
    (reservedRow (trim command.quoteId) row inputs)], fun locked ↦ ?_,
      .of_lt (fun _ _ ↦ trivial) ?_, ?_⟩
  · rw [applyAll_reservingWrites (h.of_rely hr₁ fun _ ↦ id).fresh.1]
    have hstorable : (q.accepted inputs.now).Storable := { h.stored.storable with }
    exact exec_saveConversion_old (storable_reserved hstorable) (Finmap.lookup_insert _) rfl
      (reservedRow_checks h.checks) locked
  · simp [keysOf_reservingWrites, reservingKeys, Write.keys, LockKey.rank]
  have h₁ := h.of_rely hr₁ fun _ ↦ id
  -- the event is written
  refine wp_statement fun db₂ hr₂ _ ↦ ⟨(), [.putOutbox inputs.eventId.value (eventRow q inputs)],
    fun locked ↦ exec_createOutbox rfl ?_ locked, .of_lt (fun _ _ ↦ trivial) ?_, ?_⟩
  · have h₂ := h₁.of_rely hr₂ fun _ hk ↦ by simp [Store.keysOf_append, keysOf_reservingWrites, hk]
    rw [postgres.applyAll_append, applyAll_reservingWrites h₂.fresh.1]
    simpa [Db.write, eventMessage] using h₂.fresh.2
  · simp [Store.keysOf_append, keysOf_reservingWrites, reservingKeys, Write.keys, LockKey.rank]
  have h₂ := h₁.of_rely hr₂ fun _ hk ↦ by simp [Store.keysOf_append, keysOf_reservingWrites, hk]
  -- the record is completed; its key is locked since the claim
  refine wp_statement fun db₃ hr₃ _ ↦ ⟨(1 : ℕ), [.putIdempotency (trim command.idempotencyKey)
    (recordRow env (trim command.quoteId) q inputs)], fun locked ↦ ?_, ?_, ?_⟩
  · have h₃ := h₂.of_rely hr₃ fun _ hk ↦ by simp [Store.keysOf_append, keysOf_reservingWrites, hk]
    have hclaim : (postgres.applyAll db₃ (reservingWrites env command inputs row w' ++
        [.updateConversion inputs.conversionId.value
          (reservedRow (trim command.quoteId) row inputs)] ++
        [.putOutbox inputs.eventId.value (eventRow q inputs)])).idempotency.lookup
        (trim command.idempotencyKey) = some (claimRow env command inputs) := by
      rw [postgres.applyAll_append, postgres.applyAll_append,
        applyAll_reservingWrites h₃.fresh.1]
      simp [Db.write]
    exact exec_completeIdempotency hclaim nonBlank_scope (nonBlank_key h.valid)
      (env.nonBlank_sha256Hex _) locked
  · refine ⟨fun _ _ ↦ trivial, fun key hkey held _ ↦ Or.inl ?_⟩
    simp only [Store.keysOf_cons, Store.keysOf_nil, postgres_keys, Write.keys, List.append_nil,
      List.mem_singleton] at hkey
    rw [hkey]
    simp [Store.keysOf_append, keysOf_reservingWrites, reservingKeys]
  have h₃ := h₂.of_rely hr₃ fun _ hk ↦ by simp [Store.keysOf_append, keysOf_reservingWrites, hk]
  refine Contract.wp_ret fun db₄ hr₄ hi₄ ↦ ?_
  have h₄ := h₃.of_rely hr₄ fun _ hk ↦ by simp [Store.keysOf_append, keysOf_reservingWrites, hk]
  refine ⟨rfl, hi₄, acceptWrites env command inputs q row w', rfl, by
    simp [acceptWrites], q, row, w',
    applyAll_acceptWrites h₄.fresh.1, ?_, rfl⟩
  exact .accepted h₄.valid h₄.unclaimed h₄.lookup h₄.stored h₄.active h₄.inTime h₄.fresh.1
    h₄.fresh.2 h₄.wallet hreserves hchecks

/-- An aborted accept has collected writes for nothing. -/
theorem abort_wp {vs : List Write} {statusCode : ℕ} {errorCode message : String}
    (h : errorCode ≠ "IDEMPOTENCY_IN_PROGRESS") :
    (ledger env opening observed).wp (.acceptQuote command inputs)
      (AcceptQuoteUseCase.abort statusCode errorCode message)
      (AcceptBody env opening observed command inputs) (some vs) [] db :=
  Contract.wp_raise fun _ _ hi ↦ ⟨rfl, hi, vs, rfl, h⟩

/-- **The middle part**: the quote is accepted, the conversion is created, and the funds are
reserved. -/
theorem convert_wp {q : Quote} {row : QuoteRow} (h : Claimed command inputs db)
    (hq : Acceptable env command inputs q row)
    (hrow : ∃ r, db.quotes.lookup (trim command.quoteId) = some r ∧ QuoteEvolves row r) :
    (ledger env opening observed).wp (.acceptQuote command inputs)
      (AcceptQuoteUseCase.convert env (trim command.idempotencyKey) (q.accepted inputs.now) inputs)
      (AcceptBody env opening observed command inputs)
      (some [.putIdempotency (trim command.idempotencyKey) (claimRow env command inputs)])
        [] db := by
  have hid : q.id.value = trim command.quoteId := hq.stored.id_eq.symm
  have htarget : q.targetAmount.amount ≠ 0 := by
    have hpos := (QuoteRow.violated_eq_none.1 hq.checks).1.2.1
    rw [hq.stored.target.amount_eq] at hpos
    exact hpos.ne'
  rw [convert_eq _ htarget, hid, ← hq.stored.user_eq, ← hq.stored.source.code_eq]
  -- the conditional update decides between this accept and others of the same quote
  refine wp_statement fun db₁ hr₁ hi₁ ↦ ?_
  have h₁ := h.of_rely hr₁ (by simp [Write.keys])
  obtain ⟨r, hr, hev⟩ := hrow
  obtain ⟨r₁, hrow₁, hev₁⟩ := (evolves_of_rely hr₁).quotes _ r hr
  rcases hev.trans hev₁ with rfl | ⟨-, at', rfl⟩
  swap
  · refine ⟨none, [], exec_acceptQuote_of_not_active hrow₁ (by simp), .nil_right _ _ _, ?_⟩
    exact abort_wp (by decide)
  refine ⟨some (acceptedRow r₁ inputs), [.putQuote (trim command.quoteId) (acceptedRow r₁ inputs)],
    exec_acceptQuote hrow₁ hq.active hq.inTime (acceptedRow_checks hq.checks),
    .of_lt (fun _ _ ↦ trivial) (by simp [Write.keys, LockKey.rank]), ?_⟩
  have hac₁ : Accepting env command inputs q r₁ db₁ := ⟨h₁, hq, hrow₁⟩
  dsimp only
  rw [(stored_accepted hq.stored).toDomain, attempt_ok]
  -- the quote was active, so it has no conversion
  refine wp_statement fun db₂ hr₂ hi₂ ↦ ?_
  have hac₂ := hac₁.of_rely hr₂ (by simp [Write.keys]) (by simp [Write.keys])
  refine ⟨(), [.insertConversion inputs.conversionId.value
    (createdRow (trim command.quoteId) r₁ inputs)], fun locked ↦ ?_,
    .of_lt (fun _ _ ↦ trivial) (by simp [Write.keys, LockKey.rank]), ?_⟩
  · refine exec_saveConversion_new (stored_created hq.stored) (createdRow_checks hq.checks) ?_ ?_
      locked
    · simpa [Db.write] using hac₂.fresh.1
    · intro c s hs
      exact hi₂.unconverted hac₂.lookup hac₂.active (by simpa [Db.write] using hs)
  -- the funds are reserved, or there are not enough
  refine wp_statement fun db₃ hr₃ hi₃ ↦ ?_
  have hac₃ := hac₂.of_rely hr₃ (by simp [Write.keys]) (by simp [Write.keys])
  have hwallets : (postgres.applyAll db₃ ([.putIdempotency (trim command.idempotencyKey)
      (claimRow env command inputs)] ++
        [.putQuote (trim command.quoteId) (acceptedRow r₁ inputs)] ++
      [.insertConversion inputs.conversionId.value
        (createdRow (trim command.quoteId) r₁ inputs)])).wallets = db₃.wallets := by
    simp only [Store.applyAll_append, Store.applyAll_cons, Store.applyAll_nil, postgres_apply,
      Db.write, hac₃.fresh.1, if_true]
  rcases hw : db₃.wallets.lookup (r₁.userId, r₁.sourceAsset) with - | w
  · refine ⟨none, [], exec_reserveWallet_of_none (hwallets ▸ hw), .nil_right _ _ _, ?_⟩
    exact abort_wp (by decide)
  by_cases hle : q.sourceAmount.amount ≤ w.available.1
  swap
  · refine ⟨none, [], exec_reserveWallet_of_lt (hwallets ▸ hw) hle, .nil_right _ _ _, ?_⟩
    exact abort_wp (by decide)
  obtain ⟨w', hreserves, hchecks, hexec⟩ := exec_reserveWallet hq.stored.source.scale_le
    (hwallets ▸ hw) (hi₃.wallets _ w hw) hle
  refine ⟨some w', _, hexec,
    .of_lt (fun _ _ ↦ trivial) (by simp [Write.keys, LockKey.rank, createdRow]), ?_⟩
  rw [← hq.stored.source.amount_eq] at hreserves
  dsimp only
  rcases PrismaWalletRepository.toDomain env r₁.userId r₁.sourceAsset w' with e | wallet
  · exact Contract.wp_raise fun _ _ hi ↦ ⟨rfl, hi, _, rfl, trivial⟩
  · rw [attempt_ok, Prog.handle_ret]
    exact finish_wp ⟨hac₃, hw⟩ hreserves hchecks

/-- **The first part**: the quote is found, active and in time. -/
theorem claimed_wp (h : Claimed command inputs db) :
    (ledger env opening observed).wp (.acceptQuote command inputs)
      (AcceptQuoteUseCase.claimed env (trim command.quoteId) (trim command.idempotencyKey) inputs)
      (AcceptBody env opening observed command inputs)
      (some [.putIdempotency (trim command.idempotencyKey) (claimRow env command inputs)])
        [] db := by
  have hne : trim command.quoteId ≠ "" := by
    have hvalid := h.valid
    unfold AcceptQuoteUseCase.refused at hvalid
    simp only at hvalid
    split_ifs at hvalid with h₁
    exact fun he ↦ h₁ (Or.inl he)
  have hid : QuoteId.of (trim command.quoteId) = .ok ⟨trim command.quoteId, trim_trim _, hne⟩ :=
    QuoteId.of_value ⟨trim command.quoteId, trim_trim _, hne⟩
  simp only [AcceptQuoteUseCase.claimed, Prog.bind_eq_handle, hid, attempt_ok, Prog.handle_ret,
    PrismaQuoteRepository.findById, sql, Prog.handle_stmt, Prog.handle_call]
  refine wp_read fun db₁ hr₁ hi₁ ↦ ⟨db₁.quotes.lookup (trim command.quoteId), fun _ ↦ rfl, ?_⟩
  rcases hrow : db₁.quotes.lookup (trim command.quoteId) with - | row
  · exact abort_wp (by decide)
  obtain ⟨⟨q, hstored⟩, hchecks, -⟩ := hi₁.quotes _ row hrow
  simp only [hstored.toDomain, attempt_ok, Prog.handle_ret, Prog.pure_eq_ret, Quote.accept_call]
  by_cases hacc : q.status = .ACCEPTED
  · rw [if_pos hacc]
    exact abort_wp (by decide)
  by_cases hexp : q.isExpired inputs.now = true
  · rw [if_neg hacc, if_pos hexp]
    exact abort_wp (by decide)
  rw [if_neg hacc, if_neg hexp]
  have hactive : q.status = .ACTIVE := q.lifecycle.elim And.left fun hq ↦ absurd hq.1 hacc
  refine convert_wp (h.of_rely hr₁ (by simp [Write.keys])) ⟨hstored, ?_, ?_, hchecks⟩
    ⟨row, hrow, .refl row⟩
  · rw [hstored.status_eq, hactive]
  · rw [hstored.expiresAt_eq]
    simpa [Quote.isExpired, hactive] using hexp

/-- The transaction of an accept, branch by branch. -/
theorem work_eq (quoteIdValue key hash : String) :
    AcceptQuoteUseCase.work env quoteIdValue key hash inputs =
      .call (.insertIdempotency AcceptQuoteUseCase.ACCEPT_QUOTE_SCOPE key hash inputs.databaseNow)
        fun won ↦ if won then AcceptQuoteUseCase.claimed env quoteIdValue key inputs
          else AcceptQuoteUseCase.existing key hash := rfl

/-- **The body of the accept transaction.** -/
theorem work_wp (hvalid : AcceptQuoteUseCase.refused command = none)
    (hfresh : (Task.acceptQuote command inputs).Fresh db) :
    (ledger env opening observed).wp (.acceptQuote command inputs)
      (AcceptQuoteUseCase.work env (trim command.quoteId) (trim command.idempotencyKey)
        (AcceptQuoteUseCase.requestHash env (trim command.quoteId)) inputs)
      (AcceptBody env opening observed command inputs) (some []) [] db := by
  rw [work_eq]
  refine wp_statement fun db₁ hr₁ hi₁ ↦ ?_
  rcases hrec : db₁.idempotency.lookup (trim command.idempotencyKey) with - | rec
  · refine ⟨true, [.putIdempotency (trim command.idempotencyKey) (claimRow env command inputs)],
      exec_insertIdempotency_of_none nonBlank_scope (nonBlank_key hvalid)
        (env.nonBlank_sha256Hex _) hrec, .nil_left (fun _ _ ↦ trivial), ?_⟩
    rw [if_pos rfl, List.nil_append]
    exact claimed_wp ⟨hvalid, fresh_of_rely hr₁ hfresh, hrec⟩
  · refine ⟨false, [], exec_insertIdempotency_of_some hrec, .nil_right _ _ _, ?_⟩
    rw [if_neg Bool.false_ne_true, List.nil_append]
    exact existing_wp

/-- The answer survives interference. -/
theorem AcceptAnswer.of_rely {r : Except Thrown AcceptQuoteResult} {durable : List Write}
    (h : AcceptAnswer env opening observed command inputs r durable a)
    (hr : (ledger env opening observed).Rely t held a b) :
    AcceptAnswer env opening observed command inputs r durable b := by
  rcases r with x | (body | ⟨statusCode, body⟩ | ⟨statusCode, errorCode, message⟩)
  · exact h
  · obtain ⟨hdurable, rec, hrec, hrest⟩ := h
    exact ⟨hdurable, rec, hrec.of_rely hr, hrest⟩
  · obtain ⟨hdurable, hstatus, rec, hrec, hrest⟩ := h
    exact ⟨hdurable, hstatus, rec, hrec.of_rely hr, hrest⟩
  · exact h

/-- **The transaction and what follows it.** The result is never `IDEMPOTENCY_IN_PROGRESS`, so
nothing is polled. -/
theorem run_wp (hinv : Valid env opening db)
    (hvalid : AcceptQuoteUseCase.refused command = none)
    (hfresh : (Task.acceptQuote command inputs).Fresh db) :
    (ledger env opening observed).wp (.acceptQuote command inputs)
      (AcceptQuoteUseCase.run env (trim command.quoteId) (trim command.idempotencyKey)
        (AcceptQuoteUseCase.requestHash env (trim command.quoteId)) inputs)
      (fun r o d db ↦ o = none ∧ AcceptAnswer env opening observed command inputs r d db ∧
        ∀ statusCode errorCode message, r = .error (.acceptAborted statusCode errorCode message) →
          errorCode ≠ "IDEMPOTENCY_IN_PROGRESS") none [] db := by
  refine Contract.wp_bind (Contract.wp_transaction
    (Contract.wp_mono (work_wp hvalid hfresh) ?_) hinv) hinv
  rintro r o d db ⟨rfl, hi, vs, rfl, h⟩
  refine ⟨vs, rfl, ?_⟩
  rcases r with (e | ⟨statusCode, errorCode, message⟩) |
    (body | ⟨statusCode, body⟩ | ⟨statusCode, errorCode, message⟩)
  · exact Contract.wp_raise fun _ _ _ ↦ Contract.wp_raise fun _ _ _ ↦ ⟨rfl, rfl, by simp⟩
  · exact Contract.wp_raise fun _ _ _ ↦ Contract.wp_raise fun _ _ _ ↦ ⟨rfl, rfl, by
      rintro _ _ _ ⟨⟩
      exact h⟩
  · -- the record is published together with everything else
    obtain ⟨hne, q, row, w', hdb, hcommit, rfl⟩ := h
    rw [hdb]
    have hi' := hi.of_commit hcommit
    have hrecorded : Recorded env opening observed (trim command.idempotencyKey)
        (recordRow env (trim command.quoteId) q inputs)
        (acceptedDb env db command inputs q row w') :=
      ⟨_, hi', Finmap.lookup_insert _, .refl _, .refl⟩
    refine fun _ ↦ ⟨⟨hdb ▸ hi', hdb ▸ hcommit⟩, Contract.wp_ret fun db₁ hr₁ _ ↦
      Contract.wp_ret fun db₂ hr₂ _ ↦ ⟨rfl, ⟨by simpa using hne, _,
        (hrecorded.of_rely hr₁).of_rely hr₂, rfl, rfl, rfl⟩, by simp⟩⟩
  · obtain ⟨rfl, hanswer⟩ := h
    refine fun _ ↦ ⟨⟨hi, .idle _ _⟩, Contract.wp_ret fun db₁ hr₁ _ ↦
      Contract.wp_ret fun db₂ hr₂ _ ↦ ⟨rfl, ?_, by simp⟩⟩
    exact (hanswer.of_rely hr₁).of_rely hr₂
  · obtain ⟨rfl, hcode⟩ := h
    refine fun _ ↦ ⟨⟨hi, .idle _ _⟩, Contract.wp_ret fun db₁ hr₁ _ ↦ ?_⟩
    dsimp only
    rw [if_neg hcode]
    exact Contract.wp_ret fun db₂ hr₂ _ ↦ ⟨rfl, ⟨rfl, hcode⟩, by simp⟩

/-- **Accepting a quote keeps the contract**, and its answer tells what it has done. -/
theorem acceptQuote_wp (hinv : Valid env opening db)
    (hfresh : (Task.acceptQuote command inputs).Fresh db) :
    (ledger env opening observed).wp (.acceptQuote command inputs)
      (AcceptQuoteUseCase.execute env command inputs)
      (fun r o d db ↦ o = none ∧ AcceptAnswer env opening observed command inputs r d db) none []
      db := by
  rcases hvalid : AcceptQuoteUseCase.refused command with - | result
  · simp only [AcceptQuoteUseCase.execute, hvalid]
    refine Contract.wp_handle (Contract.wp_mono (run_wp hinv hvalid hfresh) ?_) hinv
    rintro r o d db ⟨rfl, hanswer, habort⟩
    rcases r with (e | ⟨statusCode, errorCode, message⟩) | result
    · exact Contract.wp_raise fun _ hr _ ↦ ⟨rfl, hanswer⟩
    · exact Contract.wp_ret fun _ hr _ ↦ ⟨rfl, hanswer, habort _ _ _ rfl⟩
    · exact Contract.wp_ret fun _ hr _ ↦ ⟨rfl, hanswer.of_rely hr⟩
  · simp only [AcceptQuoteUseCase.execute, hvalid]
    refine Contract.wp_ret fun _ _ _ ↦ ⟨rfl, ?_⟩
    unfold AcceptQuoteUseCase.refused at hvalid
    simp only at hvalid
    split_ifs at hvalid <;> cases hvalid <;> exact ⟨rfl, by decide⟩

end Accept

end Ledger

end WalletConversion
