import WalletConversion.Ledger.Accepts
import WalletConversion.Ledger.Steady

/-!
# An accept on arbitrary tables

Nothing is assumed of the tables, so any statement of the accept may find anything, and the proof
follows the statements that have succeeded. What was found and locked is collected in `Acceptance`;
when the transaction is committed, it is still there.
-/

namespace WalletConversion

open DecimalNotation Transactional Relation

namespace Ledger

variable {env : Platform} {command : AcceptQuoteCommand} {inputs : AcceptInputs} {q : Quote}
  {row : QuoteRow} {w w' : WalletRow} {held : List LockKey} {a b db : Db}

/-! ### What lasts -/

/-- The locks of an accept up to the reservation. -/
def acceptanceKeys (command : AcceptQuoteCommand) (q : Quote) : List LockKey :=
  [.idempotency (trim command.idempotencyKey), .quote (trim command.quoteId),
    .wallet q.userId.value q.sourceAsset.code]

theorem Acceptance.of_rely (h : Acceptance env command inputs q row w w' a)
    (hr : (steady env).Rely (.acceptQuote command inputs) held a b)
    (hheld : ∀ key ∈ acceptanceKeys command q, key ∈ held) :
    Acceptance env command inputs q row w w' b where
  unclaimed := (idempotency_of_rely hr (hheld _ (by simp [acceptanceKeys]))).trans h.unclaimed
  quote := (quote_of_rely hr (hheld _ (by simp [acceptanceKeys]))).trans h.quote
  active := h.active
  inTime := h.inTime
  read := h.read
  freshConversion := (steady_of_rely hr).2 _ (by simp [Task.generatedIds]) h.freshConversion
  wallet := (wallet_of_rely hr (hheld _ (by simp [acceptanceKeys]))).trans h.wallet
  covered := h.covered
  reserves := h.reserves

/-- What the accept transaction has collected at the end of its body. -/
def SteadyBody (env : Platform) (command : AcceptQuoteCommand) (inputs : AcceptInputs)
    (r : Except Thrown AcceptQuoteResult) (o : Option (List Write)) (durable : List Write)
    (db : Db) : Prop :=
  durable = [] ∧ ∃ vs, o = some vs ∧
    match r with
    | .ok (.created body) =>
      (∀ w ∈ vs, Keeps (Task.acceptQuote command inputs).generatedIds db w) ∧
      AcceptedTogether env command inputs body db (postgres.applyAll db vs) ∧
      ∃ before record, record.responseBody = some body ∧
        vs = before ++ [.putIdempotency (trim command.idempotencyKey) record]
    | .ok _ => vs = []
    | .error _ => True

section Accept

-- the statements of a program do not depend on how rows are read back or dates are written
attribute [local irreducible] PrismaQuoteRepository.toDomain PrismaWalletRepository.toDomain
  Date.timestampText

/-! ### The transaction -/

/-- A statement of an accept inside its transaction. -/
theorem steady_statement {s : Stmt} {k : s.Result → App AcceptQuoteResult}
    {Q : Except Thrown AcceptQuoteResult → Option (List Write) → List Write → Db → Prop}
    {vs d : List Write}
    (h : ∀ db', (steady env).Rely (.acceptQuote command inputs) (postgres.keysOf vs) db db' →
      ∀ locked r ws, exec s locked (postgres.applyAll db' vs) = .ok (r, ws) →
        (steady env).wp (.acceptQuote command inputs) (k r) Q (some (vs ++ ws)) d db') :
    (steady env).wp (.acceptQuote command inputs) (.call s k) Q (some vs) d db :=
  Contract.wp_call_some fun db' hr _ ↦ ⟨fun _ _ he ↦ (by cases he), h db' hr⟩

/-- The writes up to the reservation. -/
def startedWrites (env : Platform) (command : AcceptQuoteCommand) (inputs : AcceptInputs)
    (q : Quote) (row : QuoteRow) (r : ConversionRow) (w' : WalletRow) : List Write :=
  [.putIdempotency (trim command.idempotencyKey) (claimRow env command inputs),
    .putQuote (trim command.quoteId) (acceptedRow row inputs),
    .insertConversion inputs.conversionId.value r,
    .putWallet q.userId.value q.sourceAsset.code w']

theorem applyAll_startedWrites {r : ConversionRow}
    (hnew : db.conversions.lookup inputs.conversionId.value = none) :
    postgres.applyAll db (startedWrites env command inputs q row r w') =
      { db with
        wallets := db.wallets.insert (q.userId.value, q.sourceAsset.code) w'
        quotes := db.quotes.insert (trim command.quoteId) (acceptedRow row inputs)
        conversions := db.conversions.insert inputs.conversionId.value r
        idempotency := db.idempotency.insert (trim command.idempotencyKey)
          (claimRow env command inputs) } := by
  simp only [startedWrites, Store.applyAll_cons, Store.applyAll_nil, postgres_apply, Db.write,
    hnew, if_true]

/-- The conversion as it is inserted, with its two stored amounts. -/
def insertedRow (q : Quote) (inputs : AcceptInputs) (source target : Numeric) : ConversionRow where
  quoteId := q.id.value
  userId := q.userId.value
  sourceAsset := q.sourceAmount.asset.code
  targetAsset := q.targetAmount.asset.code
  sourceAmount := source
  targetAmount := target
  status := .CREATED
  exchangeExecutionId := none
  failureReason := none
  createdAt := inputs.now
  completedAt := none

theorem insertedRow_stored {source target : Numeric}
    (hstorable : (createdConversion q inputs).Storable)
    (hsource : q.sourceAmount.asset ∈ env.registry.assets)
    (htarget : q.targetAmount.asset ∈ env.registry.assets) (hs : source.1 = q.sourceAmount.amount)
    (ht : target.1 = q.targetAmount.amount) :
    (createdConversion q inputs).StoredAs env inputs.conversionId.value
      (insertedRow q inputs source target) where
  storable := hstorable
  id_eq := rfl
  quote_eq := rfl
  user_eq := rfl
  source := ⟨hsource, rfl, hs⟩
  target := ⟨htarget, rfl, ht⟩
  status_eq := rfl
  execution_eq := rfl
  reason_eq := rfl
  createdAt_eq := rfl
  completedAt_eq := rfl

/-- The inserted conversion after its funds were reserved. -/
def boundRow (inputs : AcceptInputs) (r : ConversionRow) : ConversionRow :=
  { r with
    status := .FUNDS_RESERVED
    exchangeExecutionId := some inputs.eventId.value
    failureReason := none
    completedAt := none }

theorem boundRow_stored {r : ConversionRow}
    (h : (createdConversion q inputs).StoredAs env inputs.conversionId.value r) :
    (reservedConversion q inputs).StoredAs env inputs.conversionId.value (boundRow inputs r) where
  storable :=
    { h.storable with execution :=
      fun _ he ↦ Option.mem_some_iff.1 he ▸ inputs.eventId.storable_value }
  id_eq := h.id_eq
  quote_eq := h.quote_eq
  user_eq := h.user_eq
  source := h.source
  target := h.target
  status_eq := rfl
  execution_eq := rfl
  reason_eq := rfl
  createdAt_eq := h.createdAt_eq
  completedAt_eq := rfl

/-- The writes of the whole accept. -/
def togetherWrites (env : Platform) (command : AcceptQuoteCommand) (inputs : AcceptInputs)
    (q : Quote) (row : QuoteRow) (r : ConversionRow) (w' : WalletRow) : List Write :=
  startedWrites env command inputs q row r w' ++
    [.updateConversion inputs.conversionId.value (boundRow inputs r)] ++
    [.putOutbox inputs.eventId.value (eventRow q inputs)] ++
    [.putIdempotency (trim command.idempotencyKey) (recordRow env (trim command.quoteId) q inputs)]

theorem applyAll_togetherWrites {r : ConversionRow}
    (hnew : db.conversions.lookup inputs.conversionId.value = none) :
    postgres.applyAll db (togetherWrites env command inputs q row r w') =
      { db with
        wallets := db.wallets.insert (q.userId.value, q.sourceAsset.code) w'
        quotes := db.quotes.insert (trim command.quoteId) (acceptedRow row inputs)
        conversions := db.conversions.insert inputs.conversionId.value (boundRow inputs r)
        outbox := db.outbox.insert inputs.eventId.value (eventRow q inputs)
        idempotency := db.idempotency.insert (trim command.idempotencyKey)
          (recordRow env (trim command.quoteId) q inputs) } := by
  simp only [togetherWrites, postgres.applyAll_append, applyAll_startedWrites hnew]
  simp only [Store.applyAll_cons, Store.applyAll_nil, postgres_apply, Db.write,
    Finmap.lookup_insert, reduceCtorEq, if_false, Finmap.insert_insert]

theorem keeps_togetherWrites {r : ConversionRow} (h : Acceptance env command inputs q row w w' db) :
    ∀ v ∈ togetherWrites env command inputs q row r w',
      Keeps (Task.acceptQuote command inputs).generatedIds db v := by
  have hid : inputs.conversionId.value ∈ (Task.acceptQuote command inputs).generatedIds := by
    simp [Task.generatedIds]
  intro v hv
  simp only [togetherWrites, startedWrites, List.cons_append, List.nil_append, List.mem_cons,
    List.not_mem_nil, or_false] at hv
  rcases hv with rfl | rfl | rfl | rfl | rfl | rfl | rfl
  · trivial
  · exact ⟨row, h.quote, rfl⟩
  · exact ⟨hid, h.freshConversion⟩
  · trivial
  · exact .inl ⟨hid, h.freshConversion⟩
  · trivial
  · trivial

/-- **The last part.** -/
theorem steady_finish {r : ConversionRow} (h : Acceptance env command inputs q row w w' db)
    (hstored : (createdConversion q inputs).StoredAs env inputs.conversionId.value r) :
    (steady env).wp (.acceptQuote command inputs)
      (AcceptQuoteUseCase.finish (trim command.idempotencyKey) (q.accepted inputs.now)
        (createdConversion q inputs) inputs)
      (SteadyBody env command inputs)
      (some (startedWrites env command inputs q row r w')) [] db := by
  have hcreated : createdConversion q inputs = createdConversion (q.accepted inputs.now) inputs :=
    rfl
  have hheld : ∀ key ∈ acceptanceKeys command q,
      key ∈ postgres.keysOf (startedWrites env command inputs q row r w') := by
    simp [acceptanceKeys, startedWrites, Write.keys]
  rw [hcreated, finish_eq]
  -- the conversion was inserted by this transaction, so it is updated now
  refine steady_statement fun db₁ hr₁ locked u ws hx ↦ ?_
  have h₁ := h.of_rely hr₁ hheld
  rw [applyAll_startedWrites h₁.freshConversion] at hx
  obtain rfl := upsertConversion_old (Finmap.lookup_insert _) hx
  change (steady env).wp _ _ _ (some (startedWrites env command inputs q row r w' ++
    [.updateConversion inputs.conversionId.value (boundRow inputs r)])) _ _
  refine steady_statement fun db₂ hr₂ locked u ws hx ↦ ?_
  have h₂ := h₁.of_rely hr₂ fun key hkey ↦ by
    rw [postgres.keysOf_append, List.mem_append]
    exact .inl (hheld key hkey)
  rw [postgres.applyAll_append, applyAll_startedWrites h₂.freshConversion] at hx
  obtain ⟨hevent, rfl⟩ := createOutbox_ok hx
  change (steady env).wp _ _ _ (some (startedWrites env command inputs q row r w' ++
    [.updateConversion inputs.conversionId.value (boundRow inputs r)] ++
    [.putOutbox inputs.eventId.value (eventRow q inputs)])) _ _
  have hevent₂ : db₂.outbox.lookup inputs.eventId.value = none := by
    simpa [Db.write, eventMessage] using hevent
  refine steady_statement fun db₃ hr₃ locked count ws hx ↦ ?_
  have h₃ := h₂.of_rely hr₃ fun key hkey ↦ by
    simp only [postgres.keysOf_append, List.mem_append]
    exact .inl (.inl (hheld key hkey))
  have hevent₃ : db₃.outbox.lookup inputs.eventId.value = none := by
    have hlocked : .outbox inputs.eventId.value ∈
        postgres.keysOf (startedWrites env command inputs q row r w' ++
          [.updateConversion inputs.conversionId.value (boundRow inputs r)] ++
          [.putOutbox inputs.eventId.value (eventRow q inputs)]) := by
      simp [startedWrites, Write.keys]
    rwa [← hr₃.same hlocked]
  have hclaim : (postgres.applyAll db₃ (startedWrites env command inputs q row r w' ++
      [.updateConversion inputs.conversionId.value (boundRow inputs r)] ++
      [.putOutbox inputs.eventId.value (eventRow q inputs)])).idempotency.lookup
      (trim command.idempotencyKey) = some (claimRow env command inputs) := by
    rw [postgres.applyAll_append, postgres.applyAll_append,
      applyAll_startedWrites h₃.freshConversion]
    simp [Db.write]
  rcases completeIdempotency_ok hclaim hx with rfl | ⟨rfl, rfl⟩
  · exact Contract.wp_raise fun _ _ _ ↦ ⟨rfl, _, rfl, trivial⟩
  change (steady env).wp _ _ _ (some (togetherWrites env command inputs q row r w')) _ _
  refine Contract.wp_ret fun db₄ hr₄ _ ↦ ?_
  have h₄ := h₃.of_rely hr₄ (by simp [acceptanceKeys, togetherWrites, startedWrites, Write.keys])
  have hevent₄ : db₄.outbox.lookup inputs.eventId.value = none := by
    have hlocked : .outbox inputs.eventId.value ∈
        postgres.keysOf (togetherWrites env command inputs q row r w') := by
      simp [togetherWrites, startedWrites, Write.keys]
    rwa [← hr₄.same hlocked]
  refine ⟨rfl, _, rfl, keeps_togetherWrites h₄, ⟨q, row, boundRow inputs r, w, w', h₄, hevent₄,
    boundRow_stored hstored, rfl, applyAll_togetherWrites h₄.freshConversion⟩, _, _, rfl, rfl⟩

/-- A conversion without proceeds is refused before it is saved. -/
theorem convert_eq_of_zero (key : String) {e : JsError}
    (he : Conversion.create inputs.conversionId q.id q.userId q.sourceAmount q.targetAmount
      inputs.now = .error e) :
    AcceptQuoteUseCase.convert env key (q.accepted inputs.now) inputs =
      .call (.acceptQuote q.id.value inputs.now inputs.now) fun row ↦
        match row with
        | none => AcceptQuoteUseCase.abort 409 "QUOTE_ACCEPT_CONFLICT"
            "Quote could not be accepted (expired or already accepted concurrently)"
        | some row => (attempt (PrismaQuoteRepository.toDomain env q.id.value row)).handle
          (fun _ ↦ .raise (.error e)) .raise := by
  have he' : Conversion.create inputs.conversionId (q.accepted inputs.now).id
      (q.accepted inputs.now).userId (q.accepted inputs.now).sourceAmount
      (q.accepted inputs.now).targetAmount inputs.now = .error e := he
  simp only [AcceptQuoteUseCase.convert, Prog.bind_eq_handle, saveAccepted_eq, Prog.handle_call]
  congr 1
  funext row
  cases row with
  | none => rfl
  | some row =>
    simp only [Prog.handle_handle, Prog.handle_ret, Prog.handle_raise, ConversionId.of_value,
      attempt_ok, he', attempt_error]

/-- An exit by an exception collects nothing. -/
theorem steady_raise {x : Thrown} {vs : List Write} :
    (steady env).wp (.acceptQuote command inputs) (.raise x) (SteadyBody env command inputs)
      (some vs) [] db :=
  Contract.wp_raise fun _ _ _ ↦ ⟨rfl, vs, rfl, trivial⟩

theorem unconverted_of_rely (h : a.conversions.lookup inputs.conversionId.value = none)
    (hr : (steady env).Rely (.acceptQuote command inputs) held a b) :
    b.conversions.lookup inputs.conversionId.value = none :=
  (steady_of_rely hr).2 _ (by simp [Task.generatedIds]) h

/-- **The middle part.** The quote was read active; when it is updated, it still has its terms. -/
theorem steady_convert {row₀ : QuoteRow}
    (hunclaimed : db.idempotency.lookup (trim command.idempotencyKey) = none)
    (hfresh : db.conversions.lookup inputs.conversionId.value = none)
    (hread : PrismaQuoteRepository.toDomain env (trim command.quoteId) row₀ = .ok q)
    (hactive : q.status = .ACTIVE)
    (hrow : ∃ r, db.quotes.lookup (trim command.quoteId) = some r ∧ row₀.SameTerms r) :
    (steady env).wp (.acceptQuote command inputs)
      (AcceptQuoteUseCase.convert env (trim command.idempotencyKey) (q.accepted inputs.now) inputs)
      (SteadyBody env command inputs)
      (some [.putIdempotency (trim command.idempotencyKey) (claimRow env command inputs)])
        [] db := by
  obtain ⟨hid, hsource, htarget, hstatus, -, hacceptedAt⟩ :=
    PrismaQuoteRepository.toDomain_eq_ok hread
  rw [trim_trim] at hid
  have hnone : row₀.acceptedAt = none := by
    rw [← hacceptedAt]
    exact q.lifecycle.elim And.right fun h ↦ by simp [hactive] at h
  -- the row that is updated is the row that was read, but for the time of an acceptance
  have hfound : ∀ {db' : Db} {row : QuoteRow}, (steady env).Rely (.acceptQuote command inputs)
      (postgres.keysOf [.putIdempotency (trim command.idempotencyKey)
        (claimRow env command inputs)]) db db' →
      db'.quotes.lookup (trim command.quoteId) = some row → row.status = .ACTIVE →
      PrismaQuoteRepository.toDomain env (trim command.quoteId)
        { row with acceptedAt := none } = .ok q := by
    intro db' row hr hlookup hs
    obtain ⟨r, hr', hsame⟩ := hrow
    obtain ⟨r', hr'', hsame'⟩ := (steady_of_rely hr).1.quotes _ r hr'
    rw [hlookup, Option.some.injEq] at hr''
    subst hr''
    have hterms : row = { row₀ with status := row.status, acceptedAt := row.acceptedAt } :=
      hsame.trans hsame'
    have heq : { row with acceptedAt := none } = row₀ := by
      rw [hterms, hs, ← hactive, hstatus, ← hnone]
    rw [heq, hread]
  by_cases hpositive : q.targetAmount.amount = 0
  · obtain ⟨e, he⟩ : ∃ e, Conversion.create inputs.conversionId q.id q.userId q.sourceAmount
        q.targetAmount inputs.now = .error e := by
      have hsourceAmount : ¬ q.sourceAmount.isZero = true := by
          simpa [Money.isZero] using q.positive
      have hzero : q.targetAmount.isZero = true := by simpa [Money.isZero] using hpositive
      exact ⟨_, by rw [Conversion.create, if_neg hsourceAmount, if_pos hzero]⟩
    rw [convert_eq_of_zero _ he]
    refine steady_statement fun db₁ hr₁ locked x ws hx ↦ ?_
    rcases x with - | row
    · exact steady_raise
    · dsimp only
      cases PrismaQuoteRepository.toDomain env q.id.value row <;> exact steady_raise
  rw [convert_eq _ hpositive, hid]
  refine steady_statement fun db₁ hr₁ locked x ws hx ↦ ?_
  have hunclaimed₁ := (idempotency_of_rely hr₁ (by simp [Write.keys])).trans hunclaimed
  have hfresh₁ := unconverted_of_rely hfresh hr₁
  rcases acceptQuote_ok hx with ⟨rfl, rfl⟩ | ⟨row, hlookup, hs, htime, rfl, rfl⟩
  · exact steady_raise
  have hread₁ := hfound hr₁ hlookup hs
  dsimp only
  rcases PrismaQuoteRepository.toDomain env (trim command.quoteId)
    { row with status := .ACCEPTED, acceptedAt := some inputs.now } with e | q'
  · exact steady_raise
  rw [attempt_ok, Prog.handle_ret]
  change (steady env).wp _ _ _ (some ([.putIdempotency (trim command.idempotencyKey)
    (claimRow env command inputs)] ++ [.putQuote (trim command.quoteId) (acceptedRow row inputs)]))
      _ _
  -- the conversion is new
  refine steady_statement fun db₂ hr₂ locked u ws hx ↦ ?_
  have hunclaimed₂ := (idempotency_of_rely hr₂ (by simp [Write.keys])).trans hunclaimed₁
  have hfresh₂ := unconverted_of_rely hfresh₁ hr₂
  have hlookup₁ : db₁.quotes.lookup (trim command.quoteId) = some row := hlookup
  have hlookup₂ := (quote_of_rely hr₂ (by simp [Write.keys])).trans hlookup₁
  obtain ⟨hstoring, source, target, hcolumn, hcolumn', rfl⟩ := upsertConversion_new hfresh₂ hx
  have hscale : q.sourceAmount.asset.scale ≤ 18 := env.registry.scale_le _ hsource
  have hscale' : q.targetAmount.asset.scale ≤ 18 := env.registry.scale_le _ htarget
  -- the funds are reserved, or there are not enough
  refine steady_statement fun db₃ hr₃ locked x ws hx ↦ ?_
  have hfresh₃ := unconverted_of_rely hfresh₂ hr₃
  have hwallets : (postgres.applyAll db₃ ([.putIdempotency (trim command.idempotencyKey)
      (claimRow env command inputs)] ++
        [.putQuote (trim command.quoteId) (acceptedRow row inputs)] ++
      [.insertConversion inputs.conversionId.value (insertedRow q inputs source target)])).wallets =
      db₃.wallets := by
    simp only [Store.applyAll_append, Store.applyAll_cons, Store.applyAll_nil, postgres_apply,
      Db.write, hfresh₃, if_true]
  rcases x with - | w'
  · exact steady_raise
  obtain ⟨w, hw, hcovered, hreserves, rfl⟩ := reserveWallet_ok hscale hx
  have hw₃ : db₃.wallets.lookup (q.userId.value, q.sourceAsset.code) = some w := hwallets ▸ hw
  dsimp only
  rcases PrismaWalletRepository.toDomain env q.userId.value
    q.sourceAmount.asset.code w' with e | wallet
  · exact steady_raise
  rw [attempt_ok, Prog.handle_ret]
  refine steady_finish (r := insertedRow q inputs source target)
    { unclaimed := (idempotency_of_rely hr₃ (by simp [Write.keys])).trans hunclaimed₂
      quote := (quote_of_rely hr₃ (by simp [Write.keys])).trans hlookup₂
      active := hs
      inTime := htime
      read := hread₁
      freshConversion := hfresh₃
      wallet := hw₃
      covered := hcovered
      reserves := hreserves } ?_
  exact insertedRow_stored (Conversion.storing_eq_ok.1 hstoring) hsource htarget
    (column_toString_eq_ok hscale hcolumn) (column_toString_eq_ok hscale' hcolumn')

/-- The key is taken: nothing was written, and the answer is read off the record. -/
theorem steady_existing (key hash : String) :
    (steady env).wp (.acceptQuote command inputs) (AcceptQuoteUseCase.existing key hash)
      (SteadyBody env command inputs) (some []) [] db := by
  refine steady_statement (s := .findIdempotency key) fun db' _ locked row ws hx ↦ ?_
  cases hx
  rw [Store.applyAll_nil]
  rcases db'.idempotency.lookup key with - | ⟨scope, hash', _ | status, _ | body, id, createdAt⟩
  · exact Contract.wp_ret fun _ _ _ ↦ ⟨rfl, [], rfl, rfl⟩
  all_goals
    show Contract.wp _ _ (ite _ _ _) _ _ _ _
    split <;> exact Contract.wp_ret fun _ _ _ ↦ ⟨rfl, [], rfl, rfl⟩

/-- **The first part.** -/
theorem steady_claimed (hunclaimed : db.idempotency.lookup (trim command.idempotencyKey) = none)
    (hfresh : db.conversions.lookup inputs.conversionId.value = none) :
    (steady env).wp (.acceptQuote command inputs)
      (AcceptQuoteUseCase.claimed env (trim command.quoteId) (trim command.idempotencyKey) inputs)
      (SteadyBody env command inputs)
      (some [.putIdempotency (trim command.idempotencyKey) (claimRow env command inputs)])
        [] db := by
  by_cases hne : trim command.quoteId = ""
  · obtain ⟨e, hid⟩ : ∃ e, QuoteId.of (trim command.quoteId) = .error e :=
      ⟨_, by rw [QuoteId.of, Identifier.of, dif_pos (by rw [trim_trim, hne])]⟩
    simp only [AcceptQuoteUseCase.claimed, hid, attempt_error, Prog.bind_eq_handle,
      Prog.handle_raise]
    exact steady_raise
  have hid : QuoteId.of (trim command.quoteId) = .ok ⟨trim command.quoteId, trim_trim _, hne⟩ :=
    QuoteId.of_value ⟨trim command.quoteId, trim_trim _, hne⟩
  simp only [AcceptQuoteUseCase.claimed, Prog.bind_eq_handle, hid, attempt_ok, Prog.handle_ret,
    PrismaQuoteRepository.findById, sql, Prog.handle_stmt, Prog.handle_call]
  refine steady_statement fun db₁ hr₁ locked x ws hx ↦ ?_
  cases hx
  rw [List.append_nil]
  rcases hrow : db₁.quotes.lookup (trim command.quoteId) with - | row₀
  · have hview : (postgres.applyAll db₁ [.putIdempotency (trim command.idempotencyKey)
        (claimRow env command inputs)]).quotes.lookup (trim command.quoteId) = none := hrow
    rw [hview]
    exact steady_raise
  have hview : (postgres.applyAll db₁ [.putIdempotency (trim command.idempotencyKey)
      (claimRow env command inputs)]).quotes.lookup (trim command.quoteId) = some row₀ := hrow
  rw [hview]
  rcases hread : PrismaQuoteRepository.toDomain env (trim command.quoteId) row₀ with e | q
  · simp only [hread, attempt_error, Prog.handle_raise]
    exact steady_raise
  simp only [hread, attempt_ok, Prog.handle_ret, Prog.pure_eq_ret, Quote.accept_call]
  by_cases haccepted : q.status = .ACCEPTED
  · rw [if_pos haccepted]
    exact steady_raise
  by_cases hexpired : q.isExpired inputs.now = true
  · rw [if_neg haccepted, if_pos hexpired]
    exact steady_raise
  rw [if_neg haccepted, if_neg hexpired]
  exact steady_convert ((idempotency_of_rely hr₁ (by simp [Write.keys])).trans hunclaimed)
    (unconverted_of_rely hfresh hr₁) hread (q.lifecycle.elim And.left fun h ↦ absurd h.1 haccepted)
    ⟨row₀, hrow, .refl row₀⟩

/-- **The body of the accept transaction.** -/
theorem steady_work (hfresh : db.conversions.lookup inputs.conversionId.value = none) :
    (steady env).wp (.acceptQuote command inputs)
      (AcceptQuoteUseCase.work env (trim command.quoteId) (trim command.idempotencyKey)
        (AcceptQuoteUseCase.requestHash env (trim command.quoteId)) inputs)
      (SteadyBody env command inputs) (some []) [] db := by
  rw [work_eq]
  refine steady_statement fun db₁ hr₁ locked won ws hx ↦ ?_
  rw [List.nil_append]
  rcases insertIdempotency_ok hx with ⟨rfl, rfl⟩ | ⟨rfl, hunclaimed, rfl⟩
  · rw [if_neg Bool.false_ne_true]
    exact steady_existing _ _
  · rw [if_pos rfl]
    exact steady_claimed hunclaimed (unconverted_of_rely hfresh hr₁)

/-! ### The whole use case -/

/-- What an accept has published when it answers `created`. -/
def SteadyAnswer (command : AcceptQuoteCommand) (inputs : AcceptInputs)
    (r : Except Thrown AcceptQuoteResult) (durable : List Write) (db : Db) : Prop :=
  ∀ body, r = .ok (.created body) →
    (∃ row, db.conversions.lookup inputs.conversionId.value = some row) ∧
    ∃ before record, record.responseBody = some body ∧
      durable = before ++ [.putIdempotency (trim command.idempotencyKey) record]

theorem SteadyAnswer.of_keepsTerms {r : Except Thrown AcceptQuoteResult} {durable : List Write}
    (h : SteadyAnswer command inputs r durable a) (hterms : KeepsTerms a b) :
    SteadyAnswer command inputs r durable b := by
  intro body hr
  obtain ⟨⟨row, hrow⟩, hdurable⟩ := h body hr
  obtain ⟨row', hrow', -⟩ := hterms.conversions _ row hrow
  exact ⟨⟨row', hrow'⟩, hdurable⟩

/-- Publishing nothing keeps every promise. -/
theorem steady_nothing : (steady env).Publishes (.acceptQuote command inputs) db [] :=
  publishes_of_keeps (by simp) (.inl rfl)

/-- Polling the record changes nothing, and ends without an answer or with a replay. -/
theorem steady_wait (key hash : String) (polls : ℕ) :
    (steady env).wp (.acceptQuote command inputs)
      (AcceptQuoteUseCase.waitForIdempotentCompletion key hash polls)
      (fun r o _ _ ↦ o = none ∧ ∀ body, r ≠ .ok (some (.created body))) none [] db := by
  induction polls generalizing db with
  | zero => exact Contract.wp_ret fun _ _ _ ↦ ⟨rfl, by simp⟩
  | succ polls ih =>
    refine Contract.wp_call_none (s := Stmt.findIdempotency key) fun db' _ _ ↦
      ⟨fun _ _ (he : Task.acceptQuote _ _ = .execute _ _) ↦
        (by cases he), fun locked row ws hx _ ↦ ?_⟩
    cases hx
    refine ⟨steady_nothing, ?_⟩
    rcases db'.idempotency.lookup key with - | ⟨scope, hash', _ | status, _ | body, id, createdAt⟩
    · exact Contract.wp_ret fun _ _ _ ↦ ⟨rfl, by simp⟩
    · exact ih
    · exact ih
    · exact ih
    · show Contract.wp _ _ (ite _ _ _) _ _ _ _
      split <;> exact Contract.wp_ret fun _ _ _ ↦ ⟨rfl, by simp⟩

/-- **The transaction and the wait after it.** -/
theorem steady_run (hfresh : (Task.acceptQuote command inputs).Fresh db) :
    (steady env).wp (.acceptQuote command inputs)
      (AcceptQuoteUseCase.run env (trim command.quoteId) (trim command.idempotencyKey)
        (AcceptQuoteUseCase.requestHash env (trim command.quoteId)) inputs)
      (fun r o d db ↦ o = none ∧ SteadyAnswer command inputs r d db) none [] db := by
  refine Contract.wp_bind (Contract.wp_transaction
    (Contract.wp_mono (steady_work hfresh.1) ?_) trivial) trivial
  rintro r o d db' ⟨rfl, vs, rfl, h⟩
  refine ⟨vs, rfl, ?_⟩
  rcases r with x | (body | ⟨statusCode, body⟩ | ⟨statusCode, errorCode, message⟩)
  · exact Contract.wp_raise fun _ _ _ ↦ Contract.wp_raise fun _ _ _ ↦ ⟨rfl, by rintro body ⟨⟩⟩
  · obtain ⟨hkeeps, htogether, before, record, hbody, hvs⟩ := h
    refine fun _ ↦ ⟨publishes_of_keeps hkeeps (.inr ⟨body, htogether⟩),
      Contract.wp_ret fun _ hr _ ↦ Contract.wp_ret fun _ hr' _ ↦ ⟨rfl, ?_⟩⟩
    have hanswer : SteadyAnswer command inputs (.ok (.created body)) ([] ++ vs)
        (postgres.applyAll db' vs) := by
      rintro _ ⟨⟩
      obtain ⟨_, _, r, _, _, _, _, _, _, hdb⟩ := htogether
      exact ⟨⟨r, by rw [hdb]; exact Finmap.lookup_insert _⟩, before, record, hbody,
        by rw [List.nil_append, hvs]⟩
    exact (hanswer.of_keepsTerms (steady_of_rely hr).1).of_keepsTerms (steady_of_rely hr').1
  · subst h
    exact fun _ ↦ ⟨steady_nothing, Contract.wp_ret fun _ _ _ ↦ Contract.wp_ret fun _ _ _ ↦
      ⟨rfl, by rintro body ⟨⟩⟩⟩
  · subst h
    refine fun _ ↦ ⟨steady_nothing, Contract.wp_ret fun db₁ _ _ ↦ ?_⟩
    dsimp only
    split
    · refine Contract.wp_bind (Contract.wp_mono (steady_wait _ _ _) ?_) trivial
      rintro (x | _ | replay) o d db₂ ⟨rfl, hreplay⟩
      · exact Contract.wp_raise fun _ _ _ ↦ ⟨rfl, by rintro body ⟨⟩⟩
      · exact Contract.wp_ret fun _ _ _ ↦ ⟨rfl, by rintro body ⟨⟩⟩
      · refine Contract.wp_ret fun _ _ _ ↦ ⟨rfl, ?_⟩
        rintro body ⟨⟩
        exact absurd rfl (hreplay body)
    · exact Contract.wp_ret fun _ _ _ ↦ ⟨rfl, by rintro body ⟨⟩⟩

/-- **An accept on arbitrary tables** keeps its promises, and has published the record with the body
it answers. -/
theorem steady_accept (hfresh : (Task.acceptQuote command inputs).Fresh db) :
    (steady env).wp (.acceptQuote command inputs) (AcceptQuoteUseCase.execute env command inputs)
      (fun r o d db ↦ o = none ∧ SteadyAnswer command inputs r d db) none [] db := by
  rcases hvalid : AcceptQuoteUseCase.refused command with - | result
  · simp only [AcceptQuoteUseCase.execute, hvalid]
    refine Contract.wp_handle (Contract.wp_mono (steady_run hfresh) ?_) trivial
    rintro r o d db' ⟨rfl, hanswer⟩
    rcases r with (e | ⟨statusCode, errorCode, message⟩) | result
    · exact Contract.wp_raise fun _ _ _ ↦ ⟨rfl, by rintro body ⟨⟩⟩
    · exact Contract.wp_ret fun _ _ _ ↦ ⟨rfl, by rintro body ⟨⟩⟩
    · exact Contract.wp_ret fun _ hr _ ↦ ⟨rfl, hanswer.of_keepsTerms (steady_of_rely hr).1⟩
  · simp only [AcceptQuoteUseCase.execute, hvalid]
    refine Contract.wp_ret fun _ _ _ ↦ ⟨rfl, ?_⟩
    rintro body ⟨⟩
    unfold AcceptQuoteUseCase.refused at hvalid
    simp only at hvalid
    split_ifs at hvalid <;> cases hvalid

end Accept

end Ledger

end WalletConversion
