import WalletConversion.Ledger.Contract

/-!
# Events and the exchange

What a worker knows about the conversion of a genuine event, although other workers may be busy
with the same event:

* what the event says about its conversion never changes (`Matches`), so the event passes its checks
  (`assertPayload_ok`);
* while the event is not processed, its conversion is not terminal (`Valid.waiting`);
* an open conversion is backed by its source wallet (`Valid.backed`);
* the exchange has one row for the event, with the terms of the conversion (`exchange_wp`).
-/

namespace WalletConversion

open DecimalNotation Transactional Escrow

namespace Ledger

variable {env : Platform} {opening : Table (String × String) WalletRow}
  {observed : Db → Db → Prop} {t : Task} {held : List LockKey} {a b db : Db}
  {payload : ConversionExecutionRequestedPayload} {inputs : ExecuteInputs} {row : ConversionRow}
  {outcome : ExecutionOutcome}

/-! ### Events and their conversions -/

/-- What an event says about its conversion. -/
structure Matches (env : Platform) (payload : ConversionExecutionRequestedPayload)
    (row : ConversionRow) : Prop where
  event : row.exchangeExecutionId = some payload.eventId
  eventType : payload.eventType = "ConversionExecutionRequested"
  user : payload.userId = row.userId
  sourceAsset : payload.sourceAsset = row.sourceAsset
  targetAsset : payload.targetAsset = row.targetAsset
  sourceAmount : Denotes payload.sourceAmount.toList row.sourceAmount.1
  targetAmount : Denotes payload.targetAmount.toList row.targetAmount.1
  occurredAt : env.parsesDate payload.occurredAt = true

/-- A payload goes on matching its conversion. -/
theorem Matches.evolve {r r' : ConversionRow} (h : Matches env payload r)
    (he : ConversionEvolves r r') : Matches env payload r' := by
  obtain ⟨-, h₁, h₂, h₃, h₄, h₅, h₆, -⟩ := he.terms
  exact
    { event := h₆.trans h.event
      eventType := h.eventType
      user := h.user.trans h₁.symm
      sourceAsset := h.sourceAsset.trans h₂.symm
      targetAsset := h.targetAsset.trans h₃.symm
      sourceAmount := h₄ ▸ h.sourceAmount
      targetAmount := h₅ ▸ h.targetAmount
      occurredAt := h.occurredAt }

/-- **The payload of an outbox row matches its conversion.** -/
theorem Valid.matches_of_genuine (h : Valid env opening a)
    (hgenuine : (Task.execute payload inputs).Genuine a) :
    ∃ row, a.conversions.lookup payload.conversionId = some row ∧ Matches env payload row := by
  obtain ⟨e, o, ho, rfl⟩ := hgenuine
  obtain ⟨row, hrow, he⟩ := h.outbox e o ho
  obtain ⟨e', o', he', ho', hann⟩ := (h.conversions _ row hrow).event
  rw [he] at he'
  cases he'
  rw [ho] at ho'
  cases ho'
  refine ⟨row, by rw [hann.conversionId, hrow], ?_⟩
  exact
    { event := by rw [he, hann.payloadEventId]
      eventType := hann.payloadEventType
      user := hann.user
      sourceAsset := hann.sourceAsset
      targetAsset := hann.targetAsset
      sourceAmount := hann.sourceAmount
      targetAmount := hann.targetAmount
      occurredAt := hann.occurredAt }

/-- The conversion of an event is terminal. -/
def Settled (payload : ConversionExecutionRequestedPayload) (db : Db) : Prop :=
  ∃ row, db.conversions.lookup payload.conversionId = some row ∧ row.status.isTerminal = true

/-- What is settled stays settled. -/
theorem Settled.evolves (h : Settled payload a) (hev : Evolves a b) : Settled payload b := by
  obtain ⟨row, hrow, ht⟩ := h
  obtain ⟨row', hrow', he⟩ := hev.conversions _ row hrow
  exact ⟨row', hrow', he.eq_of_terminal ht ▸ ht⟩

/-- The conversion of the event, in a state it may still be in. -/
def Known (env : Platform) (payload : ConversionExecutionRequestedPayload) (row : ConversionRow)
    (db : Db) : Prop :=
  Matches env payload row ∧
    ∃ r, db.conversions.lookup payload.conversionId = some r ∧ ConversionEvolves row r

/-- A conversion that was found stays known. -/
theorem Known.evolves (h : Known env payload row a) (hev : Evolves a b) :
    Known env payload row b := by
  obtain ⟨hm, r, hr, he⟩ := h
  obtain ⟨r', hr', he'⟩ := hev.conversions _ r hr
  exact ⟨hm, r', hr', he.trans he'⟩

/-- A processed event has a settled conversion. -/
theorem Valid.settled_of_processed (h : Valid env opening a) (hk : Known env payload row a)
    {p : ProcessedRow} (hp : a.processed.lookup payload.eventId = some p) : Settled payload a := by
  obtain ⟨hm, r, hr, he⟩ := hk
  obtain ⟨-, hs⟩ := h.status_of_processed hr (hm.evolve he).event hp
  exact ⟨r, hr, by rw [hs, statusOf_isTerminal]⟩

/-- **A conversion that waits for its result still waits while its event is not processed.** -/
theorem Valid.waiting (h : Valid env opening a) (hk : Known env payload row a)
    (hs : row.status = .EXECUTION_REQUESTED)
    (hp : a.processed.lookup payload.eventId = none) :
    a.conversions.lookup payload.conversionId = some row := by
  obtain ⟨hm, r, hr, he⟩ := hk
  rwa [he.eq_of_requested hs (h.not_terminal hr (hm.evolve he).event hp)] at hr

/-- **An open conversion is backed** by what its source wallet has reserved. -/
theorem Valid.backed (h : Valid env opening a) {c : String}
    (hrow : a.conversions.lookup c = some row) (hheld : phaseOf row.status = .held) :
    ∃ w, a.wallets.lookup (row.userId, row.sourceAsset) = some w ∧
      row.sourceAmount.1 ≤ w.reserved.1 := by
  have hpos : ∀ k r, a.conversions.lookup k = some r → 0 < (holdOf r).amount := fun k r hr ↦
    (ConversionRow.violated_eq_none.1 (h.conversions k r hr).checks).1.1
  have hle : (holdOf row).amount ≤
      (accountOf (a.wallets.lookup (row.userId, row.sourceAsset))).reserved :=
    h.book.amount_le_reserved hrow hheld fun k r hr ↦ (hpos k r hr).le
  rcases hw : a.wallets.lookup (row.userId, row.sourceAsset) with - | w
  · rw [hw] at hle
    exact absurd hle (not_le.2 (hpos c row hrow))
  · rw [hw] at hle
    exact ⟨w, rfl, hle⟩

/-- A wallet of a user and a registered asset can be read back if all can. -/
theorem Valid.readable_wallet (h : Valid env opening a) (hopening : ReadableWallets env opening)
    {userId : String} {code : String} {asset : Asset} {w : WalletRow}
    (hw : a.wallets.lookup (userId, code) = some w) (hasset : asset ∈ env.registry.assets)
    (hcode : asset.code = code) : w.Readable asset := by
  obtain ⟨userId', asset', hasset', hkey, hr⟩ := h.readable hopening _ w hw
  have heq : asset = asset' :=
    env.registry.unique _ hasset _ hasset' (hcode.trans (congrArg Prod.snd hkey))
  rwa [heq]

/-! ### The checks of the event -/

/-- **A genuine event passes its checks.** -/
theorem assertPayload_ok {k : Conversion} (hk : k.StoredAs env payload.conversionId row)
    (hm : Matches env payload row) :
    ProcessConversionExecutionUseCase.assertPayloadMatchesConversion env payload k = .ok () := by
  have hsource : Money.of env.toDecimalJs payload.sourceAmount k.sourceAmount.asset =
      .ok k.sourceAmount := Money.of_denotes _ (hk.source.amount_eq ▸ hm.sourceAmount)
  have htarget : Money.of env.toDecimalJs payload.targetAmount k.targetAmount.asset =
      .ok k.targetAmount := Money.of_denotes _ (hk.target.amount_eq ▸ hm.targetAmount)
  have huser : payload.userId = k.userId.value := hm.user.trans hk.user_eq
  have hassets : ¬ (payload.sourceAsset ≠ k.sourceAmount.asset.code ∨
      payload.targetAsset ≠ k.targetAmount.asset.code) := by
    rw [hm.sourceAsset, hm.targetAsset, hk.source.code_eq, hk.target.code_eq]
    simp
  have hequal : ∀ m : Money, ¬ m.equals m = false := fun m ↦ by
    rw [Bool.not_eq_false, Money.equals_iff]
  rw [ProcessConversionExecutionUseCase.assertPayloadMatchesConversion,
    if_neg (not_not_intro hm.eventType), if_neg (not_not_intro huser), if_neg hassets, hsource,
    htarget]
  simp only [bind, Except.bind]
  rw [if_neg (not_or.2 ⟨hequal _, hequal _⟩), if_neg (by simp [hm.occurredAt])]

/-- A stored number and a text that denotes it are the same decimal. -/
theorem matchesText_of_denotes {n : Numeric} {text : String} (hn : 0 ≤ n.1)
    (h : Denotes text.toList n.1) : FakeExchangeAdapter.matchesText env n text = .ok true := by
  obtain ⟨m, hm, hdec⟩ := Decimal.ofText_of_denotes env.toDecimalJs (env.denotes_numericText n hn)
  obtain ⟨m', hm', hdec'⟩ := Decimal.ofText_of_denotes env.toDecimalJs h
  rw [FakeExchangeAdapter.matchesText, hdec, hdec']
  simp only [bind, Except.bind, Decimal.equals, hm, hm', true_or, and_self, decide_true]
  rfl

/-- The order of an event. -/
def orderOf (payload : ConversionExecutionRequestedPayload) : ExecuteConversionCommand where
  clientOrderId := payload.eventId
  conversionId := payload.conversionId
  userId := payload.userId
  sourceAsset := payload.sourceAsset
  targetAsset := payload.targetAsset
  sourceAmount := payload.sourceAmount
  targetAmount := payload.targetAmount

/-- **Every row of the exchange for an event is the order of the event.** -/
theorem assertSameCommand_ok (hm : Matches env payload row)
    (hpos : 0 < row.sourceAmount.1 ∧ 0 < row.targetAmount.1) :
    FakeExchangeAdapter.assertSameCommand env (orderOf payload)
      (exchangeRow payload.eventId payload.conversionId row outcome) = .ok () := by
  have hsource : FakeExchangeAdapter.matchesText env
      (exchangeRow payload.eventId payload.conversionId row outcome).sourceAmount
      (orderOf payload).sourceAmount = .ok true :=
    matchesText_of_denotes hpos.1.le hm.sourceAmount
  have htarget : FakeExchangeAdapter.matchesText env
      (exchangeRow payload.eventId payload.conversionId row outcome).targetAmount
      (orderOf payload).targetAmount = .ok true :=
    matchesText_of_denotes hpos.2.le hm.targetAmount
  unfold FakeExchangeAdapter.assertSameCommand
  rw [hsource]
  simp only [bind, Except.bind, if_true]
  rw [htarget]
  exact if_pos ⟨⟨rfl, hm.user.symm, hm.sourceAsset.symm, hm.targetAsset.symm⟩, rfl⟩

/-! ### The exchange -/

/-- What the adapter proposes to the exchange. -/
def exchangeData (payload : ConversionExecutionRequestedPayload) (mode : ExecutionOutcome) :
    ExchangeData where
  clientOrderId := payload.eventId
  conversionId := payload.conversionId
  userId := payload.userId
  sourceAsset := payload.sourceAsset
  targetAsset := payload.targetAsset
  sourceAmount := payload.sourceAmount
  targetAmount := payload.targetAmount
  outcome := mode
  reason := (FakeExchangeAdapter.buildResult (orderOf payload) mode).reason
  externalReference := s!"fake-{payload.eventId}"

theorem column_of_matches {text : String} {n : Numeric} (h : Denotes text.toList n.1) :
    column text = .ok n := by
  rw [column_of_denotes h n.2.1, dif_pos n.2.2]

/-- A new order is stored. -/
theorem exec_insertExchange_of_none (hm : Matches env payload row) {mode : ExecutionOutcome}
    (hnone : db.exchange.lookup payload.eventId = none) (locked : LockKey → Bool) :
    exec (.insertExchange (exchangeData payload mode)) locked db =
      .ok ((1 : ℕ), [.putExchange payload.eventId
        (exchangeRow payload.eventId payload.conversionId row mode)]) := by
  simp only [exec, exchangeData, column_of_matches hm.sourceAmount,
    column_of_matches hm.targetAmount, bind, Except.bind, hnone, hm.user, hm.sourceAsset,
    hm.targetAsset]
  rfl

/-- An order that is there is left as it is. -/
theorem exec_insertExchange_of_some (hm : Matches env payload row) {mode : ExecutionOutcome}
    {x : ExchangeRow} (hsome : db.exchange.lookup payload.eventId = some x)
    (locked : LockKey → Bool) :
    exec (.insertExchange (exchangeData payload mode)) locked db = .ok ((0 : ℕ), []) := by
  simp only [exec, exchangeData, column_of_matches hm.sourceAmount,
    column_of_matches hm.targetAmount, bind, Except.bind, hsome]

/-- The statements of the exchange. -/
theorem exchange_eq (mode : ExecutionOutcome) :
    FakeExchangeAdapter.execute env (orderOf payload) mode =
      .call (.insertExchange (exchangeData payload mode)) fun _ ↦
        .call (.findExchange payload.eventId) fun x ↦
          match x with
          | none => attempt (.error (.error "No FakeExchangeExecution found"))
          | some x => (attempt (FakeExchangeAdapter.assertSameCommand env
              (orderOf payload) x)).handle
            (fun _ ↦ .ret ⟨x.outcome, x.externalReference, x.reason⟩) .raise := by
  rw [FakeExchangeAdapter.execute_eq]
  refine congrArg (Prog.call _) (funext fun _ ↦ congrArg (Prog.call _) (funext fun x ↦ ?_))
  cases x <;> rfl

/-- The exchange has the order of the event, with some outcome. -/
def Exchanged (payload : ConversionExecutionRequestedPayload) (row : ConversionRow)
    (outcome : ExecutionOutcome) (db : Db) : Prop :=
  db.exchange.lookup payload.eventId =
    some (exchangeRow payload.eventId payload.conversionId row outcome)

theorem Valid.exchanged (h : Valid env opening a) (hk : Known env payload row a) {x : ExchangeRow}
    (hx : a.exchange.lookup payload.eventId = some x) : Exchanged payload row x.outcome a := by
  obtain ⟨hm, r, hr, he⟩ := hk
  obtain ⟨r', hr', he', -, heq⟩ := h.exchange _ x hx
  have hc := h.event_unique hr' hr he' (hm.evolve he).event
  rw [hc, hr] at hr'
  cases hr'
  rw [hc, he.exchangeRow_eq] at heq
  exact hx.trans (congrArg some heq)

/-- A conversion whose order the exchange does not know still waits. -/
theorem Valid.waiting_of_not_exchanged (h : Valid env opening a) (hk : Known env payload row a)
    (hs : row.status = .EXECUTION_REQUESTED) (hx : a.exchange.lookup payload.eventId = none) :
    a.conversions.lookup payload.conversionId = some row := by
  obtain ⟨hm, r, hr, he⟩ := hk
  rcases ht : r.status.isTerminal with - | -
  · rwa [he.eq_of_requested hs ht] at hr
  · obtain ⟨e, p, outcome, hre, -, -, -, -, hx'⟩ := (h.conversions _ r hr).settled ht
    rw [(hm.evolve he).event] at hre
    cases hre
    rw [hx] at hx'
    cases hx'

/-- Reading the row of the exchange. -/
theorem findExchange_wp {k : Option ExchangeRow → App ExecutionResult}
    {Q : Except Thrown ExecutionResult → Option (List Write) → List Write → Db → Prop}
    {d : List Write} (hx : Exchanged payload row outcome db)
    (hk : ∀ db', Valid env opening db' →
      (ledger env opening observed).Rely (.execute payload inputs)
        [] db db' → (ledger env opening observed).wp (.execute payload inputs)
        (k (some (exchangeRow payload.eventId payload.conversionId row outcome))) Q none d db') :
    (ledger env opening observed).wp (.execute payload inputs)
      (.call (.findExchange payload.eventId) k) Q none d db := by
  refine wp_autocommit_read fun db₁ hr₁ hi₁ ↦ ?_
  refine ⟨some (exchangeRow payload.eventId payload.conversionId row outcome), fun locked ↦ ?_,
    fun _ ↦ hk db₁ hi₁ hr₁⟩
  simp only [exec, (evolves_of_rely hr₁).exchange _ _ hx]

/-- **Calling the exchange** leaves its row, once and for all, and answers what the row says. -/
theorem exchange_wp (hk : Known env payload row db) (hs : row.status = .EXECUTION_REQUESTED)
    (hpos : 0 < row.sourceAmount.1 ∧ 0 < row.targetAmount.1)
    (hfresh : (Task.execute payload inputs).Fresh db) {d : List Write} :
    (ledger env opening observed).wp (.execute payload inputs)
      (FakeExchangeAdapter.execute env (orderOf payload) inputs.mode)
      (fun r o _ db ↦ o = none ∧ Valid env opening db ∧ Known env payload row db ∧
        (Task.execute payload inputs).Fresh db ∧ ∃ outcome,
        r = .ok (FakeExchangeAdapter.buildResult (orderOf payload) outcome) ∧
        Exchanged payload row outcome db) none d db := by
  have hlast : ∀ outcome d db, Known env payload row db → Exchanged payload row outcome db →
      (Task.execute payload inputs).Fresh db →
      (ledger env opening observed).wp (.execute payload inputs)
        (.call (.findExchange payload.eventId) fun x ↦
          match x with
          | none => attempt (.error (.error "No FakeExchangeExecution found"))
          | some x => (attempt (FakeExchangeAdapter.assertSameCommand env
              (orderOf payload) x)).handle
            (fun _ ↦ .ret ⟨x.outcome, x.externalReference, x.reason⟩) .raise)
        (fun r o _ db ↦ o = none ∧ Valid env opening db ∧ Known env payload row db ∧
          (Task.execute payload inputs).Fresh db ∧ ∃ outcome,
          r = .ok (FakeExchangeAdapter.buildResult (orderOf payload) outcome) ∧
          Exchanged payload row outcome db) none d db := by
    intro outcome d db hk hx hfresh
    refine findExchange_wp hx fun db₁ _ hr₁ ↦ ?_
    simp only [assertSameCommand_ok hk.1 hpos, attempt_ok, Prog.handle_ret]
    refine Contract.wp_ret fun db₂ hr₂ hi₂ ↦ ?_
    have hev := evolves_of_rely (hr₁.trans hr₂)
    exact ⟨rfl, hi₂, hk.evolves hev, fresh_of_rely (hr₁.trans hr₂) hfresh, outcome, rfl,
      hev.exchange _ _ hx⟩
  rw [exchange_eq]
  refine wp_autocommit fun db₁ hr₁ hi₁ ↦ ?_
  have hk₁ := hk.evolves (evolves_of_rely hr₁)
  have hfresh₁ := fresh_of_rely hr₁ hfresh
  rcases hx : db₁.exchange.lookup payload.eventId with - | x
  · have hcommit : Commit env (.execute payload inputs) db₁ (postgres.applyAll db₁
        [.putExchange payload.eventId
          (exchangeRow payload.eventId payload.conversionId row inputs.mode)]) :=
      .exchangeRecorded (hi₁.waiting_of_not_exchanged hk₁ hs hx) hs hk₁.1.event hx
    exact ⟨(1 : ℕ), _, exec_insertExchange_of_none hk₁.1 hx,
      by simp [Write.keys, MayLock], hcommit, fun _ ↦
      hlast inputs.mode _ _ (hk₁.evolves hcommit.evolves) (Finmap.lookup_insert _) hfresh₁⟩
  · exact ⟨(0 : ℕ), [], exec_insertExchange_of_some hk₁.1 hx, by simp, .idle _ _, fun _ ↦
      hlast x.outcome _ _ hk₁ (hi₁.exchanged hk₁ hx) hfresh₁⟩

end Ledger

end WalletConversion
