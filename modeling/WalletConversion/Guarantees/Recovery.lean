import WalletConversion.Application.Reference
import WalletConversion.Ledger.Calls

/-!
# Recovery of an execution

An execution of an event may be cut off after any of its statements, and the broker delivers the
event again. Whatever the earlier attempts have left behind, one undisturbed execution finishes the
work:

* `solo_execute` — up to the settlement, an undisturbed execution makes up what is missing: the
  request and the row of the exchange;
* `execute_recovers` — it returns, the conversion is settled by the outcome the exchange has
  recorded, and the tables are those of a first execution that was not cut off.
-/

namespace WalletConversion

open Transactional Relation

/-- The tables before the first attempt at an event: the funds are reserved, and the exchange does
not know the order. -/
def Db.rewound (db : Db) (payload : ConversionExecutionRequestedPayload) : Db :=
  { db with
    conversions :=
      match db.conversions.lookup payload.conversionId with
      | some row =>
        db.conversions.insert payload.conversionId { row with status := .FUNDS_RESERVED }
      | none => db.conversions
    exchange := db.exchange.erase payload.eventId }

namespace Ledger

open ProcessConversionExecutionUseCase

variable {env : Platform} {wallets : Table (String × String) WalletRow} {a b db : Db}
  {payload : ConversionExecutionRequestedPayload} {inputs : ExecuteInputs} {row : ConversionRow}
  {outcome : ExecutionOutcome} {k : Conversion} {conversionId : ConversionId}

/-! ### One execution alone -/

/-- What follows the call of the exchange. -/
def settling (env : Platform) (payload : ConversionExecutionRequestedPayload)
    (conversionId : ConversionId) (result : ExecutionResult) (inputs : ExecuteInputs) :
    App ExecutionReport := do
  match ← Prog.transaction (settlement env payload conversionId result inputs) with
  | none => return .replay
  | some settled => return .processed result.outcome settled

/-- The tables once the exchange has recorded the order. -/
def recordedDb (db : Db) (payload : ConversionExecutionRequestedPayload) (row : ConversionRow)
    (outcome : ExecutionOutcome) : Db :=
  { db with
    exchange := db.exchange.insert payload.eventId
      (exchangeRow payload.eventId payload.conversionId row outcome) }

/-- The outcome the exchange answers: the one it has recorded, or the one of its mode. -/
def answered (db : Db) (payload : ConversionExecutionRequestedPayload) (mode : ExecutionOutcome) :
    ExecutionOutcome :=
  (db.exchange.lookup payload.eventId).elim mode ExchangeRow.outcome

/-- **The call of the exchange**, with nobody else around. -/
theorem solo_executeAndSettle (hm : Matches env payload row)
    (hpos : 0 < row.sourceAmount.1 ∧ 0 < row.targetAmount.1)
    (hx : ∀ x, db.exchange.lookup payload.eventId = some x →
      x = exchangeRow payload.eventId payload.conversionId row x.outcome) :
    (executeAndSettle env payload conversionId inputs).solo postgres none db =
      (settling env payload conversionId
        (FakeExchangeAdapter.buildResult (orderOf payload) (answered db payload inputs.mode))
        inputs).solo postgres none
        (recordedDb db payload row (answered db payload inputs.mode)) := by
  have hprogram : executeAndSettle env payload conversionId inputs =
      (FakeExchangeAdapter.execute env (orderOf payload) inputs.mode).handle
        (fun result ↦ settling env payload conversionId result inputs) .raise := rfl
  obtain ⟨answer, hexchange, hsome⟩ : ∃ answer, FakeExchangeAdapter.execute env (orderOf payload)
      inputs.mode = .call (.insertExchange (exchangeData payload inputs.mode)) (fun _ ↦
        .call (.findExchange payload.eventId) answer) ∧
      ∀ x, answer (some x) =
        (attempt (FakeExchangeAdapter.assertSameCommand env (orderOf payload) x)).handle
          (fun _ ↦ .ret ⟨x.outcome, x.externalReference, x.reason⟩) .raise :=
    ⟨_, exchange_eq inputs.mode, fun _ ↦ rfl⟩
  -- the order is recorded: its row is read back, and its terms are those of the event
  have hlast : ∀ {db : Db} {outcome : ExecutionOutcome}, Exchanged payload row outcome db →
      (Prog.call (.findExchange payload.eventId) fun x ↦ (answer x).handle
        (fun result ↦ settling env payload conversionId result inputs) .raise).solo postgres none
        db = (settling env payload conversionId
          (FakeExchangeAdapter.buildResult (orderOf payload) outcome) inputs).solo postgres none
          db := fun {db outcome} hrow ↦ by
    have hfind : exec (.findExchange payload.eventId) (fun _ ↦ false) db =
        .ok (some (exchangeRow payload.eventId payload.conversionId row outcome), []) := by
      rw [Exchanged] at hrow
      simp only [exec, hrow]
    rw [Prog.solo_call_none hfind]
    simp only [hsome, assertSameCommand_ok hm hpos, attempt_ok, Prog.handle_ret,
      Store.applyAll_nil]
    rfl
  rw [hprogram, hexchange]
  simp only [Prog.handle_call]
  rcases hnone : db.exchange.lookup payload.eventId with - | x
  · rw [Prog.solo_call_none (exec_insertExchange_of_none hm hnone fun _ ↦ false), answered, hnone]
    exact hlast (Finmap.lookup_insert _)
  · have hrow : Exchanged payload row x.outcome db := hnone.trans (congrArg some (hx x hnone))
    rw [Prog.solo_call_none (exec_insertExchange_of_some hm hnone fun _ ↦ false), answered, hnone,
      recordedDb, Option.elim_some, Table.insert_self hrow]
    exact hlast hrow

/-- The tables once the execution was requested. -/
def requestedDb (db : Db) (payload : ConversionExecutionRequestedPayload)
    (row : ConversionRow) : Db :=
  { db with
    conversions := db.conversions.insert payload.conversionId
      { row with status := .EXECUTION_REQUESTED } }

/-- **Up to the settlement**, an execution alone makes up for what earlier attempts have not
done. -/
theorem solo_execute (hp : db.processed.lookup payload.eventId = none)
    (hrow : db.conversions.lookup payload.conversionId = some row)
    (hs : row.status = .FUNDS_RESERVED ∨ row.status = .EXECUTION_REQUESTED)
    (hchecks : row.violated = none)
    (hk : k.StoredAs env payload.conversionId { row with status := .EXECUTION_REQUESTED })
    (hm : Matches env payload row)
    (hx : ∀ x, db.exchange.lookup payload.eventId = some x →
      x = exchangeRow payload.eventId payload.conversionId row x.outcome) :
    (execute env payload inputs).solo postgres none db =
      (settling env payload k.id
        (FakeExchangeAdapter.buildResult (orderOf payload) (answered db payload inputs.mode))
        inputs).solo postgres none
        (recordedDb (requestedDb db payload row) payload row
          (answered db payload inputs.mode)) := by
  have hid : ConversionId.of payload.conversionId = .ok k.id := by
    rw [hk.id_eq, ConversionId.of_value]
  have hpos := (ConversionRow.violated_eq_none.1 hchecks).1
  have hdomain : PrismaConversionRepository.toDomain env k.id.value
      { row with status := .EXECUTION_REQUESTED } = .ok k := hk.id_eq ▸ hk.toDomain
  have hrow' : db.conversions.lookup k.id.value = some row := hk.id_eq ▸ hrow
  -- the checks of the event, whichever statement found the conversion
  have hhandle : (handle env payload k.id k inputs).solo postgres none
      (requestedDb db payload row) = (settling env payload k.id
        (FakeExchangeAdapter.buildResult (orderOf payload) (answered db payload inputs.mode))
        inputs).solo postgres none
        (recordedDb (requestedDb db payload row) payload row
          (answered db payload inputs.mode)) := by
    have hevent : ¬ k.exchangeExecutionId ≠ some payload.eventId := by
      rw [← hk.execution_eq]
      exact not_not_intro hm.event
    have hstatus : k.status = .EXECUTION_REQUESTED := hk.status_eq.symm
    have hterminal : k.isTerminal = false := by rw [Conversion.isTerminal, hstatus]; rfl
    have hm' : Matches env payload { row with status := .EXECUTION_REQUESTED } :=
      { hm with }
    simp only [handle, Prog.bind_eq_handle, assertPayload_ok hk hm', attempt_ok, Prog.handle_ret,
      if_neg hevent, hterminal, hstatus, Bool.false_eq_true, if_false, ne_eq, not_true_eq_false]
    exact solo_executeAndSettle hm hpos hx
  rw [← hhandle]
  simp only [execute, hid, attempt_ok, Prog.bind_eq_handle, Prog.handle_ret,
    PrismaProcessedMessageRepository.exists', sql, Prog.handle_stmt,
    PrismaConversionRepository.markExecutionRequestedIfFundsReserved,
    PrismaConversionRepository.findById]
  have hexists : exec (.existsProcessed payload.eventId) (fun _ ↦ false) db = .ok (false, []) := by
    simp [exec, hp]
  rw [Prog.solo_call_none hexists]
  simp only [Bool.false_eq_true, if_false, Prog.handle_call]
  rcases hs with hs | hs
  · -- the statement advances the conversion and returns it
    have hdb : postgres.applyAll db
        [.updateConversion k.id.value { row with status := .EXECUTION_REQUESTED }] =
        requestedDb db payload row := by
      simp only [Store.applyAll_cons, Store.applyAll_nil, postgres_apply, Db.write, hrow',
        reduceCtorEq, if_false, requestedDb, hk.id_eq]
    rw [Prog.solo_call_none (exec_requestExecution hrow' hchecks hs hm.event fun _ ↦ false),
      Store.applyAll_nil, hdb]
    simp only [hdomain, attempt_ok, Prog.handle_ret, Prog.pure_eq_ret]
  · -- an earlier attempt has advanced it
    have hsame : ({ row with status := .EXECUTION_REQUESTED } : ConversionRow) = row := by
      rw [← hs]
    have hdb : requestedDb db payload row = db := by
      rw [requestedDb, hsame, Table.insert_self hrow]
    have hfind : exec (.findConversion k.id.value) (fun _ ↦ false) db = .ok (some row, []) := by
      simp only [exec, hrow']
    rw [hsame] at hdomain
    rw [Prog.solo_call_none (exec_requestExecution_of_ne hrow' (by simp [hs]) fun _ ↦ false)]
    simp only [Prog.handle_call, Store.applyAll_nil]
    rw [Prog.solo_call_none hfind, hdb]
    simp only [hdomain, attempt_ok, Prog.handle_ret, Prog.pure_eq_ret, Store.applyAll_nil]

/-- An event that was processed is skipped. -/
theorem solo_execute_replay (hk : k.StoredAs env payload.conversionId row) {p : ProcessedRow}
    (hp : db.processed.lookup payload.eventId = some p) :
    (execute env payload inputs).solo postgres none db = (.returned .replay, db) := by
  have hid : ConversionId.of payload.conversionId = .ok k.id := by
    rw [hk.id_eq, ConversionId.of_value]
  have hexists : exec (.existsProcessed payload.eventId) (fun _ ↦ false) db = .ok (true, []) := by
    simp [exec, hp]
  simp only [execute, hid, attempt_ok, Prog.bind_eq_handle, Prog.handle_ret,
    PrismaProcessedMessageRepository.exists', sql, Prog.handle_stmt]
  rw [Prog.solo_call_none hexists]
  rfl

/-! ### What the commits of an execution leave alone -/

section Commits

/-- The wallets change in the settlement only. -/
theorem wallets_of_commit (h : Commit env (.execute payload inputs) a b) :
    b.wallets = a.wallets ∨ Settled payload b := by
  cases h with
  | idle => exact .inl rfl
  | executionRequested => exact .inl rfl
  | exchangeRecorded => exact .inl rfl
  | completed settles =>
    obtain rfl := settles.id_eq
    exact .inr ⟨_, Finmap.lookup_insert _, rfl⟩
  | failed settles =>
    obtain rfl := settles.id_eq
    exact .inr ⟨_, Finmap.lookup_insert _, rfl⟩
  | reconciling settles => exact .inl rfl

/-- The exchange records an order in the mode of the execution. -/
theorem exchange_of_commit (h : Commit env (.execute payload inputs) a b) {x : ExchangeRow}
    (hx : b.exchange.lookup payload.eventId = some x) :
    a.exchange.lookup payload.eventId = some x ∨ x.outcome = inputs.mode := by
  cases h with
  | exchangeRecorded =>
    rw [Finmap.lookup_insert, Option.some.injEq] at hx
    exact .inr (hx ▸ rfl)
  | _ => exact .inl hx

theorem wallets_of_commits (h : ReflTransGen (Commit env (.execute payload inputs)) a b) :
    b.wallets = a.wallets ∨ Settled payload b := by
  induction h with
  | refl => exact .inl rfl
  | tail _ hcommit ih =>
    rcases ih with heq | hsettled
    · exact (wallets_of_commit hcommit).imp_left (·.trans heq)
    · exact .inr (hsettled.evolves hcommit.evolves)

theorem exchange_of_commits (h : ReflTransGen (Commit env (.execute payload inputs)) a b)
    {x : ExchangeRow} (hx : b.exchange.lookup payload.eventId = some x) :
    a.exchange.lookup payload.eventId = some x ∨ x.outcome = inputs.mode := by
  induction h with
  | refl => exact .inl hx
  | tail _ hcommit ih => exact (exchange_of_commit hcommit hx).elim ih .inr

theorem evolves_of_commits {t : Task} (h : ReflTransGen (Commit env t) a b) : Evolves a b := by
  induction h with
  | refl => exact .refl _
  | tail _ hcommit ih => exact ih.trans hcommit.evolves

/-- The credit of an open conversion fits the column of the target wallet. -/
def CreditFits (payload : ConversionExecutionRequestedPayload) (db : Db) : Prop :=
  ∀ row w, db.conversions.lookup payload.conversionId = some row →
    row.status.isTerminal = false → db.wallets.lookup (row.userId, row.targetAsset) = some w →
    w.balance.1 + row.targetAmount.1 < 10 ^ 20

/-- **No commit of an execution makes its credit too large.** -/
theorem CreditFits.not_overflows (hfits : CreditFits payload a)
    (hrow : a.conversions.lookup payload.conversionId = some row)
    (h : ReflTransGen (Commit env (.execute payload inputs)) a b) :
    ¬ CreditOverflows payload b := by
  rintro ⟨row', w, hrow', hstatus, hw, hover⟩
  obtain ⟨r, hr, he⟩ := (evolves_of_commits h).conversions _ row hrow
  rw [hrow', Option.some.injEq] at hr
  subst hr
  have hopen : row'.status.isTerminal = false := by rw [hstatus]; rfl
  rcases wallets_of_commits h with hwallets | ⟨r, hr, ht⟩
  · obtain ⟨-, huser, -, htarget, -, hamount, -⟩ := he.terms
    rw [hwallets, huser, htarget] at hw
    refine hover (hamount ▸ hfits row w hrow ?_ hw)
    rcases ht : row.status.isTerminal with - | -
    · rfl
    · rwa [he.eq_of_terminal ht, ht] at hopen
  · rw [hrow', Option.some.injEq] at hr
    rw [hr, ht] at hopen
    cases hopen

end Commits

/-! ### Recovery -/

section Recovery

variable {s : System} {id : String} {event : OutboxRow}

/-- The tables stay valid when the execution is requested, unless it was before. -/
theorem Valid.requestedDb (h : Valid env wallets a)
    (hrow : a.conversions.lookup payload.conversionId = some row)
    (hs : row.status = .FUNDS_RESERVED ∨ row.status = .EXECUTION_REQUESTED)
    (hevent : row.exchangeExecutionId = some payload.eventId) (inputs : ExecuteInputs) :
    Valid env wallets (requestedDb a payload row) := by
  rcases hs with hs | hs
  · exact h.of_commit (t := .execute payload inputs) (.executionRequested hrow hs hevent)
  · have hsame : ({ row with status := .EXECUTION_REQUESTED } : ConversionRow) = row := by rw [← hs]
    rwa [Ledger.requestedDb, hsame, Table.insert_self hrow]

/-- An open conversion awaits its execution or its result. -/
theorem Valid.status_of_open (h : Valid env wallets a) {c : String}
    (hrow : a.conversions.lookup c = some row) (hopen : row.status.isTerminal = false) :
    row.status = .FUNDS_RESERVED ∨ row.status = .EXECUTION_REQUESTED := by
  have hcreated := (h.conversions _ row hrow).notCreated
  cases hstatus : row.status <;> simp_all [ConversionStatus.isTerminal]

/-- **Rewinding does not matter.** From the tables that earlier attempts have left, an execution
alone does what it does from the tables before them, when the exchange answers the same. -/
theorem solo_execute_rewound (h : Valid env wallets db)
    (hrow : db.conversions.lookup payload.conversionId = some row)
    (hopen : row.status.isTerminal = false) (hm : Matches env payload row) :
    (execute env payload inputs).solo postgres none db =
      (execute env payload { inputs with mode := answered db payload inputs.mode }).solo postgres
        none (db.rewound payload) := by
  have hknown : Known env payload row db := ⟨hm, row, hrow, .refl row⟩
  have hs := h.status_of_open hrow hopen
  have hp : db.processed.lookup payload.eventId = none := by
    cases hp : db.processed.lookup payload.eventId with
    | none => rfl
    | some p =>
      obtain ⟨r, hr, ht⟩ := h.settled_of_processed hknown hp
      rw [hrow, Option.some.injEq] at hr
      rw [hr, ht] at hopen
      cases hopen
  obtain ⟨k, hk⟩ := ((h.requestedDb hrow hs hm.event inputs).conversions payload.conversionId _
    (Finmap.lookup_insert _)).stored
  have hchecks := (h.conversions _ row hrow).checks
  -- the conversion with its funds reserved
  have hrow' : (db.rewound payload).conversions.lookup payload.conversionId =
      some { row with status := .FUNDS_RESERVED } := by
    simp only [Db.rewound, hrow]
    exact Finmap.lookup_insert _
  have hchecks' : ({ row with status := .FUNDS_RESERVED } : ConversionRow).violated = none := by
    rw [ConversionRow.violated_eq_none] at hchecks ⊢
    refine ⟨hchecks.1, hchecks.2.1, .inr (.inl ⟨.inl rfl, ?_⟩)⟩
    have := hchecks.2.2
    rcases hs with hs | hs <;> simpa [ConversionRow.lifecycle, hs] using this
  have hnone : (db.rewound payload).exchange.lookup payload.eventId = none :=
    Finmap.lookup_erase _ _
  have hm' : Matches env payload { row with status := .FUNDS_RESERVED } := { hm with }
  have hp' : (db.rewound payload).processed.lookup payload.eventId = none := hp
  have hsame : requestedDb (db.rewound payload) payload { row with status := .FUNDS_RESERVED } =
      { requestedDb db payload row with exchange := db.exchange.erase payload.eventId } := by
    simp only [requestedDb, Db.rewound, hrow, Finmap.insert_insert]
  have hanswered : answered (db.rewound payload) payload (answered db payload inputs.mode) =
      answered db payload inputs.mode := by
    rw [answered, hnone]
    rfl
  have hx : ∀ x, db.exchange.lookup payload.eventId = some x →
      x = exchangeRow payload.eventId payload.conversionId row x.outcome := fun x hx ↦ by
    have hx' := h.exchanged hknown hx
    rw [Exchanged, hx, Option.some.injEq] at hx'
    exact hx'
  have hx' : ∀ x, (db.rewound payload).exchange.lookup payload.eventId = some x →
      x = exchangeRow payload.eventId payload.conversionId
        { row with status := .FUNDS_RESERVED } x.outcome := fun x hx ↦ by
    rw [hnone] at hx
    cases hx
  rw [solo_execute hp hrow hs hchecks hk hm hx,
    solo_execute hp' hrow' (.inl rfl) hchecks' hk hm' hx', hanswered, hsame, recordedDb, recordedDb,
    Table.insert_erase]
  rfl

/-- What one undisturbed execution of the event of an outbox row does, from valid tables. -/
theorem Valid.recovers (hi : Valid env wallets db) (hreadable : ReadableWallets env wallets)
    (hevent : db.outbox.lookup id = some event)
    (hfresh : (Task.execute event.payload inputs).Fresh db)
    (hfits : CreditFits event.payload db) :
    ∃ report db' row x,
      (execute env event.payload inputs).solo postgres none db = (.returned report, db') ∧
      db'.conversions.lookup event.payload.conversionId = some row ∧
      db'.exchange.lookup event.payload.eventId = some x ∧ row.status = statusOf x.outcome ∧
      (∀ x₀, db.exchange.lookup event.payload.eventId = some x₀ → x = x₀) ∧
      (¬ Settled event.payload db →
        (execute env event.payload { inputs with mode := x.outcome }).solo postgres none
          (db.rewound event.payload) = (.returned report, db')) ∧
      (Settled event.payload db → db' = db) := by
  have hgenuine : (Task.execute event.payload inputs).Genuine db := ⟨id, event, hevent, rfl⟩
  obtain ⟨row, hrow, hm⟩ := hi.matches_of_genuine hgenuine
  have hwp : (ledger env wallets fun _ _ ↦ True).wp (.execute event.payload inputs)
      (execute env event.payload inputs)
      (fun r o _ db ↦ o = none ∧ ExecuteAnswer env wallets event.payload r db) none [] db :=
    execute_wp hi hgenuine hfresh
  obtain ⟨db', hi', hcommits, hend⟩ := Contract.solo_of_wp hwp hi fun _ _ ↦ trivial
  rcases hend with ⟨report, o, d, hsolo, -, hsettled⟩ | ⟨e, o, d, -, -, hunreadable⟩ |
    ⟨e, o, st, -, hdemand, herror⟩
  -- the call returns, and has settled the conversion
  · obtain ⟨r, hr, ht⟩ := hsettled
    obtain ⟨r', hr', he⟩ := (evolves_of_commits hcommits).conversions _ row hrow
    rw [hr, Option.some.injEq] at hr'
    subst hr'
    have hevent' := (hm.evolve he).event
    obtain ⟨e, -, outcome, hre, -, -, -, hstatus, hx⟩ := (hi'.conversions _ r hr).settled ht
    rw [hevent', Option.some.injEq] at hre
    subst hre
    have hkept : ∀ x₀, db.exchange.lookup event.payload.eventId = some x₀ →
        exchangeRow event.payload.eventId event.payload.conversionId r outcome = x₀ :=
      fun x₀ hx₀ ↦ by
        have := (evolves_of_commits hcommits).exchange _ x₀ hx₀
        rw [hx, Option.some.injEq] at this
        exact this
    refine ⟨report, db', r, _, hsolo, hr, hx, hstatus, hkept, fun hopen ↦ ?_, fun hdone ↦ ?_⟩
    · -- the outcome is the one an earlier attempt has met, or the one this attempt met
      have hanswered : answered db event.payload inputs.mode = outcome := by
        rw [answered]
        cases hx₀ : db.exchange.lookup event.payload.eventId with
        | some x₀ => exact congrArg ExchangeRow.outcome (hkept x₀ hx₀).symm
        | none =>
          rcases exchange_of_commits hcommits hx with hx' | hmode
          · rw [hx₀] at hx'
            cases hx'
          · exact hmode.symm
      have hopen' : row.status.isTerminal = false := by
        rcases hterminal : row.status.isTerminal with - | -
        · rfl
        · exact absurd ⟨row, hrow, hterminal⟩ hopen
      rw [← hsolo, solo_execute_rewound hi hrow hopen' hm, hanswered]
      rfl
    -- a settled event is answered by the first read
    · obtain ⟨r₀, hr₀, ht₀⟩ := hdone
      rw [hrow, Option.some.injEq] at hr₀
      subst hr₀
      obtain ⟨e, p, -, hre, hp, -⟩ := (hi.conversions _ row hrow).settled ht₀
      rw [hm.event, Option.some.injEq] at hre
      subst hre
      obtain ⟨k, hk⟩ := (hi.conversions _ row hrow).stored
      have hreplay : (_, db) = (_, db') := (solo_execute_replay hk hp).symm.trans hsolo
      exact (congrArg Prod.snd hreplay).symm
  -- neither a row that cannot be read nor an overflow stops it
  · exact absurd hreadable hunreadable
  · have hrange : OutOfRange (.execute event.payload inputs) db' :=
      (Disciplined.accepted hdemand (fun _ ↦ false) e herror).outOfRange
    exact absurd hrange (hfits.not_overflows hrow hcommits)

/-- **Recovery.** Whatever earlier attempts at an event have left behind, one undisturbed execution
of it returns and leaves the conversion settled by the outcome the exchange has recorded, the
outcome of an earlier attempt if there was one. If the conversion was open, the execution leaves the
tables that a first attempt with this outcome leaves; if it was settled, it changes nothing. -/
theorem execute_recovers (hwallets : InitialWallets wallets)
    (hreadable : ReadableWallets env wallets)
    (hrun : System.Reaches env (System.initial wallets) s)
    (hevent : s.db.outbox.lookup id = some event)
    (hfresh : (Task.execute event.payload inputs).Fresh s.db)
    (hfits : CreditFits event.payload s.db) :
    ∃ report db' row x,
      (execute env event.payload inputs).solo postgres none s.db = (.returned report, db') ∧
      db'.conversions.lookup event.payload.conversionId = some row ∧
      db'.exchange.lookup event.payload.eventId = some x ∧ row.status = statusOf x.outcome ∧
      (∀ x₀, s.db.exchange.lookup event.payload.eventId = some x₀ → x = x₀) ∧
      (¬ Settled event.payload s.db →
        (execute env event.payload { inputs with mode := x.outcome }).solo postgres none
          (s.db.rewound event.payload) = (.returned report, db')) ∧
      (Settled event.payload s.db → db' = s.db) :=
  (sound_of_reaches hwallets hrun).inv.recovers hreadable hevent hfresh hfits

theorem readable_sampleWallets : ReadableWallets .reference sampleWallets := by
  have hempty : ReadableWallets .reference ∅ := fun key w hw ↦ by simp at hw
  have hrow : sampleRow.Readable USDT :=
    ⟨by decide +kernel, .intCast _ 1000, .intCast _ 1000, .intCast _ 0⟩
  have hinsert : ReadableWallets .reference
      ((∅ : Table (String × String) WalletRow).insert (sampleUser.value, USDT.code) sampleRow) :=
    hempty.insert (by decide) hrow
  exact hinsert

/-- The exchange refuses the order, the worker is cut off, and the next attempt settles the
conversion, although the exchange would by now accept. -/
theorem execute_recovers_sample : ∃ (s : System) (report : ExecutionReport) (db' : Db)
    (row : ConversionRow) (x : ExchangeRow),
    (execute .reference samplePayload ⟨.SUCCESS, sampleTime, sampleTime, .ofText "w-3"⟩).solo
      postgres none s.db = (.returned report, db') ∧
    db'.conversions.lookup "c-1" = some row ∧ row.status = statusOf x.outcome ∧
    x.outcome = .FAILURE := by
  have hrun : ∃ s, System.Reaches .reference (System.initial sampleWallets) s ∧
      ((s.db.outbox.lookup "e-1").any (fun o ↦ decide (o.payload = samplePayload)) = true ∧
        (s.db.exchange.lookup "e-1").any (fun x ↦ decide (x.outcome = .FAILURE)) = true ∧
        (s.db.wallets.lookup ("u-1", "BTC")) = none ∧
        (s.db.conversions.lookup "c-1").any (fun r ↦
          decide ((r.userId, r.targetAsset) = ("u-1", "BTC"))) = true ∧
        (Task.execute samplePayload
          ⟨.SUCCESS, sampleTime, sampleTime, .ofText "w-3"⟩).Fresh s.db) :=
    System.exists_of_play (sampleAccepted ++ callFor 3 (sampleExecute .FAILURE) 3 ++ [.fail 3]) _
      (by decide +kernel)
  obtain ⟨s, hreaches, hevent, hexchange, hwallet, hrow, hfresh⟩ := hrun
  obtain ⟨event, hevent, hpayload⟩ := (Option.any_eq_true _ _).1 hevent
  obtain ⟨x₀, hx₀, houtcome⟩ := (Option.any_eq_true _ _).1 hexchange
  obtain ⟨r₀, hr₀, hkey⟩ := (Option.any_eq_true _ _).1 hrow
  have hpayload := of_decide_eq_true hpayload
  have hfits : CreditFits event.payload s.db := fun row w hrow _ hw ↦ by
    rw [hpayload] at hrow
    have heq : r₀ = row := Option.some.inj (hr₀.symm.trans hrow)
    rw [← heq, of_decide_eq_true hkey, hwallet] at hw
    cases hw
  obtain ⟨report, db', row, x, hsolo, hr, -, hstatus, hkept, -⟩ := execute_recovers
    (by decide +kernel) readable_sampleWallets hreaches hevent (hpayload ▸ hfresh) hfits
  rw [hpayload] at hsolo hr hkept
  exact ⟨s, report, db', row, x, hsolo, hr, hstatus,
    (hkept x₀ hx₀).symm ▸ of_decide_eq_true houtcome⟩

end Recovery

end Ledger

end WalletConversion
