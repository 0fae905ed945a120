import WalletConversion.Application.System
import WalletConversion.Ledger.Steady

/-!
# An execution of any event

The payload of the event has arbitrary fields. The proof follows the execution to the checks of
`handle`: a payload that passes them is `Allowed`, and terms that are kept leave it so. Everything
after the checks may then be done, and only the statement before them needs a look at what it
writes.

Two kinds of statements come before the checks: reads, and the one that requests the execution. All
later ones write aside from quotes and conversions, except for the save of the conversion itself,
which keeps its terms because the conversion that is saved was read from its row (`Bound`).
-/

namespace WalletConversion

open DecimalNotation Transactional Relation

namespace Ledger

/-! ### Writes aside from quotes and conversions -/

/-- A write of another table than those of quotes and conversions. -/
def Aside : Write → Prop
  | .putQuote _ _ | .insertConversion _ _ | .updateConversion _ _ => False
  | _ => True

theorem Aside.keeps {w : Write} (h : Aside w) (ids : List String) (db : Db) : Keeps ids db w := by
  cases w with
  | putQuote | insertConversion | updateConversion => exact h.elim
  | _ => trivial

/-- Writes aside leave the conversions as they are. -/
theorem conversions_applyAll {ws : List Write} (h : ∀ w ∈ ws, Aside w) (db : Db) :
    (postgres.applyAll db ws).conversions = db.conversions := by
  induction ws generalizing db with
  | nil => rfl
  | cons w ws ih =>
    rw [Store.applyAll_cons, ih fun v hv ↦ h v (List.mem_cons_of_mem _ hv)]
    have hw := h w List.mem_cons_self
    cases w with
    | putQuote | insertConversion | updateConversion => exact hw.elim
    | _ => rfl

/-- Whether a statement writes other tables than those of quotes and conversions. -/
def writesAside : Stmt → Bool
  | .upsertQuote _ | .acceptQuote _ _ _ | .upsertConversion _ | .requestExecution _ _ => false
  | _ => true

/-- A statement that writes aside does so in every case. -/
theorem aside_of_writes {s : Stmt} (hs : writesAside s = true) {w : Write} (hw : s.Writes w) :
    Aside w := by
  cases s with
  | upsertQuote | acceptQuote | upsertConversion | requestExecution => cases hs
  | _ => cases w <;> first | exact hw.elim | trivial

variable {env : Platform} {payload : ConversionExecutionRequestedPayload} {inputs : ExecuteInputs}
  {held : List LockKey} {a b db : Db} {α β : Type} {vs d : List Write}

/-! ### Rules -/

/-- A statement of an execution outside a transaction. -/
theorem steady_autocommit {s : Stmt} {k : s.Result → App α}
    {Q : Except Thrown α → Option (List Write) → List Write → Db → Prop}
    (h : ∀ db', KeepsTerms db db' →
      ((∃ data, s = .insertExchange data) → Allowed env payload db') ∧
      ∀ locked r ws, exec s locked db' = .ok (r, ws) →
        (∀ w ∈ ws, Keeps (Task.execute payload inputs).generatedIds db' w) ∧
        Achieves env (.execute payload inputs) db' (postgres.applyAll db' ws) ∧
        (steady env).wp (.execute payload inputs) (k r) Q none (d ++ ws)
          (postgres.applyAll db' ws)) :
    (steady env).wp (.execute payload inputs) (.call s k) Q none d db := by
  refine Contract.wp_call_none fun db' hr _ ↦ ?_
  obtain ⟨hdemand, hexec⟩ := h db' (steady_of_rely hr).1
  refine ⟨?_, fun locked r ws hx _ ↦ ?_⟩
  · rintro _ _ ⟨⟩ (hnone | hdata)
    · exact absurd rfl hnone
    · exact hdemand hdata
  · obtain ⟨hkeeps, hachieves, hk⟩ := hexec locked r ws hx
    exact ⟨publishes_of_keeps hkeeps hachieves, hk⟩

/-- A statement of an execution outside a transaction that only reads. -/
theorem steady_autocommit_read {s : Stmt} {k : s.Result → App α}
    {Q : Except Thrown α → Option (List Write) → List Write → Db → Prop}
    (hs : ∀ data, s ≠ .insertExchange data)
    (h : ∀ db', KeepsTerms db db' → ∀ locked r ws, exec s locked db' = .ok (r, ws) → ws = [] ∧
      (steady env).wp (.execute payload inputs) (k r) Q none d db') :
    (steady env).wp (.execute payload inputs) (.call s k) Q none d db := by
  refine steady_autocommit fun db' hterms ↦ ⟨fun ⟨data, he⟩ ↦ absurd he (hs data), ?_⟩
  intro locked r ws hx
  obtain ⟨rfl, hk⟩ := h db' hterms locked r ws hx
  exact ⟨by simp, .inl rfl, by rwa [List.append_nil, Store.applyAll_nil]⟩

/-- A part of the settlement that writes neither quotes nor conversions. -/
def StaysAside (env : Platform) (payload : ConversionExecutionRequestedPayload)
    (inputs : ExecuteInputs) (p : App α) : Prop :=
  ∀ vs d db, Allowed env payload db → (∀ w ∈ vs, Aside w) →
    (steady env).wp (.execute payload inputs) p (fun _ o d' db' ↦ d' = d ∧ KeepsTerms db db' ∧
      ∃ vs', o = some vs' ∧ ∀ w ∈ vs', Aside w) (some vs) d db

theorem staysAside_ret (a : α) : StaysAside env payload inputs (Prog.ret a) :=
  fun vs _ _ _ haside ↦ Contract.wp_ret fun _ hr _ ↦ ⟨rfl, (steady_of_rely hr).1, vs, rfl, haside⟩

theorem staysAside_attempt (e : Except JsError α) : StaysAside env payload inputs (attempt e) := by
  cases e with
  | ok a => exact staysAside_ret a
  | error e =>
    exact fun vs _ _ _ haside ↦ Contract.wp_raise fun _ hr _ ↦
      ⟨rfl, (steady_of_rely hr).1, vs, rfl, haside⟩

theorem staysAside_sql {s : Stmt} (hs : writesAside s = true) :
    StaysAside env payload inputs (sql s) := by
  refine fun vs d db hallowed haside ↦ Contract.wp_call_some fun db₁ hr _ ↦
    ⟨?_, fun locked r ws hx ↦ Contract.wp_ret fun db₂ hr' _ ↦
      ⟨rfl, (steady_of_rely hr).1.trans (steady_of_rely hr').1, _, rfl, fun w hw ↦ ?_⟩⟩
  · rintro _ _ ⟨⟩ -
    exact hallowed.of_keepsTerms (steady_of_rely hr).1
  · rcases List.mem_append.1 hw with hw | hw
    · exact haside w hw
    · exact aside_of_writes hs (exec_writes hx w hw).1

theorem staysAside_bind {p : App α} {f : α → App β} (hp : StaysAside env payload inputs p)
    (hf : ∀ a, StaysAside env payload inputs (f a)) : StaysAside env payload inputs (p >>= f) := by
  intro vs d db hallowed haside
  refine Contract.wp_bind (Contract.wp_mono (hp vs d db hallowed haside) ?_) trivial
  rintro (x | a) o d' db₁ ⟨rfl, hterms, vs', rfl, haside'⟩
  · exact Contract.wp_raise fun _ hr _ ↦
      ⟨rfl, hterms.trans (steady_of_rely hr).1, vs', rfl, haside'⟩
  · refine Contract.wp_mono (hf a vs' d' db₁ (hallowed.of_keepsTerms hterms) haside') ?_
    rintro r o d'' db₂ ⟨rfl, hterms', h⟩
    exact ⟨rfl, hterms.trans hterms', h⟩

/-! ### The settlement -/

section Settlement

-- the statements of a program do not depend on how rows are read back
attribute [local irreducible] PrismaWalletRepository.toDomain PrismaConversionRepository.toDomain

theorem settleWallets_aside (conversion : Conversion) (walletId : Uuid) :
    StaysAside env payload inputs
      (ProcessConversionExecutionUseCase.settleWallets env conversion walletId) := by
  unfold ProcessConversionExecutionUseCase.settleWallets
  split
  · refine staysAside_bind (staysAside_bind (staysAside_sql rfl) fun row ↦ ?_) fun _ ↦
      staysAside_bind (staysAside_bind (staysAside_attempt _) fun wallet ↦ ?_) fun _ ↦
      staysAside_bind (staysAside_bind (staysAside_sql rfl) fun row ↦ ?_) fun _ ↦ staysAside_ret _
    · cases row <;> exact staysAside_attempt _
    · unfold PrismaWalletRepository.createIfMissing
      split
      · exact staysAside_sql rfl
      · exact staysAside_attempt _
    · cases row <;> exact staysAside_attempt _
  · exact staysAside_ret _

theorem releaseWallet_aside (conversion : Conversion) :
    StaysAside env payload inputs
      (ProcessConversionExecutionUseCase.releaseWallet env conversion) := by
  unfold ProcessConversionExecutionUseCase.releaseWallet
  split
  · refine staysAside_bind (staysAside_bind (staysAside_sql rfl) fun row ↦ ?_) fun _ ↦
      staysAside_ret _
    cases row <;> exact staysAside_attempt _
  · exact staysAside_ret _

/-! Storing the outcome. -/

/-- What the settlement has collected at the end of its body: writes that keep the terms. -/
def SteadySettled (env : Platform) (payload : ConversionExecutionRequestedPayload)
    (inputs : ExecuteInputs) (d : List Write) (o : Option (List Write)) (d' : List Write)
    (db : Db) : Prop :=
  d' = d ∧ Allowed env payload db ∧
    ∃ vs, o = some vs ∧ ∀ w ∈ vs, Keeps (Task.execute payload inputs).generatedIds db w

/-- The conversion exists with its event, and has not been written. -/
theorem steady_save {c : Conversion} {outcome : ExecutionOutcome} {now : Date}
    {reason : Option String} (hallowed : Allowed env payload db) (haside : ∀ w ∈ vs, Aside w)
    (hrow : ∃ row, db.conversions.lookup c.id.value = some row ∧
      row.exchangeExecutionId = c.exchangeExecutionId) :
    (steady env).wp (.execute payload inputs)
      (ProcessConversionExecutionUseCase.saveOutcome c outcome now reason)
      (fun _ o d' db ↦ SteadySettled env payload inputs d o d' db) (some vs) d db := by
  have hkeeps : ∀ db, ∀ w ∈ vs, Keeps (Task.execute payload inputs).generatedIds db w :=
    fun db w hw ↦ (haside w hw).keeps _ _
  unfold ProcessConversionExecutionUseCase.saveOutcome
  rcases hcall : (Conversion.applyExecutionResult outcome now reason).call c with e | c'
  · exact Contract.wp_raise fun db₁ hr _ ↦
      ⟨rfl, hallowed.of_keepsTerms (steady_of_rely hr).1, vs, rfl, hkeeps db₁⟩
  obtain ⟨hid, hevent⟩ := applyExecutionResult_ok hcall
  refine Contract.wp_call_some fun db₁ hr _ ↦ ⟨?_, fun locked u ws hx ↦ ?_⟩
  · rintro _ _ ⟨⟩ -
    exact hallowed.of_keepsTerms (steady_of_rely hr).1
  obtain ⟨row, hlookup, hrowEvent⟩ := hrow
  obtain ⟨row', hlookup', hsame⟩ := (steady_of_rely hr).1.conversions _ row hlookup
  have hview : (postgres.applyAll db₁ vs).conversions.lookup
      (PrismaConversionRepository.data c').id = some row' := by
    rw [conversions_applyAll haside]
    show db₁.conversions.lookup c'.id.value = _
    rw [hid, hlookup']
  have hexec : exec (.upsertConversion (PrismaConversionRepository.data c')) locked
      (postgres.applyAll db₁ vs) = .ok (u, ws) := hx
  obtain rfl := upsertConversion_old hview hexec
  refine Contract.wp_ret fun db₂ hr' _ ↦ ⟨rfl, (hallowed.of_keepsTerms
    (steady_of_rely hr).1).of_keepsTerms (steady_of_rely hr').1, _, rfl, fun w hw ↦ ?_⟩
  rcases List.mem_append.1 hw with hw | hw
  · exact hkeeps db₂ w hw
  · obtain rfl := List.mem_singleton.1 hw
    obtain ⟨row'', hlookup'', hsame'⟩ := (steady_of_rely hr').1.conversions _ row' hlookup'
    refine .inr ⟨row'', ?_, ?_⟩
    · show db₂.conversions.lookup c'.id.value = _
      rw [hid, hlookup'']
    · have hterms : row'.exchangeExecutionId = c'.exchangeExecutionId := by
        rw [hsame, hevent, ← hrowEvent]
      unfold ConversionRow.SameTerms at hsame' ⊢
      rw [hsame']
      simp [PrismaConversionRepository.data, hterms]

/-- The conversion in memory is bound to the event, and so is its row. -/
structure Bound (payload : ConversionExecutionRequestedPayload) (c : Conversion) (db : Db) :
    Prop where
  id_eq : c.id.value = trim payload.conversionId
  event_eq : c.exchangeExecutionId = some payload.eventId
  row : ∃ row, db.conversions.lookup (trim payload.conversionId) = some row ∧
    row.exchangeExecutionId = some payload.eventId

/-- A conversion stays bound to its event. -/
theorem Bound.of_keepsTerms {c : Conversion} (h : Bound payload c a) (hterms : KeepsTerms a b) :
    Bound payload c b := by
  obtain ⟨row, hrow, hevent⟩ := h.row
  obtain ⟨row', hrow', hsame⟩ := hterms.conversions _ row hrow
  exact ⟨h.id_eq, h.event_eq, row', hrow', by rw [hsame, hevent]⟩

/-- The save of a bound conversion keeps its terms. -/
theorem steady_saveBound {c : Conversion} {outcome : ExecutionOutcome} {now : Date}
    {reason : Option String} (hallowed : Allowed env payload db) (haside : ∀ w ∈ vs, Aside w)
    (hbound : Bound payload c db) :
    (steady env).wp (.execute payload inputs)
      (ProcessConversionExecutionUseCase.saveOutcome c outcome now reason)
      (fun _ o d' db ↦ SteadySettled env payload inputs d o d' db) (some vs) d db := by
  obtain ⟨row, hrow, hevent⟩ := hbound.row
  refine steady_save hallowed haside ⟨row, ?_, ?_⟩
  · rw [hbound.id_eq, hrow]
  · rw [hevent, hbound.event_eq]

/-- A settlement that has nothing to store. -/
theorem steady_settled {r : α} (hallowed : Allowed env payload db) (haside : ∀ w ∈ vs, Aside w) :
    (steady env).wp (.execute payload inputs) (.ret r : App α)
      (fun _ o d' db ↦ SteadySettled env payload inputs d o d' db) (some vs) d db :=
  Contract.wp_ret fun _ hr _ ↦ ⟨rfl, hallowed.of_keepsTerms (steady_of_rely hr).1, vs, rfl,
    fun w hw ↦ (haside w hw).keeps _ _⟩

/-- The wallets are moved, then the outcome is stored. -/
theorem steady_moveThenSave {p : App Unit} {c : Conversion}
    {outcome : ExecutionOutcome} {now : Date}
    {reason : Option String} (hp : StaysAside env payload inputs p)
    (hallowed : Allowed env payload db) (haside : ∀ w ∈ vs, Aside w) (hbound : Bound payload c db) :
    (steady env).wp (.execute payload inputs)
      (p >>= fun _ ↦ ProcessConversionExecutionUseCase.saveOutcome c outcome now reason)
      (fun _ o d' db ↦ SteadySettled env payload inputs d o d' db) (some vs) d db := by
  refine Contract.wp_bind (Contract.wp_mono (hp vs d db hallowed haside) ?_) trivial
  rintro (x | a) o d' db₁ ⟨rfl, hterms, vs', rfl, haside'⟩
  · exact Contract.wp_raise fun _ hr _ ↦ ⟨rfl, (hallowed.of_keepsTerms hterms).of_keepsTerms
      (steady_of_rely hr).1, vs', rfl, fun w hw ↦ (haside' w hw).keeps _ _⟩
  · exact steady_saveBound (hallowed.of_keepsTerms hterms) haside' (hbound.of_keepsTerms hterms)

/-- **Applying an outcome keeps the terms of every quote and conversion.** -/
theorem steady_applyOutcome {c : Conversion} {outcome : ExecutionOutcome} {now : Date}
    {reason : Option String} {walletId : Uuid} (hallowed : Allowed env payload db)
    (haside : ∀ w ∈ vs, Aside w) (hbound : Bound payload c db) :
    (steady env).wp (.execute payload inputs)
      (ProcessConversionExecutionUseCase.applyOutcome env c outcome now reason walletId)
      (fun _ o d' db ↦ SteadySettled env payload inputs d o d' db) (some vs) d db := by
  cases outcome with
  | SUCCESS =>
    simp only [ProcessConversionExecutionUseCase.applyOutcome]
    split
    · exact steady_settled hallowed haside
    · exact steady_moveThenSave (settleWallets_aside _ _) hallowed haside hbound
  | FAILURE =>
    simp only [ProcessConversionExecutionUseCase.applyOutcome]
    split
    · exact steady_settled hallowed haside
    · exact steady_moveThenSave (releaseWallet_aside _) hallowed haside hbound
  | UNKNOWN => exact steady_saveBound hallowed haside hbound

/-- **The body of the settlement.** -/
theorem steady_settlement {conversionId : ConversionId} {result : ExecutionResult}
    (hid : conversionId.value = trim payload.conversionId) (hallowed : Allowed env payload db) :
    (steady env).wp (.execute payload inputs)
      (ProcessConversionExecutionUseCase.settlement env payload conversionId result inputs)
      (fun _ o d' db ↦ SteadySettled env payload inputs d o d' db) (some []) d db := by
  refine Contract.wp_bind (Contract.wp_mono (staysAside_sql (s := .insertProcessed payload.eventId
    payload.conversionId result.outcome inputs.databaseNow) rfl [] d db hallowed (by simp)) ?_)
      trivial
  rintro (x | won) o d' db₁ ⟨rfl, hterms, vs, rfl, haside⟩
  · exact Contract.wp_raise fun _ hr _ ↦ ⟨rfl, (hallowed.of_keepsTerms hterms).of_keepsTerms
      (steady_of_rely hr).1, vs, rfl, fun w hw ↦ (haside w hw).keeps _ _⟩
  have hallowed₁ := hallowed.of_keepsTerms hterms
  rcases won with - | -
  · exact steady_settled hallowed₁ haside
  -- the conversion is read again: it is the allowed one
  refine Contract.wp_call_some (s := Stmt.findConversion conversionId.value) fun db₂ hr₂ _ ↦
    ⟨?_, fun locked x ws hx ↦ ?_⟩
  · rintro _ _ ⟨⟩ -
    exact hallowed₁.of_keepsTerms (steady_of_rely hr₂).1
  have hallowed₂ := hallowed₁.of_keepsTerms (steady_of_rely hr₂).1
  cases hx
  rw [List.append_nil, conversions_applyAll haside]
  obtain ⟨row, -, hlookup, hevent, -⟩ := hallowed₂.conversion
  rw [hid, hlookup]
  dsimp only [Prog.handle_ret]
  rcases hread : PrismaConversionRepository.toDomain env (trim payload.conversionId) row with e | c
  · simp only [Prog.bind_eq_handle, attempt_error, Prog.handle_raise]
    exact Contract.wp_raise fun _ hr _ ↦ ⟨rfl, hallowed₂.of_keepsTerms (steady_of_rely hr).1, vs,
      rfl, fun w hw ↦ (haside w hw).keeps _ _⟩
  simp only [Prog.bind_eq_handle, Prog.pure_eq_ret, attempt_ok, Prog.handle_ret]
  obtain ⟨hcid, -, hcevent⟩ := PrismaConversionRepository.toDomain_eq_ok hread
  have hbound : Bound payload c db₂ :=
    ⟨by rw [hcid, trim_trim], by rw [hcevent, hevent], row, hlookup, hevent⟩
  -- a conversion that still has its funds reserved is advanced in memory
  have hmarked : ∀ fresh, (if c.status = .FUNDS_RESERVED then
      (Conversion.markExecutionRequested payload.eventId).call c else .ok c) = .ok fresh →
      Bound payload fresh db₂ := by
    intro fresh hfresh
    split at hfresh
    · obtain ⟨hid', hevent'⟩ := markExecutionRequested_ok hfresh
      exact ⟨by rw [hid', hbound.id_eq], hevent', hbound.row⟩
    · cases hfresh
      exact hbound
  rcases hfresh : (if c.status = .FUNDS_RESERVED then
      (Conversion.markExecutionRequested payload.eventId).call c else .ok c) with e | fresh
  · simp only [attempt_error, Prog.handle_raise]
    exact Contract.wp_raise fun _ hr _ ↦ ⟨rfl, hallowed₂.of_keepsTerms (steady_of_rely hr).1, vs,
      rfl, fun w hw ↦ (haside w hw).keeps _ _⟩
  simp only [attempt_ok, Prog.handle_ret]
  refine Contract.wp_handle (Contract.wp_mono
    (steady_applyOutcome hallowed₂ haside (hmarked fresh hfresh)) ?_) trivial
  rintro (x | u) o d'' db₃ ⟨rfl, hallowed₃, vs', rfl, hkeeps⟩
  · exact Contract.wp_raise fun _ hr _ ↦ ⟨rfl, hallowed₃.of_keepsTerms (steady_of_rely hr).1, vs',
      rfl, fun w hw ↦ (hkeeps w hw).of_rely hr⟩
  · exact Contract.wp_ret fun _ hr _ ↦ ⟨rfl, hallowed₃.of_keepsTerms (steady_of_rely hr).1, vs',
      rfl, fun w hw ↦ (hkeeps w hw).of_rely hr⟩

/-! ### The execution -/

/-- How an execution may end: it threw, it was skipped as processed, or its payload was allowed. -/
def SteadyReport (env : Platform) (payload : ConversionExecutionRequestedPayload)
    (r : Except Thrown ExecutionReport) (db : Db) : Prop :=
  ∀ report, r = .ok report → (report = .replay ∧ db.processed.lookup payload.eventId ≠ none) ∨
    Allowed env payload db

/-- The settlement transaction, once the exchange has answered. -/
theorem steady_transaction {conversionId : ConversionId} {result : ExecutionResult}
    (hid : conversionId.value = trim payload.conversionId) (hallowed : Allowed env payload db) :
    (steady env).wp (.execute payload inputs)
      (Prog.transaction
        (ProcessConversionExecutionUseCase.settlement env payload conversionId result inputs))
      (fun _ o _ db ↦ o = none ∧ Allowed env payload db) none d db := by
  refine Contract.wp_transaction (Contract.wp_mono (steady_settlement hid hallowed) ?_) trivial
  rintro r o d' db₁ ⟨rfl, hallowed₁, vs, rfl, hkeeps⟩
  refine ⟨vs, rfl, ?_⟩
  cases r with
  | error x =>
    exact Contract.wp_raise fun _ hr _ ↦ ⟨rfl, hallowed₁.of_keepsTerms (steady_of_rely hr).1⟩
  | ok settled =>
    refine fun _ ↦ ⟨publishes_of_keeps hkeeps (.inr (.inr hallowed₁)),
      Contract.wp_ret fun _ hr _ ↦ ⟨rfl, ?_⟩⟩
    exact (hallowed₁.of_keepsTerms (keepsTerms_applyAll hkeeps).1).of_keepsTerms
      (steady_of_rely hr).1

/-- **An allowed payload is executed.** -/
theorem steady_executeAndSettle {conversionId : ConversionId}
    (hid : conversionId.value = trim payload.conversionId) (hallowed : Allowed env payload db) :
    (steady env).wp (.execute payload inputs)
      (ProcessConversionExecutionUseCase.executeAndSettle env payload conversionId inputs)
      (fun _ o _ db ↦ o = none ∧ Allowed env payload db) none d db := by
  have hraise : ∀ {α : Type} {x : Thrown} {d : List Write} {db : Db}, Allowed env payload db →
      (steady env).wp (.execute payload inputs) (.raise x : App α)
        (fun _ o _ db ↦ o = none ∧ Allowed env payload db) none d db := fun hallowed ↦
    Contract.wp_raise fun _ hr _ ↦ ⟨rfl, hallowed.of_keepsTerms (steady_of_rely hr).1⟩
  simp only [ProcessConversionExecutionUseCase.executeAndSettle, Prog.bind_eq_handle,
    FakeExchangeAdapter.execute_eq, Prog.handle_call]
  refine steady_autocommit fun db₁ hterms ↦
    ⟨fun _ ↦ hallowed.of_keepsTerms hterms, fun locked r ws hx ↦ ?_⟩
  have hallowed₁ := hallowed.of_keepsTerms hterms
  have hkeeps : ∀ w ∈ ws, Keeps (Task.execute payload inputs).generatedIds db₁ w := fun w hw ↦
    (aside_of_writes rfl (exec_writes hx w hw).1).keeps _ _
  refine ⟨hkeeps, .inr (.inr hallowed₁), ?_⟩
  have hallowed₂ := hallowed₁.of_keepsTerms (keepsTerms_applyAll hkeeps).1
  refine steady_autocommit_read (by simp) fun db₂ hterms₂ locked x ws hx ↦ ?_
  have hallowed₃ := hallowed₂.of_keepsTerms hterms₂
  cases hx
  refine ⟨rfl, ?_⟩
  rcases db₂.exchange.lookup payload.eventId with - | persisted
  · exact hraise hallowed₃
  simp only [FakeExchangeAdapter.answer, Prog.bind_eq_handle]
  rcases FakeExchangeAdapter.assertSameCommand env _ persisted with e | u
  · exact hraise hallowed₃
  simp only [attempt_ok, Prog.handle_ret, Prog.pure_eq_ret]
  refine Contract.wp_handle (Contract.wp_mono (steady_transaction hid hallowed₃) ?_) trivial
  rintro (x | settled) o d' db₃ ⟨rfl, hallowed₄⟩
  · exact hraise hallowed₄
  · cases settled <;>
      exact Contract.wp_ret fun _ hr _ ↦ ⟨rfl, hallowed₄.of_keepsTerms (steady_of_rely hr).1⟩

/-- The checks of the payload against the conversion that was read. -/
theorem allowed_of_checks {row : ConversionRow} {c : Conversion}
    (hrow : db.conversions.lookup (trim payload.conversionId) = some row)
    (hread : PrismaConversionRepository.toDomain env (trim payload.conversionId) row = .ok c)
    (hchecks : ProcessConversionExecutionUseCase.assertPayloadMatchesConversion env payload c =
      .ok ())
    (hevent : c.exchangeExecutionId = some payload.eventId) : Allowed env payload db := by
  unfold ProcessConversionExecutionUseCase.assertPayloadMatchesConversion at hchecks
  split at hchecks
  · cases hchecks
  rename_i htype
  split at hchecks
  · cases hchecks
  rename_i huser
  split at hchecks
  · cases hchecks
  rename_i hassets
  obtain ⟨source, hsource, hchecks⟩ := except_bind_eq_ok.1 hchecks
  obtain ⟨target, htarget, hchecks⟩ := except_bind_eq_ok.1 hchecks
  split at hchecks
  · cases hchecks
  rename_i hamounts
  split at hchecks
  · cases hchecks
  rename_i htime
  simp only [not_or, not_not, Bool.not_eq_false, Money.equals_iff]
    at htype huser hassets hamounts htime
  obtain ⟨-, hid, hcevent⟩ := PrismaConversionRepository.toDomain_eq_ok hread
  rw [hamounts.1] at hsource
  rw [hamounts.2] at htarget
  exact ⟨htype, htime, row, c, hrow, by rw [← hcevent, hevent], hread, huser, hassets.1, hassets.2,
    hsource, htarget⟩

/-- **The conversion was found.** -/
theorem steady_handle {conversionId : ConversionId} {row : ConversionRow} {c : Conversion}
    (hid : conversionId.value = trim payload.conversionId)
    (hrow : db.conversions.lookup (trim payload.conversionId) = some row)
    (hread : PrismaConversionRepository.toDomain env (trim payload.conversionId) row = .ok c) :
    (steady env).wp (.execute payload inputs)
      (ProcessConversionExecutionUseCase.handle env payload conversionId c inputs)
      (fun r o _ db ↦ o = none ∧ SteadyReport env payload r db) none d db := by
  have hraise : ∀ {x : Thrown} {d : List Write} {db : Db},
      (steady env).wp (.execute payload inputs) (.raise x)
        (fun r o _ db ↦ o = none ∧ SteadyReport env payload r db) none d db :=
    Contract.wp_raise fun _ _ _ ↦ ⟨rfl, by rintro report ⟨⟩⟩
  simp only [ProcessConversionExecutionUseCase.handle, Prog.bind_eq_handle]
  rcases hchecks : ProcessConversionExecutionUseCase.assertPayloadMatchesConversion env payload c
    with e | u
  · exact hraise
  rw [attempt_ok, Prog.handle_ret]
  by_cases hevent : c.exchangeExecutionId = some payload.eventId
  swap
  · rw [if_pos hevent]
    exact hraise
  rw [if_neg (not_not.2 hevent)]
  have hallowed := allowed_of_checks hrow hread hchecks hevent
  split
  · -- a settled conversion without its processed event is repaired
    simp only [PrismaProcessedMessageRepository.tryRecord, sql, Prog.handle_stmt]
    refine steady_autocommit fun db₁ hterms ↦
      ⟨fun _ ↦ hallowed.of_keepsTerms hterms, fun locked r ws hx ↦ ?_⟩
    have hallowed₁ := hallowed.of_keepsTerms hterms
    have hkeeps : ∀ w ∈ ws, Keeps (Task.execute payload inputs).generatedIds db₁ w := fun w hw ↦
      (aside_of_writes rfl (exec_writes hx w hw).1).keeps _ _
    exact ⟨hkeeps, .inr (.inr hallowed₁), Contract.wp_ret fun _ hr _ ↦ ⟨rfl, fun _ _ ↦ .inr
      ((hallowed₁.of_keepsTerms (keepsTerms_applyAll hkeeps).1).of_keepsTerms
        (steady_of_rely hr).1)⟩⟩
  · split
    · exact hraise
    · refine Contract.wp_mono (steady_executeAndSettle hid hallowed) ?_
      rintro r o d' db₁ ⟨rfl, hallowed₁⟩
      exact ⟨rfl, fun _ _ ↦ .inr hallowed₁⟩

/-- **An execution of any payload on arbitrary tables.** -/
theorem steady_execute :
    (steady env).wp (.execute payload inputs)
      (ProcessConversionExecutionUseCase.execute env payload inputs)
      (fun r o _ db ↦ o = none ∧ SteadyReport env payload r db) none d db := by
  have hraise : ∀ {x : Thrown} {d : List Write} {db : Db},
      (steady env).wp (.execute payload inputs) (.raise x)
        (fun r o _ db ↦ o = none ∧ SteadyReport env payload r db) none d db :=
    Contract.wp_raise fun _ _ _ ↦ ⟨rfl, by rintro report ⟨⟩⟩
  simp only [ProcessConversionExecutionUseCase.execute, Prog.bind_eq_handle,
    PrismaProcessedMessageRepository.exists', sql, Prog.handle_stmt,
    PrismaConversionRepository.markExecutionRequestedIfFundsReserved,
    PrismaConversionRepository.findById]
  rcases hof : ConversionId.of payload.conversionId with e | conversionId
  · exact hraise
  have hid := Identifier.of_eq_ok hof
  simp only [attempt_ok, Prog.handle_ret]
  refine steady_autocommit_read (by simp) fun db₁ _ locked known ws hx ↦ ?_
  cases hx
  refine ⟨rfl, ?_⟩
  rcases hp : db₁.processed.lookup payload.eventId with - | p
  swap
  · exact Contract.wp_ret fun db₂ hr _ ↦ ⟨rfl, by
      rintro report ⟨⟩
      exact .inl ⟨rfl, (steady_of_rely hr).1.processed _ (by simp [hp])⟩⟩
  -- the conversion is advanced if its funds are reserved, and read either way
  refine steady_autocommit fun db₂ _ ↦ ⟨by simp, fun locked x ws hx ↦ ?_⟩
  rw [hid] at hx
  rcases requestExecution_ok hx with ⟨rfl, rfl⟩ | ⟨row, hrow, hs, hevent, rfl, rfl⟩
  · refine ⟨by simp, .inl rfl, ?_⟩
    simp only [Prog.handle_call]
    refine steady_autocommit_read (by simp) fun db₃ _ locked found ws hx ↦ ?_
    cases hx
    refine ⟨rfl, ?_⟩
    rw [hid]
    rcases hrow : db₃.conversions.lookup (trim payload.conversionId) with - | row
    · exact hraise
    dsimp only
    rcases hread : PrismaConversionRepository.toDomain env
      (trim payload.conversionId) row with e | c
    · exact hraise
    · exact steady_handle hid hrow hread
  · have hkeeps : ∀ w ∈ [Write.updateConversion (trim payload.conversionId)
        { row with status := .EXECUTION_REQUESTED }],
        Keeps (Task.execute payload inputs).generatedIds db₂ w := by
      simp only [List.mem_singleton, forall_eq]
      exact .inr ⟨row, hrow, rfl⟩
    have hdb : postgres.applyAll db₂ [.updateConversion (trim payload.conversionId)
        { row with status := .EXECUTION_REQUESTED }] =
        { db₂ with conversions := db₂.conversions.insert (trim payload.conversionId)
                    { row with status := .EXECUTION_REQUESTED } } := by
      simp only [Store.applyAll_cons, Store.applyAll_nil, postgres_apply, Db.write, hrow,
        reduceCtorEq, if_false]
    rw [hdb]
    refine ⟨hkeeps, .inr (.inl ⟨row, hrow, hs, hevent, rfl⟩), ?_⟩
    dsimp only
    rw [hid]
    rcases hread : PrismaConversionRepository.toDomain env (trim payload.conversionId)
      { row with status := .EXECUTION_REQUESTED } with e | c
    · exact hraise
    · exact steady_handle hid (Finmap.lookup_insert _) hread

end Settlement

end Ledger

end WalletConversion
