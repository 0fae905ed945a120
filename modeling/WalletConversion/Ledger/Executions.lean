import WalletConversion.Ledger.Settlement

/-!
# Executing an event keeps the contract

An execution publishes up to three commits: the request of the execution, the row of the exchange,
and the settlement. Between them other workers may do the same for the same event, and each of them
may stop anywhere.

`execute_wp`: an execution of a genuine event that returns leaves the conversion settled, whoever
settled it, and it throws only if some wallet could not be read back from the beginning
(`ExecuteAnswer`).
-/

namespace WalletConversion

open DecimalNotation Transactional

namespace Ledger

variable {env : Platform} {opening : Table (String × String) WalletRow}
  {observed : Db → Db → Prop} {a b db : Db}
  {payload : ConversionExecutionRequestedPayload} {inputs : ExecuteInputs} {row : ConversionRow}
  {outcome : ExecutionOutcome} {k : Conversion} {d : List Write} {conversionId : ConversionId}

/-- **What an execution has achieved when it ends.** -/
def ExecuteAnswer (env : Platform) (opening : Table (String × String) WalletRow)
    (payload : ConversionExecutionRequestedPayload) {α : Type} (r : Except Thrown α) (db : Db) :
    Prop :=
  match r with
  | .ok _ => Settled payload db
  | .error _ => ¬ ReadableWallets env opening

/-- **The exchange and the settlement** of a conversion whose execution was requested. -/
theorem executeAndSettle_wp (hi : Valid env opening db)
    (hid : conversionId.value = payload.conversionId) (hknown : Known env payload row db)
    (hs : row.status = .EXECUTION_REQUESTED)
    (hpos : 0 < row.sourceAmount.1 ∧ 0 < row.targetAmount.1)
    (hfresh : (Task.execute payload inputs).Fresh db) :
    (ledger env opening observed).wp (.execute payload inputs)
      (ProcessConversionExecutionUseCase.executeAndSettle env payload conversionId inputs)
      (fun r o _ db ↦ o = none ∧ ExecuteAnswer env opening payload r db) none d db := by
  refine Contract.wp_bind (Contract.wp_mono (exchange_wp hknown hs hpos hfresh) ?_) hi
  rintro r o d db ⟨rfl, hi, hknown, hfresh, outcome, rfl, hx⟩
  refine Contract.wp_bind (Contract.wp_transaction (Contract.wp_mono
    (settlement_wp hid hknown hs hx hfresh) ?_) hi) hi
  rintro r o d db ⟨hi, vs, rfl, h⟩
  refine ⟨vs, rfl, ?_⟩
  rcases r with x | (- | settled)
  · exact Contract.wp_raise fun _ _ _ ↦ Contract.wp_raise fun _ _ _ ↦ ⟨rfl, h⟩
  · obtain ⟨rfl, hsettled⟩ := h
    exact fun _ ↦ ⟨⟨hi, .idle _ _⟩, Contract.wp_ret fun _ hr₁ _ ↦ Contract.wp_ret fun _ hr₂ _ ↦
      ⟨rfl, hsettled.evolves (evolves_of_rely (hr₁.trans hr₂))⟩⟩
  · obtain ⟨hcommit, hsettled⟩ := h
    exact fun _ ↦ ⟨⟨hi.of_commit hcommit, hcommit⟩, Contract.wp_ret fun _ hr₁ _ ↦
      Contract.wp_ret fun _ hr₂ _ ↦ ⟨rfl, hsettled.evolves (evolves_of_rely (hr₁.trans hr₂))⟩⟩

/-- **The event and its conversion**: the checks pass, and what is left to do depends on whether the
conversion was settled already. -/
theorem handle_wp (hi : Valid env opening db) (hid : conversionId.value = payload.conversionId)
    (hk : k.StoredAs env payload.conversionId row) (hm : Matches env payload row)
    (hrow : db.conversions.lookup payload.conversionId = some row)
    (hs : row.status ≠ .FUNDS_RESERVED) (hfresh : (Task.execute payload inputs).Fresh db) :
    (ledger env opening observed).wp (.execute payload inputs)
      (ProcessConversionExecutionUseCase.handle env payload conversionId k inputs)
      (fun r o _ db ↦ o = none ∧ ExecuteAnswer env opening payload r db) none d db := by
  have hvalid := hi.conversions _ row hrow
  have hevent : ¬ k.exchangeExecutionId ≠ some payload.eventId := by
    rw [← hk.execution_eq, hm.event]
    simp
  have hknown : Known env payload row db := ⟨hm, row, hrow, .refl row⟩
  simp only [ProcessConversionExecutionUseCase.handle, Prog.bind_eq_handle,
    assertPayload_ok hk hm, attempt_ok, Prog.handle_ret, if_neg hevent]
  rcases ht : k.isTerminal with - | -
  · -- the only status left is the one in which the result is awaited
    have hrequested : row.status = .EXECUTION_REQUESTED := by
      have hcreated := hvalid.notCreated
      rw [Conversion.isTerminal, ← hk.status_eq] at ht
      cases hstatus : row.status <;> simp_all [ConversionStatus.isTerminal]
    rw [if_neg Bool.false_ne_true, if_neg (by rw [← hk.status_eq, hrequested]; simp)]
    exact executeAndSettle_wp hi hid hknown hrequested
      (ConversionRow.violated_eq_none.1 hvalid.checks).1 hfresh
  · -- a settled conversion has its processed event, so nothing is repaired
    have hterminal : row.status.isTerminal = true := by rwa [hk.status_eq]
    obtain ⟨e, p, outcome, he, hp, -⟩ := hvalid.settled hterminal
    rw [hm.event] at he
    cases he
    have hsettled : Settled payload db := ⟨row, hrow, hterminal⟩
    rw [if_pos rfl]
    refine wp_autocommit_read fun db₁ hr₁ _ ↦ ⟨false, fun _ ↦ ?_, fun _ ↦
      Contract.wp_ret fun db₂ hr₂ _ ↦ ⟨rfl, hsettled.evolves (evolves_of_rely (hr₁.trans hr₂))⟩⟩
    simp [exec, (evolves_of_rely hr₁).processed _ p hp]

/-! ### The whole use case -/

/-- Requesting the execution of a conversion with reserved funds. -/
theorem exec_requestExecution {id e : String} (hrow : db.conversions.lookup id = some row)
    (hchecks : row.violated = none) (hs : row.status = .FUNDS_RESERVED)
    (hevent : row.exchangeExecutionId = some e) (locked : LockKey → Bool) :
    exec (.requestExecution id e) locked db =
      .ok (some { row with status := .EXECUTION_REQUESTED },
        [.updateConversion id { row with status := .EXECUTION_REQUESTED }]) := by
  have hchecks' : ({ row with status := .EXECUTION_REQUESTED } : ConversionRow).violated = none :=
    ConversionEvolves.checks (Or.inr (Or.inl ⟨hs, rfl⟩)) hchecks
  simp only [exec, hrow, if_pos (And.intro hs hevent), bind, Except.bind, hchecks', checked_none]

/-- Any other conversion is left alone. -/
theorem exec_requestExecution_of_ne {id e : String} (hrow : db.conversions.lookup id = some row)
    (hs : row.status ≠ .FUNDS_RESERVED) (locked : LockKey → Bool) :
    exec (.requestExecution id e) locked db = .ok (none, []) := by
  simp only [exec, hrow, if_neg fun h : _ ∧ _ ↦ hs h.1]

/-- **Executing a genuine event keeps the contract**, and settles its conversion. -/
theorem execute_wp (hi : Valid env opening db)
    (hgenuine : (Task.execute payload inputs).Genuine db)
    (hfresh : (Task.execute payload inputs).Fresh db) :
    (ledger env opening observed).wp (.execute payload inputs)
      (ProcessConversionExecutionUseCase.execute env payload inputs)
      (fun r o _ db ↦ o = none ∧ ExecuteAnswer env opening payload r db) none d db := by
  obtain ⟨row, hrow, hm⟩ := hi.matches_of_genuine hgenuine
  obtain ⟨k, hk⟩ := (hi.conversions _ row hrow).stored
  have hid : ConversionId.of payload.conversionId = .ok k.id := by
    rw [hk.id_eq, ConversionId.of_value]
  have hknown : Known env payload row db := ⟨hm, row, hrow, .refl row⟩
  simp only [ProcessConversionExecutionUseCase.execute, hid, attempt_ok, Prog.bind_eq_handle,
    Prog.handle_ret, PrismaProcessedMessageRepository.exists', sql, Prog.handle_stmt,
    PrismaConversionRepository.markExecutionRequestedIfFundsReserved,
    PrismaConversionRepository.findById]
  -- between two statements others commit, so each fact is carried over
  refine wp_autocommit_read fun db₁ hr₁ hi₁ ↦ ?_
  have hknown₁ := hknown.evolves (evolves_of_rely hr₁)
  have hfresh₁ := fresh_of_rely hr₁ hfresh
  rcases hp : db₁.processed.lookup payload.eventId with - | p
  swap
  · exact ⟨true, fun _ ↦ by simp [exec, hp], fun _ ↦ Contract.wp_ret fun db₂ hr₂ _ ↦
      ⟨rfl, (hi₁.settled_of_processed hknown₁ hp).evolves (evolves_of_rely hr₂)⟩⟩
  refine ⟨false, fun _ ↦ by simp [exec, hp], fun _ ↦ ?_⟩
  rw [if_neg Bool.false_ne_true]
  have hread : ∀ {db : Db}, Valid env opening db → ∀ {r : ConversionRow},
      db.conversions.lookup payload.conversionId = some r → ∃ k' : Conversion,
        k'.StoredAs env payload.conversionId r ∧
        PrismaConversionRepository.toDomain env k.id.value r = .ok k' := fun hi r hr ↦ by
    obtain ⟨k', hk'⟩ := (hi.conversions _ r hr).stored
    exact ⟨k', hk', hk.id_eq ▸ hk'.toDomain⟩
  refine wp_autocommit fun db₂ hr₂ hi₂ ↦ ?_
  obtain ⟨hm, r, hr, he⟩ := hknown₁.evolves (evolves_of_rely hr₂)
  have hm₂ := hm.evolve he
  have hfresh₂ := fresh_of_rely hr₂ hfresh₁
  have hr' : db₂.conversions.lookup k.id.value = some r := hk.id_eq ▸ hr
  by_cases hs : r.status = .FUNDS_RESERVED
  · -- the conversion advances, and is handled as the statement returned it
    have hadvance : ConversionEvolves r { r with status := .EXECUTION_REQUESTED } :=
      Or.inr (Or.inl ⟨hs, rfl⟩)
    have hdb : postgres.applyAll db₂
        [.updateConversion k.id.value { r with status := .EXECUTION_REQUESTED }] =
        { db₂ with conversions := db₂.conversions.insert payload.conversionId
                    { r with status := .EXECUTION_REQUESTED } } := by
      rw [hk.id_eq]
      simp only [Store.applyAll_cons, Store.applyAll_nil, postgres_apply, Db.write, hr',
        reduceCtorEq, if_false]
    have hcommit : Commit env (.execute payload inputs) db₂ (postgres.applyAll db₂
        [.updateConversion k.id.value { r with status := .EXECUTION_REQUESTED }]) :=
      hdb ▸ .executionRequested hr hs hm₂.event
    have hi₃ := hi₂.of_commit hcommit
    have hrow₃ : (postgres.applyAll db₂ [.updateConversion k.id.value
        { r with status := .EXECUTION_REQUESTED }]).conversions.lookup payload.conversionId =
        some { r with status := .EXECUTION_REQUESTED } := by
      rw [hdb]
      exact Finmap.lookup_insert _
    obtain ⟨k', hk', htoDomain⟩ := hread hi₃ hrow₃
    refine ⟨_, _, exec_requestExecution hr' (hi₂.conversions _ r hr).checks hs hm₂.event,
      by simp [Write.keys, MayLock, hk.id_eq], hcommit,
      fun _ ↦ ?_⟩
    simp only [htoDomain, attempt_ok, Prog.handle_ret, Prog.pure_eq_ret]
    exact handle_wp hi₃ hk.id_eq.symm hk' (hm₂.evolve hadvance) hrow₃ (by simp) (hdb ▸ hfresh₂)
  -- it was requested before, and is read once more
  · refine ⟨none, [], exec_requestExecution_of_ne hr' hs, by simp, .idle _ _, fun _ ↦ ?_⟩
    refine wp_autocommit_read fun db₃ hr₃ hi₃ ↦ ?_
    obtain ⟨r₃, hrow₃, he₃⟩ := (evolves_of_rely hr₃).conversions _ r hr
    obtain ⟨k', hk', htoDomain⟩ := hread hi₃ hrow₃
    have hfound : db₃.conversions.lookup k.id.value = some r₃ := hk.id_eq ▸ hrow₃
    refine ⟨some r₃, fun _ ↦ by simp [exec, hfound], fun _ ↦ ?_⟩
    simp only [htoDomain, attempt_ok, Prog.handle_ret, Prog.pure_eq_ret]
    exact handle_wp hi₃ hk.id_eq.symm hk' (hm₂.evolve he₃) hrow₃ (he₃.ne_fundsReserved hs)
      (fresh_of_rely hr₃ hfresh₂)

end Ledger

end WalletConversion
