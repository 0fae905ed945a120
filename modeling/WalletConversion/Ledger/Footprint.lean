import WalletConversion.Application.System
import WalletConversion.Foundation.Footprint
import WalletConversion.Ledger.Effects
import WalletConversion.Ledger.Encoding

/-!
# What each task may touch

Read off the text of the programs: which statements a task can issue, and with which keys. An accept
works on its own idempotency key and its own conversion only, and an execution on its own event and
conversion. `Kind` says the same of the writes these statements make.

An execution requests its conversion in its second statement, and never again: what follows once the
conversion is fetched is `AfterFetch`.
-/

namespace WalletConversion

open Transactional

namespace Ledger

/-! ### Statements and writes of a task -/

/-- The statements a task can issue. -/
def May : Task → Stmt → Prop
  | .createQuote _ _ _, st =>
    match st with
    | .upsertQuote _ => True
    | _ => False
  | .acceptQuote command inputs, st =>
    match st with
    | .findIdempotency key | .insertIdempotency _ key _ _ | .completeIdempotency _ key _ _ _ =>
      key = trim command.idempotencyKey
    | .upsertConversion data => data.id = inputs.conversionId.value
    | .findQuote _ | .acceptQuote _ _ _ | .createOutbox _ | .reserveWallet _ _ _ => True
    | _ => False
  | .execute payload _, st =>
    match st with
    | .existsProcessed eventId | .insertProcessed eventId _ _ _ | .findExchange eventId =>
      eventId = payload.eventId
    | .insertExchange data => data.clientOrderId = payload.eventId
    | .findConversion id | .requestExecution id _ => id = trim payload.conversionId
    | .upsertConversion data =>
      data.id = trim payload.conversionId ∧ data.status ≠ .FUNDS_RESERVED
    | .insertWallet _ _ _ | .releaseWallet _ _ _ | .commitWallet _ _ _
    | .creditWallet _ _ _ => True
    | _ => False
  | .markPublished _ _, st =>
    match st with
    | .markPublished _ _ => True
    | _ => False
  | .cleanup _ _ _ _, st =>
    match st with
    | .deleteExpired _ _ _ => True
    | _ => False

/-- The writes a task can make. -/
def Kind : Task → Write → Prop
  | .createQuote _ _ _, w =>
    match w with
    | .putQuote _ _ => True
    | _ => False
  | .acceptQuote command inputs, w =>
    match w with
    | .putIdempotency key _ => key = trim command.idempotencyKey
    | .insertConversion id _ | .updateConversion id _ => id = inputs.conversionId.value
    | .putQuote _ _ | .putOutbox _ _ | .putWallet _ _ _ => True
    | _ => False
  | .execute payload _, w =>
    match w with
    | .putProcessed eventId _ | .putExchange eventId _ => eventId = payload.eventId
    | .insertConversion id row | .updateConversion id row =>
      id = trim payload.conversionId ∧ row.status ≠ .FUNDS_RESERVED
    | .putWallet _ _ _ => True
    | _ => False
  | .markPublished _ _, w =>
    match w with
    | .putOutbox _ _ => True
    | _ => False
  | .cleanup _ _ _ _, w =>
    match w with
    | .deleteIdempotency _ => True
    | _ => False

/-- The statements an execution can issue once its conversion is fetched. -/
def AfterFetch (payload : ConversionExecutionRequestedPayload) : Stmt → Prop
  | .existsProcessed eventId | .insertProcessed eventId _ _ _ | .findExchange eventId =>
    eventId = payload.eventId
  | .insertExchange data => data.clientOrderId = payload.eventId
  | .findConversion id => id = trim payload.conversionId
  | .upsertConversion data =>
    data.id = trim payload.conversionId ∧ data.status ≠ .FUNDS_RESERVED
  | .insertWallet _ _ _ | .releaseWallet _ _ _ | .commitWallet _ _ _ | .creditWallet _ _ _ => True
  | _ => False

/-- What may follow the first read is what an execution may issue. -/
theorem AfterFetch.may {payload : ConversionExecutionRequestedPayload} {st : Stmt}
    (h : AfterFetch payload st) (inputs : ExecuteInputs) : May (.execute payload inputs) st := by
  cases st <;> first | exact h | exact h.elim

/-- **The statements of a task make its writes only.** -/
theorem exec_kind {t : Task} {st : Stmt} {locked : LockKey → Bool} {db : Db} {r : st.Result}
    {ws : List Write} (hmay : May t st) (h : exec st locked db = .ok (r, ws)) :
    ∀ w ∈ ws, Kind t w := by
  intro w hw
  have hwrites := (exec_writes h w hw).1
  cases t with
  | createQuote command generatedId now =>
    cases st <;> first | exact hmay.elim | skip
    cases w <;> first | exact hwrites.elim | trivial
  | acceptQuote command inputs =>
    cases st <;> first | exact hmay.elim | skip
    all_goals
      cases w <;> first
        | exact hwrites.elim
        | trivial
        | exact Eq.trans hwrites hmay
        | exact hwrites.1.trans hmay
  | execute payload inputs =>
    cases st <;> first | exact hmay.elim | skip
    all_goals
      cases w <;> first
        | exact hwrites.elim
        | trivial
        | exact Eq.trans hwrites hmay
        | exact ⟨hwrites.1.trans hmay, by rw [hwrites.2]; simp⟩
        | exact ⟨hwrites.1.trans hmay.1, hwrites.2 ▸ hmay.2⟩
  | markPublished id publishedAt =>
    cases st <;> first | exact hmay.elim | skip
    cases w <;> first | exact hwrites.elim | trivial
  | cleanup now retentionMs batchSize place =>
    cases st <;> first | exact hmay.elim | skip
    cases w <;> first | exact hwrites.elim | trivial

/-! ### Programs -/

section Programs

variable {env : Platform} {P : Stmt → Prop} {α β : Type}

-- the statements of a program do not depend on how rows are read back
attribute [local irreducible] PrismaQuoteRepository.toDomain PrismaWalletRepository.toDomain
  PrismaConversionRepository.toDomain

theorem issues_sql {st : Stmt} (h : P st) : (sql st).Issues P := Prog.issues_stmt h

theorem issues_attempt (e : Except JsError α) : (attempt e).Issues P := by
  cases e <;> trivial

/-- A statement whose result is matched on. -/
theorem issues_call {st : Stmt} {k : st.Result → App α} (h : P st) (hk : ∀ r, (k r).Issues P) :
    (sql st >>= k).Issues P := Prog.issues_bind (issues_sql h) hk

/-- A result that is computed and returned. -/
theorem issues_return (e : Except JsError α) (f : α → β) :
    (attempt e >>= fun a ↦ pure (f a)).Issues P :=
  Prog.issues_bind (issues_attempt e) fun _ ↦ Prog.issues_pure _

/-- A result that is computed and gone on with. -/
theorem issues_attempt_bind {e : Except JsError α} {f : α → App β}
    (hf : ∀ a, e = .ok a → (f a).Issues P) : (attempt e >>= f).Issues P := by
  cases e with
  | ok a => exact hf a rfl
  | error e => exact Prog.issues_raise _

/-! The accept. -/

theorem reserve_issues (userId : UserId) (asset : Asset) (amount : Money)
    (h : ∀ u a m, P (.reserveWallet u a m)) :
    (PrismaWalletRepository.reserve env userId asset amount).Issues P := by
  refine issues_call (h _ _ _) fun row ↦ ?_
  cases row with
  | none => exact Prog.issues_pure _
  | some row => exact issues_return _ _

variable {command : AcceptQuoteCommand} {inputs : AcceptInputs}

theorem finish_issues (quote : Quote) {conversion : Conversion}
    (hid : conversion.id.value = inputs.conversionId.value) :
    (AcceptQuoteUseCase.finish (trim command.idempotencyKey) quote conversion inputs).Issues
      (May (.acceptQuote command inputs)) := by
  refine issues_attempt_bind fun reserved hreserved ↦ issues_attempt_bind fun bound hbound ↦ ?_
  have hid' : bound.id.value = inputs.conversionId.value := by
    rw [bindExecutionEvent_id hbound, markFundsReserved_id hreserved, hid]
  refine issues_call hid' fun _ ↦ Prog.issues_bind (issues_attempt _) fun _ ↦ ?_
  refine issues_call trivial fun _ ↦ Prog.issues_bind ?_ fun _ ↦ Prog.issues_pure _
  refine issues_call rfl fun count ↦ ?_
  split
  · exact Prog.issues_pure _
  · exact issues_attempt _

theorem convert_issues (quote : Quote) :
    (AcceptQuoteUseCase.convert env (trim command.idempotencyKey) quote inputs).Issues
      (May (.acceptQuote command inputs)) := by
  refine Prog.issues_bind ?_ fun accepted ↦ ?_
  · unfold PrismaQuoteRepository.saveAccepted
    split
    · refine issues_call trivial fun row ↦ ?_
      cases row with
      | none => exact Prog.issues_pure _
      | some row => exact issues_return _ _
    · exact issues_attempt _
  · cases accepted with
    | none => exact Prog.issues_raise _
    | some _ =>
      refine issues_attempt_bind fun id hof ↦ issues_attempt_bind fun conversion hcreate ↦ ?_
      have hid : conversion.id.value = inputs.conversionId.value := by
        rw [create_id hcreate, Identifier.of_eq_ok hof, inputs.conversionId.trimmed]
      refine issues_call hid fun _ ↦
        Prog.issues_bind (reserve_issues _ _ _ fun _ _ _ ↦ trivial) fun outcome ↦ ?_
      cases outcome with
      | insufficientOrConflict => exact Prog.issues_raise _
      | reserved _ => exact finish_issues _ hid

/-- The statements of the transaction of an accept. -/
theorem work_issues (quoteId hash : String) :
    (AcceptQuoteUseCase.work env quoteId (trim command.idempotencyKey) hash inputs).Issues
      (May (.acceptQuote command inputs)) := by
  refine issues_call rfl fun won ↦ ?_
  split
  · refine Prog.issues_bind (issues_attempt _) fun _ ↦ Prog.issues_bind ?_ fun quote ↦ ?_
    · refine issues_call trivial fun row ↦ ?_
      cases row with
      | none => exact Prog.issues_pure _
      | some row => exact issues_return _ _
    · cases quote with
      | none => exact Prog.issues_raise _
      | some quote =>
        dsimp only
        split
        · split
          · exact Prog.issues_raise _
          · exact Prog.issues_raise _
          · exact issues_attempt _
        · exact convert_issues _
  · refine Prog.issues_bind (issues_call rfl fun _ ↦ Prog.issues_pure _) fun lookup ↦ ?_
    cases lookup with
    | missing => exact Prog.issues_pure _
    | inProgress | completed =>
      dsimp only
      split <;> exact Prog.issues_pure _

/-- The statements of the polls for a response. -/
theorem wait_issues (hash : String) (polls : ℕ) :
    (AcceptQuoteUseCase.waitForIdempotentCompletion (trim command.idempotencyKey) hash polls).Issues
      (May (.acceptQuote command inputs)) := by
  induction polls with
  | zero => exact Prog.issues_pure _
  | succ polls ih =>
    refine Prog.issues_bind (issues_call rfl fun _ ↦ Prog.issues_pure _) fun lookup ↦ ?_
    cases lookup with
    | missing => exact Prog.issues_pure _
    | inProgress => exact ih
    | completed =>
      dsimp only
      split <;> exact Prog.issues_pure _

/-- **The statements of an accept.** -/
theorem accept_issues :
    (AcceptQuoteUseCase.execute env command inputs).Issues (May (.acceptQuote command inputs)) := by
  unfold AcceptQuoteUseCase.execute
  split
  · exact Prog.issues_pure _
  · refine Prog.issues_handle ?_ (fun _ ↦ Prog.issues_ret _) fun x ↦ ?_
    · refine Prog.issues_bind (Prog.issues_transaction (work_issues _ _)) fun result ↦ ?_
      cases result with
      | created | replay => exact Prog.issues_pure _
      | error =>
        dsimp only
        split
        · refine Prog.issues_bind (wait_issues _ _) fun replay ↦ ?_
          cases replay <;> exact Prog.issues_pure _
        · exact Prog.issues_pure _
    · cases x <;> trivial

/-! The execution. -/

variable {payload : ConversionExecutionRequestedPayload} {given : ExecuteInputs}

/-- The statements of the exchange, all on the order of the event. -/
theorem exchange_issues (mode : ExecutionOutcome) (order : ExecuteConversionCommand)
    (h : order.clientOrderId = payload.eventId) :
    (FakeExchangeAdapter.execute env order mode).Issues (AfterFetch payload) := by
  refine issues_call h fun _ ↦ issues_call h fun row ↦ ?_
  cases row with
  | none => exact issues_attempt _
  | some row => exact issues_return _ _

theorem saveOutcome_issues {conversion : Conversion}
    (hid : conversion.id.value = trim payload.conversionId)
    (outcome : ExecutionOutcome) (now : Date)
    (reason : Option String) :
    (ProcessConversionExecutionUseCase.saveOutcome conversion outcome now reason).Issues
      (AfterFetch payload) := by
  refine issues_attempt_bind fun saved hsaved ↦ issues_sql ⟨?_, ?_⟩
  · show saved.id.value = trim payload.conversionId
    rw [(applyExecutionResult_ok hsaved).1, hid]
  · exact applyExecutionResult_status hsaved

theorem commitReservation_issues (userId : UserId) (asset : Asset) (amount : Money) :
    (PrismaWalletRepository.commitReservation env userId asset amount).Issues
      (AfterFetch payload) := by
  refine issues_call trivial fun row ↦ ?_
  cases row <;> exact issues_attempt _

theorem credit_issues (userId : UserId) (asset : Asset) (amount : Money) :
    (PrismaWalletRepository.credit env userId asset amount).Issues (AfterFetch payload) := by
  refine issues_call trivial fun row ↦ ?_
  cases row <;> exact issues_attempt _

theorem release_issues (userId : UserId) (asset : Asset) (amount : Money) :
    (PrismaWalletRepository.release env userId asset amount).Issues
      (AfterFetch payload) := by
  refine issues_call trivial fun row ↦ ?_
  cases row <;> exact issues_attempt _

/-- The statements that provide the target wallet. -/
theorem ensureTargetWallet_issues (userId : UserId) (asset : Asset) (walletId : Uuid) :
    (ProcessConversionExecutionUseCase.ensureTargetWallet userId asset walletId).Issues
      (AfterFetch payload) := by
  refine Prog.issues_bind (issues_attempt _) fun wallet ↦ ?_
  unfold PrismaWalletRepository.createIfMissing
  split
  · exact issues_sql trivial
  · exact issues_attempt _

theorem applyOutcome_issues {conversion : Conversion}
    (hid : conversion.id.value = trim payload.conversionId)
    (outcome : ExecutionOutcome) (now : Date)
    (reason : Option String) (walletId : Uuid) :
    (ProcessConversionExecutionUseCase.applyOutcome env conversion outcome now reason
      walletId).Issues (AfterFetch payload) := by
  cases outcome with
  | SUCCESS =>
    dsimp only [ProcessConversionExecutionUseCase.applyOutcome]
    split
    · exact Prog.issues_pure _
    · refine Prog.issues_bind ?_ fun _ ↦ saveOutcome_issues hid _ _ _
      unfold ProcessConversionExecutionUseCase.settleWallets
      split
      · exact Prog.issues_bind (commitReservation_issues _ _ _) fun _ ↦
          Prog.issues_bind (ensureTargetWallet_issues _ _ _) fun _ ↦
          Prog.issues_bind (credit_issues _ _ _) fun _ ↦ Prog.issues_pure _
      · exact Prog.issues_pure _
  | FAILURE =>
    dsimp only [ProcessConversionExecutionUseCase.applyOutcome]
    split
    · exact Prog.issues_pure _
    · refine Prog.issues_bind ?_ fun _ ↦ saveOutcome_issues hid _ _ _
      unfold ProcessConversionExecutionUseCase.releaseWallet
      split
      · exact Prog.issues_bind (release_issues _ _ _) fun _ ↦ Prog.issues_pure _
      · exact Prog.issues_pure _
  | UNKNOWN => exact saveOutcome_issues hid _ _ _

theorem findConversion_issues {conversionId : ConversionId}
    (hid : conversionId.value = trim payload.conversionId) :
    (PrismaConversionRepository.findById env conversionId).Issues (AfterFetch payload) := by
  refine issues_call hid fun row ↦ ?_
  cases row with
  | none => exact Prog.issues_pure _
  | some row => exact issues_return _ _

/-- The conversion that is read is the one of the event. -/
theorem findById_issues_bind {conversionId : ConversionId} {f : Option Conversion → App α}
    (hid : conversionId.value = trim payload.conversionId)
    (hf : ∀ found, (∀ c, found = some c → c.id.value = trim payload.conversionId) →
      (f found).Issues (AfterFetch payload)) :
    (PrismaConversionRepository.findById env conversionId >>= f).Issues (AfterFetch payload) := by
  refine ⟨hid, fun row ↦ ?_⟩
  cases row with
  | none => exact hf none (by rintro c ⟨⟩)
  | some row =>
    show ((attempt (PrismaConversionRepository.toDomain env conversionId.value row) >>=
      fun c ↦ pure (some c)) >>= f).Issues (AfterFetch payload)
    cases hread : PrismaConversionRepository.toDomain env conversionId.value row with
    | error e => exact Prog.issues_raise _
    | ok c =>
      refine hf (some c) ?_
      rintro c ⟨⟩
      rw [(PrismaConversionRepository.toDomain_eq_ok hread).1, hid, trim_trim]

/-- The statements of a settlement. -/
theorem settlement_issues {conversionId : ConversionId}
    (hid : conversionId.value = trim payload.conversionId) (result : ExecutionResult) :
    (ProcessConversionExecutionUseCase.settlement env payload conversionId result given).Issues
      (AfterFetch payload) := by
  refine issues_call rfl fun won ↦ ?_
  split
  · refine findById_issues_bind hid fun conversion hc ↦ ?_
    cases conversion with
    | none => exact issues_attempt _
    | some c =>
      refine issues_attempt_bind fun fresh hfresh ↦ ?_
      have hid' : fresh.id.value = trim payload.conversionId := by
        split at hfresh
        · rw [(markExecutionRequested_ok hfresh).1, hc c rfl]
        · cases hfresh
          exact hc c rfl
      exact Prog.issues_bind (applyOutcome_issues hid' _ _ _ _) fun _ ↦ Prog.issues_pure _
  · exact Prog.issues_pure _

/-- The statements that follow the read of the conversion. -/
theorem handle_issues {conversionId : ConversionId}
    (hid : conversionId.value = trim payload.conversionId) (conversion : Conversion) :
    (ProcessConversionExecutionUseCase.handle env payload conversionId conversion given).Issues
      (AfterFetch payload) := by
  refine Prog.issues_bind (issues_attempt _) fun _ ↦ ?_
  split
  · exact issues_attempt _
  · split
    · exact issues_call rfl fun _ ↦ Prog.issues_pure _
    · split
      · exact issues_attempt _
      · refine Prog.issues_bind (exchange_issues _ _ rfl) fun result ↦
          Prog.issues_bind (Prog.issues_transaction (settlement_issues hid _)) fun settled ↦ ?_
        cases settled <;> exact Prog.issues_pure _

/-- **The statements of an execution.** -/
theorem execute_issues :
    (ProcessConversionExecutionUseCase.execute env payload given).Issues
      (May (.execute payload given)) := by
  unfold ProcessConversionExecutionUseCase.execute
  rcases hid : ConversionId.of payload.conversionId with e | conversionId
  · exact Prog.issues_raise _
  · have htrim := Identifier.of_eq_ok hid
    refine issues_call rfl fun processed ↦ ?_
    split
    · exact Prog.issues_pure _
    · refine Prog.issues_bind ?_ fun conversion ↦ ?_
      · refine issues_call htrim fun row ↦ ?_
        cases row with
        | none => exact (findConversion_issues htrim).mono fun _ h ↦ h.may given
        | some row => exact issues_return _ _
      · cases conversion with
        | none => exact issues_attempt _
        | some conversion => exact (handle_issues htrim conversion).mono fun _ h ↦ h.may given

/-! All tasks. -/

/-- **A program issues the statements of its task only.** -/
theorem program_issues (t : Task) : (t.program env).Issues (May t) := by
  cases t with
  | createQuote command generatedId now =>
    refine Prog.issues_bind ?_ fun _ ↦ Prog.issues_pure _
    unfold CreateQuoteUseCase.execute
    split
    · exact issues_attempt _
    · exact issues_call trivial fun _ ↦ Prog.issues_pure _
  | acceptQuote command inputs =>
    exact Prog.issues_bind accept_issues fun _ ↦ Prog.issues_pure _
  | execute payload inputs => exact Prog.issues_bind execute_issues fun _ ↦ Prog.issues_pure _
  | markPublished id publishedAt =>
    exact Prog.issues_bind (issues_sql trivial) fun _ ↦ Prog.issues_pure _
  | cleanup now retentionMs batchSize place =>
    refine Prog.issues_bind ?_ fun _ ↦ Prog.issues_pure _
    unfold IdempotencyCleanupService.cleanupBatch
    split
    · exact issues_attempt _
    · exact issues_sql trivial

end Programs

end Ledger

end WalletConversion
