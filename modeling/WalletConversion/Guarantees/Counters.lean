import WalletConversion.Foundation.Claims
import WalletConversion.Guarantees.Agreement
import WalletConversion.Ledger.Footprint

/-!
# What the counters count

A worker counts a conversion as completed, or as failed, after the transaction that settled it. It
may be cut off between the two, and an event may be delivered any number of times, to several
workers at once.

`counted_once` compares the counters with the tables. Every settled conversion has been claimed by
exactly one call (`claimed_of_run`). This call counts it, unless it is cut off, and no other call
does: what a call reports and what it has published agree (`program_logs`).
-/

namespace WalletConversion

open Transactional Relation

/-- The event that a write claims, and its row. -/
def Write.claim : Write → Option (String × ProcessedRow)
  | .putProcessed eventId row => some (eventId, row)
  | _ => none

/-- Every statement but the one that claims an event. -/
def Stmt.Harmless : Stmt → Prop
  | .insertProcessed _ _ _ _ => False
  | _ => True

namespace Ledger

variable {env : Platform} {wallets : Table (String × String) WalletRow} {t : Task} {s : System}

/-- A harmless statement records no settlement. -/
theorem claim_of_harmless {st : Stmt} {locked : LockKey → Bool} {db : Db} {r : st.Result}
    {ws : List Write} (hst : st.Harmless) (h : postgres.exec st locked db = .ok (r, ws)) :
    ∀ w ∈ ws, w.claim = none := by
  intro w hw
  have hwrites := (exec_writes h w hw).1
  cases w with
  | putProcessed eventId row => cases st <;> first | exact hst.elim | exact hwrites.elim
  | _ => rfl

/-- **Events are claimed once**, under their lock. -/
def eventClaims : Claiming postgres String where
  claims w := w.claim.map Prod.fst
  Holds db w := ∀ c, w.claim = some c → db.processed.lookup c.1 = some c.2
  Taken db e := db.processed.lookup e ≠ none
  lock e := .processed e
  lock_mem w e h := by
    obtain ⟨c, hc, rfl⟩ := Option.map_eq_some_iff.1 h
    cases w <;> cases hc
    exact List.mem_singleton_self _
  same_taken a b e h := by
    have heq : a.processed.lookup e = b.processed.lookup e := h
    rw [heq]
  exec_free st locked db r ws h := by
    cases st with
    | insertProcessed eventId conversionId outcome now =>
      have hx : exec (.insertProcessed eventId conversionId outcome now) locked db =
          .ok (r, ws) := h
      simp only [exec] at hx
      rcases hnone : db.processed.lookup eventId with - | row
      · rw [hnone] at hx
        cases hx
        refine ⟨?_, List.pairwise_singleton _ _⟩
        rintro w hw e he
        rw [List.mem_singleton.1 hw] at he
        cases he
        exact not_not.2 hnone
      · rw [hnone] at hx
        cases hx
        exact ⟨List.forall_mem_nil _, List.Pairwise.nil⟩
    | _ =>
      have hws := claim_of_harmless (by trivial) h
      refine ⟨fun w hw e he ↦ ?_, List.pairwise_of_forall_mem_list fun w hw w' _ e he ↦ ?_⟩ <;>
        rw [hws w hw] at he <;> cases he
  taken_apply db w e h := by
    cases w with
    | putProcessed eventId row =>
      show (db.processed.insert eventId row).lookup e ≠ none
      rcases eq_or_ne e eventId with rfl | hne
      · rw [Finmap.lookup_insert]
        exact Option.some_ne_none _
      · rwa [Finmap.lookup_insert_of_ne _ hne]
    | insertConversion id row | updateConversion id row =>
      show (Db.write db _).processed.lookup e ≠ none
      rw [Db.write]
      split <;> exact h
    | _ => exact h
  taken_cases db w e h := by
    cases w with
    | putProcessed eventId row =>
      have h' : (db.processed.insert eventId row).lookup e ≠ none := h
      rcases eq_or_ne e eventId with rfl | hne
      · exact .inr rfl
      · rw [Finmap.lookup_insert_of_ne _ hne] at h'
        exact .inl h'
    | insertConversion id row | updateConversion id row =>
      have h' : (Db.write db _).processed.lookup e ≠ none := h
      rw [Db.write] at h'
      split at h' <;> exact .inl h'
    | _ => exact .inl h
  taken_of_holds db w e he h := by
    obtain ⟨c, hc, rfl⟩ := Option.map_eq_some_iff.1 he
    rw [h c hc]
    exact Option.some_ne_none _
  holds_apply db w e he c hc := by
    cases w <;> cases hc
    exact Finmap.lookup_insert _
  holds_keep db w w' e he he' h c hc := by
    obtain rfl : c.1 = e := by
      rw [hc] at he
      exact Option.some.inj he
    cases w' with
    | putProcessed eventId row =>
      have hne : c.1 ≠ eventId := fun heq ↦ he' (congrArg some heq.symm)
      show (db.processed.insert eventId row).lookup c.1 = some c.2
      rw [Finmap.lookup_insert_of_ne _ hne]
      exact h c hc
    | insertConversion id row | updateConversion id row =>
      show (Db.write db _).processed.lookup c.1 = some c.2
      rw [Db.write]
      split <;> exact h c hc
    | _ => exact h c hc

/-! ### What the calls publish -/

/-- What a call that has ended has claimed: an execution that reports a settlement has claimed its
event, and every other call has claimed nothing. -/
def HasClaimed (t : Task) (r : Except Thrown TaskResult) (d : List Write) : Prop :=
  match t, r with
  | .execute payload inputs, .ok (.execution (.processed outcome settled)) =>
    settled = true ∧ d.filterMap Write.claim =
      [(payload.eventId, ⟨payload.conversionId, outcome, inputs.databaseNow⟩)]
  | _, _ => ∀ w ∈ d, w.claim = none

/-- A call records at most the one settlement of its event. -/
theorem HasClaimed.claims {t : Task} {r : Except Thrown TaskResult} {d : List Write}
    (h : HasClaimed t r d) : d.filterMap Write.claim = [] ∨
      ∃ payload inputs outcome, t = .execute payload inputs ∧ d.filterMap Write.claim =
        [(payload.eventId, ⟨payload.conversionId, outcome, inputs.databaseNow⟩)] := by
  unfold HasClaimed at h
  split at h
  · exact .inr ⟨_, _, _, rfl, h.2⟩
  · exact .inl (List.filterMap_eq_nil_iff.2 h)

/-- What the statements of a call find: valid tables, the event of an execution, and free what the
call is about to claim. -/
structure Finds (env : Platform) (wallets : Table (String × String) WalletRow) (t : Task)
    (o : Option (List Write)) (db : Db) : Prop where
  valid : Valid env wallets db
  genuine : t.Genuine db
  free : ∀ vs, o = some vs → ∀ w ∈ vs, ∀ c, w.claim = some c → db.processed.lookup c.1 = none

section Programs

variable {payload : ConversionExecutionRequestedPayload} {inputs : ExecuteInputs}
  {conversionId : ConversionId} {d : List Write} {α β : Type}

-- the statements of a program do not depend on how rows are read back
attribute [local irreducible] PrismaQuoteRepository.toDomain PrismaWalletRepository.toDomain
  PrismaConversionRepository.toDomain

/-- The task ends as `Q` says, and has claimed nothing before. -/
abbrev Logs (env : Platform) (wallets : Table (String × String) WalletRow) (t : Task) (p : App α)
    (Q : Except Thrown α → Option (List Write) → List Write → Prop) (o : Option (List Write))
    (d : List Write) : Prop :=
  p.Logs postgres (Finds env wallets t) (Commit env t) (fun d ↦ ∀ w ∈ d, w.claim = none) Q o d

/-! No statement of these programs claims an event. -/

theorem plain_sql {st : Stmt} (h : st.Harmless) : (sql st).Plain Stmt.Harmless :=
  ⟨h, fun _ ↦ trivial⟩

theorem plain_attempt (e : Except JsError α) : (attempt e).Plain Stmt.Harmless := by
  cases e <;> trivial

theorem plain_call {st : Stmt} {k : st.Result → App α} (h : st.Harmless)
    (hk : ∀ r, (k r).Plain Stmt.Harmless) : (sql st >>= k).Plain Stmt.Harmless :=
  Prog.plain_bind (plain_sql h) hk

theorem plain_return (e : Except JsError α) (f : α → β) :
    (attempt e >>= fun a ↦ pure (f a)).Plain Stmt.Harmless :=
  Prog.plain_bind (plain_attempt e) fun _ ↦ trivial

theorem saveOutcome_plain (conversion : Conversion) (outcome : ExecutionOutcome) (now : Date)
    (reason : Option String) :
    (ProcessConversionExecutionUseCase.saveOutcome conversion outcome now reason).Plain
      Stmt.Harmless :=
  Prog.plain_bind (plain_attempt _) fun _ ↦ plain_sql trivial

/-- Moving the wallets records no settlement. -/
theorem settleWallets_plain (conversion : Conversion) (walletId : Uuid) :
    (ProcessConversionExecutionUseCase.settleWallets env conversion walletId).Plain
      Stmt.Harmless := by
  unfold ProcessConversionExecutionUseCase.settleWallets
  split
  · refine Prog.plain_bind (plain_call trivial fun row ↦ ?_) fun _ ↦
      Prog.plain_bind (Prog.plain_bind (plain_attempt _) fun wallet ↦ ?_) fun _ ↦
        Prog.plain_bind (plain_call trivial fun row ↦ ?_) fun _ ↦ trivial
    · cases row <;> exact plain_attempt _
    · unfold PrismaWalletRepository.createIfMissing
      split
      · exact plain_sql trivial
      · exact plain_attempt _
    · cases row <;> exact plain_attempt _
  · trivial

theorem releaseWallet_plain (conversion : Conversion) :
    (ProcessConversionExecutionUseCase.releaseWallet env conversion).Plain Stmt.Harmless := by
  unfold ProcessConversionExecutionUseCase.releaseWallet
  split
  · refine Prog.plain_bind (plain_call trivial fun row ↦ ?_) fun _ ↦ trivial
    cases row <;> exact plain_attempt _
  · trivial

theorem applyOutcome_plain (conversion : Conversion) (outcome : ExecutionOutcome) (now : Date)
    (reason : Option String) (walletId : Uuid) :
    (ProcessConversionExecutionUseCase.applyOutcome env conversion outcome now reason
      walletId).Plain Stmt.Harmless := by
  cases outcome with
  | SUCCESS =>
    dsimp only [ProcessConversionExecutionUseCase.applyOutcome]
    split
    · trivial
    · exact Prog.plain_bind (settleWallets_plain _ _) fun _ ↦ saveOutcome_plain _ _ _ _
  | FAILURE =>
    dsimp only [ProcessConversionExecutionUseCase.applyOutcome]
    split
    · trivial
    · exact Prog.plain_bind (releaseWallet_plain _) fun _ ↦ saveOutcome_plain _ _ _ _
  | UNKNOWN => exact saveOutcome_plain _ _ _ _

/-- Nor does the exchange. -/
theorem exchange_plain (mode : ExecutionOutcome) (order : ExecuteConversionCommand) :
    (FakeExchangeAdapter.execute env order mode).Plain Stmt.Harmless := by
  refine plain_call trivial fun _ ↦ plain_call trivial fun row ↦ ?_
  cases row with
  | none => exact plain_attempt _
  | some row => exact plain_return _ _

/-- Nor does the request of the execution. -/
theorem requestExecution_plain (eventId : String) :
    (PrismaConversionRepository.markExecutionRequestedIfFundsReserved env conversionId
      eventId).Plain Stmt.Harmless := by
  refine plain_call trivial fun row ↦ ?_
  cases row with
  | none =>
    refine plain_call trivial fun row ↦ ?_
    cases row with
    | none => trivial
    | some row => exact plain_return _ _
  | some row => exact plain_return _ _

/-- Such a program, outside of a transaction, leaves it at that. -/
theorem logs_of_harmless {p : App α} {Q : Except Thrown α → Option (List Write) → List Write → Prop}
    (hp : p.Plain Stmt.Harmless) (hd : ∀ w ∈ d, w.claim = none)
    (h : ∀ r d, (∀ w ∈ d, w.claim = none) → Q r none d) : Logs env wallets t p Q none d :=
  Prog.logs_of_plain (fun _ _ _ _ _ hst hx ↦ claim_of_harmless hst hx) hp
    (fun _ hws ↦ List.forall_mem_append.2 ⟨hd, hws⟩)
    fun r _ hws ↦ h r _ (List.forall_mem_append.2 ⟨hd, hws⟩)

/-! ### The settlement -/

/-- What the transaction of an execution has published: the claim, or nothing. -/
def Settlement (payload : ConversionExecutionRequestedPayload) (inputs : ExecuteInputs)
    (outcome : ExecutionOutcome) (r : Except Thrown (Option Bool)) (d : List Write) : Prop :=
  match r with
  | .ok (some settled) => settled = true ∧ d.filterMap Write.claim =
      [(payload.eventId, ⟨payload.conversionId, outcome, inputs.databaseNow⟩)]
  | _ => ∀ w ∈ d, w.claim = none

/-- Whoever claims an event finds its conversion open. -/
theorem Finds.isOpen {p : ProcessedRow} {db : Db} {row : ConversionRow}
    (h : Finds env wallets (.execute payload inputs) (some [.putProcessed payload.eventId p]) db)
    (hid : ConversionId.of payload.conversionId = .ok conversionId)
    (hrow : db.conversions.lookup conversionId.value = some row) :
    row.status.isTerminal = false := by
  obtain ⟨r, hr, hm⟩ := h.valid.matches_of_genuine h.genuine
  obtain ⟨k, hk⟩ := (h.valid.conversions _ r hr).stored
  have hvalue : conversionId.value = payload.conversionId := by
    rw [hk.id_eq, ConversionId.of_value] at hid
    cases hid
    exact hk.id_eq.symm
  obtain rfl : r = row := by
    rw [hvalue, hr] at hrow
    exact Option.some.inj hrow
  by_contra hterminal
  obtain ⟨e, p', _, he, hp', -⟩ := (h.valid.conversions _ r hr).settled (by simpa using hterminal)
  rw [hm.event, Option.some.injEq] at he
  have hfree := h.free _ rfl _ (List.mem_singleton_self _) (payload.eventId, p) rfl
  rw [he, hp'] at hfree
  cases hfree

/-- What was requested is so by its status. -/
theorem markExecutionRequested_status {e : String} {c c' : Conversion}
    (h : (Conversion.markExecutionRequested e).call c = .ok c') :
    c'.status = .EXECUTION_REQUESTED := by
  simp only [Conversion.markExecutionRequested, Mutation.call, Mutation.bind_apply,
    Mutation.throwIf_apply, Mutation.assign_apply] at h
  by_cases hstatus : c.status ≠ .FUNDS_RESERVED
  · simp [hstatus] at h
  by_cases hempty : trim e = ""
  · simp [hstatus, hempty] at h
  by_cases hbound : c.exchangeExecutionId ≠ none ∧ c.exchangeExecutionId ≠ some e
  · simp [hstatus, hempty, hbound] at h
  rw [if_neg hstatus, if_neg hempty] at h
  dsimp only at h
  rw [if_neg hbound] at h
  cases h
  rfl

/-- An open conversion is still open when it is settled. -/
theorem isOpen_of_advanced {c fresh : Conversion} (h : c.status.isTerminal = false)
    (hfresh : (if c.status = .FUNDS_RESERVED then
      (Conversion.markExecutionRequested payload.eventId).call c else .ok c) = .ok fresh) :
    fresh.status ≠ .COMPLETED ∧ fresh.status ≠ .FAILED := by
  split at hfresh
  · rw [markExecutionRequested_status hfresh]
    exact ⟨by decide, by decide⟩
  · cases hfresh
    constructor <;> rintro hstatus <;> rw [hstatus] at h <;> cases h

/-- What the transaction of an execution ends with, inside the transaction. -/
abbrev Ends (payload : ConversionExecutionRequestedPayload) (inputs : ExecuteInputs)
    (outcome : ExecutionOutcome) (r : Except Thrown (Option Bool)) (o : Option (List Write))
    (d : List Write) : Prop :=
  (∀ w ∈ d, w.claim = none) ∧ match r with
  | .ok settled => ∀ vs, o = some vs → Settlement payload inputs outcome (.ok settled) (d ++ vs)
  | .error x => Settlement payload inputs outcome (.error x) d

/-- An open conversion is settled after its event was claimed. -/
theorem settleOpen_logs {c : Conversion} (hopen : c.status.isTerminal = false)
    (result : ExecutionResult) (hd : ∀ w ∈ d, w.claim = none) {vs : List Write}
    (hvs : vs.filterMap Write.claim =
      [(payload.eventId, ⟨payload.conversionId, result.outcome, inputs.databaseNow⟩)]) :
    Logs env wallets (.execute payload inputs) (do
      let fresh ← attempt (if c.status = .FUNDS_RESERVED then
          (Conversion.markExecutionRequested payload.eventId).call c
        else .ok c)
      ProcessConversionExecutionUseCase.applyOutcome env fresh result.outcome inputs.now
        result.reason inputs.walletId
      return some (fresh.status ≠ .COMPLETED ∧ fresh.status ≠ .FAILED : Bool))
      (Ends payload inputs result.outcome) (some vs) d := by
  refine Prog.logs_bind ?_
  cases hfresh : (if c.status = .FUNDS_RESERVED then
    (Conversion.markExecutionRequested payload.eventId).call c else .ok c) with
  | error e => exact ⟨hd, hd⟩
  | ok fresh =>
    have hstill := isOpen_of_advanced hopen hfresh
    refine Prog.logs_bind (Prog.logs_of_plain_some
      (fun _ _ _ _ _ hst hx ↦ claim_of_harmless hst hx) (applyOutcome_plain _ _ _ _ _) hd ?_)
    rintro (x | _) us hus
    · exact ⟨hd, hd⟩
    · refine ⟨hd, fun _ h ↦ ⟨decide_eq_true hstill, ?_⟩⟩
      cases h
      rw [List.filterMap_append, List.filterMap_eq_nil_iff.2 hd, List.filterMap_append, hvs,
        List.filterMap_eq_nil_iff.2 hus]
      rfl

/-- **A settlement claims its event**, or publishes nothing. -/
theorem settlement_logs (hid : ConversionId.of payload.conversionId = .ok conversionId)
    (result : ExecutionResult) (hd : ∀ w ∈ d, w.claim = none) :
    Logs env wallets (.execute payload inputs)
      (Prog.transaction (ProcessConversionExecutionUseCase.settlement env payload conversionId
        result inputs)) (fun r _ d ↦ Settlement payload inputs result.outcome r d) none d := by
  refine Prog.logs_transaction hd ⟨hd, fun db locked won ws _ hx ↦ ?_⟩
  have hx' : exec (.insertProcessed payload.eventId payload.conversionId result.outcome
    inputs.databaseNow) locked db = .ok (won, ws) := hx
  simp only [exec] at hx'
  split at hx' <;> cases hx'
  · -- somebody else has claimed the event
    refine ⟨hd, fun vs hvs ↦ ?_⟩
    cases hvs
    show ∀ w ∈ d ++ [], w.claim = none
    rwa [List.append_nil]
  refine ⟨hd, fun db' _ row ws hfinds hfind ↦ ?_⟩
  obtain ⟨hrow, rfl⟩ : row = db'.conversions.lookup conversionId.value ∧ ws = [] := by
    cases hfind
    exact ⟨rfl, rfl⟩
  cases row with
  | none => exact ⟨hd, hd⟩
  | some row =>
    have hopen := hfinds.isOpen hid hrow.symm
    show Logs env wallets _ ((attempt (PrismaConversionRepository.toDomain env conversionId.value
      row) >>= fun c ↦ pure (some c)) >>= _) _ _ d
    cases hread : PrismaConversionRepository.toDomain env conversionId.value row with
    | error e => exact ⟨hd, hd⟩
    | ok c =>
      rw [← (PrismaConversionRepository.toDomain_eq_ok hread).2.1] at hopen
      have hclaimed : [Write.putProcessed payload.eventId ⟨payload.conversionId, result.outcome,
          inputs.databaseNow⟩].filterMap Write.claim =
          [(payload.eventId, ⟨payload.conversionId, result.outcome, inputs.databaseNow⟩)] := rfl
      have hlogs := @settleOpen_logs env wallets payload inputs d c hopen result hd _ hclaimed
      refine hlogs.mono ?_
      rintro (x | settled) o d h <;> exact h

/-- An execution reports a settlement if and only if it has claimed its event. -/
def Reported (payload : ConversionExecutionRequestedPayload) (inputs : ExecuteInputs)
    (r : Except Thrown ExecutionReport) (d : List Write) : Prop :=
  HasClaimed (.execute payload inputs) (r.map .execution) d

/-- A conversion whose event matches it is executed. -/
theorem executeAndSettle_logs (hid : ConversionId.of payload.conversionId = .ok conversionId)
    (hd : ∀ w ∈ d, w.claim = none) :
    Logs env wallets (.execute payload inputs)
      (ProcessConversionExecutionUseCase.executeAndSettle env payload conversionId inputs)
      (fun r _ d ↦ Reported payload inputs r d) none d := by
  refine Prog.logs_bind (logs_of_harmless (exchange_plain _ _) hd ?_)
  rintro (x | result) d hd
  · exact hd
  refine Prog.logs_bind ((settlement_logs hid result hd).mono ?_)
  rintro (x | _ | settled) o d h
  · exact h
  · exact h
  · exact h

/-- **A settlement is repaired in no run**: an event alone is not claimed, because its conversion
was settled along with it. -/
theorem not_repaired {db : Db} {p : ProcessedRow}
    (hnone : db.processed.lookup payload.eventId = none) :
    ¬ Commit env (.execute payload inputs) db (db.write (.putProcessed payload.eventId p)) := by
  generalize hb : db.write (.putProcessed payload.eventId p) = b
  have hprocessed : b.processed.lookup payload.eventId = some p := by
    rw [← hb]
    exact Finmap.lookup_insert _
  have hconversions : b.conversions = db.conversions := by rw [← hb]; rfl
  -- the conversion of a settlement changes
  have hchanges : ∀ {c : String} {row : ConversionRow} {outcome : ExecutionOutcome},
      Settles db payload c row outcome →
      db.conversions.insert c (settledRow row outcome inputs.now) ≠ db.conversions := by
    intro c row outcome hsettles heq
    have hlookup := hsettles.lookup
    rw [← heq, Finmap.lookup_insert, Option.some.injEq] at hlookup
    have hstatus := congrArg ConversionRow.status hlookup
    rw [hsettles.status] at hstatus
    cases outcome <;> cases hstatus
  intro h
  cases h with
  | idle | executionRequested | exchangeRecorded =>
    exact absurd (hnone.symm.trans hprocessed) (Option.some_ne_none _).symm
  | completed settles | failed settles | reconciling settles =>
    exact hchanges settles hconversions

/-- **What follows the first read claims the event exactly when it reports a settlement.** -/
theorem handle_logs (hid : ConversionId.of payload.conversionId = .ok conversionId)
    (conversion : Conversion) (hd : ∀ w ∈ d, w.claim = none) :
    Logs env wallets (.execute payload inputs)
      (ProcessConversionExecutionUseCase.handle env payload conversionId conversion inputs)
      (fun r _ d ↦ Reported payload inputs r d) none d := by
  refine Prog.logs_bind (logs_of_harmless (plain_attempt _) hd ?_)
  rintro (x | _) d hd
  · exact hd
  dsimp only
  split
  · exact hd
  split
  · refine ⟨hd, fun db locked won ws _ hx hcommit ↦ ?_⟩
    have hx' : exec (.insertProcessed payload.eventId payload.conversionId
      (ProcessConversionExecutionUseCase.outcomeFromStatus conversion) inputs.databaseNow) locked
      db = .ok (won, ws) := hx
    simp only [exec] at hx'
    split at hx'
    · cases hx'
      show ∀ w ∈ d ++ [], w.claim = none
      rwa [List.append_nil]
    · rename_i hnone
      cases hx'
      exact absurd hcommit (not_repaired hnone)
  split
  · exact hd
  · exact executeAndSettle_logs hid hd

/-- **What an execution reports is what it has claimed.** -/
theorem execute_logs : Logs env wallets (.execute payload inputs)
    (ProcessConversionExecutionUseCase.execute env payload inputs)
    (fun r _ d ↦ Reported payload inputs r d) none [] := by
  have hnil : ∀ w ∈ ([] : List Write), w.claim = none := List.forall_mem_nil _
  refine Prog.logs_bind ?_
  cases hid : ConversionId.of payload.conversionId with
  | error e => exact hnil
  | ok conversionId =>
    refine Prog.logs_bind (logs_of_harmless (plain_sql trivial) hnil ?_)
    rintro (x | processed) d hd
    · exact hd
    dsimp only
    split
    · exact hd
    refine Prog.logs_bind (logs_of_harmless (requestExecution_plain _) hd ?_)
    rintro (x | _ | conversion) d hd
    · exact hd
    · exact hd
    · exact handle_logs hid conversion hd

/-- The writes of a task that is no execution claim nothing. -/
theorem claim_of_kind {w : Write} (ht : ∀ payload inputs, t ≠ .execute payload inputs)
    (h : Kind t w) : w.claim = none := by
  cases w with
  | putProcessed eventId row =>
    cases t with
    | execute payload inputs => exact absurd rfl (ht payload inputs)
    | _ => exact h.elim
  | _ => rfl

theorem hasClaimed_of_ne {r : Except Thrown TaskResult}
    (ht : ∀ payload inputs, t ≠ .execute payload inputs) (h : ∀ w ∈ d, w.claim = none) :
    HasClaimed t r d := by
  cases t with
  | execute payload inputs => exact absurd rfl (ht payload inputs)
  | _ => exact h

/-- **What a call reports is what it has claimed.** -/
theorem program_logs (t : Task) :
    Logs env wallets t (t.program env) (fun r _ d ↦ HasClaimed t r d) none [] := by
  by_cases ht : ∀ payload inputs, t ≠ .execute payload inputs
  · have hkind := @program_issues env t
    exact (Prog.logs_of_issues hkind
      (fun _ _ _ _ _ hmay hx w hw ↦ claim_of_kind ht (exec_kind hmay hx w hw))
      (fun _ hvs ↦ by cases hvs) (List.forall_mem_nil _)).mono
        fun _ _ _ h ↦ hasClaimed_of_ne ht h
  · push Not at ht
    obtain ⟨payload, inputs, rfl⟩ := ht
    have hexecute := @execute_logs env wallets payload inputs
    simp only [Task.program]
    generalize ProcessConversionExecutionUseCase.execute env payload inputs = p at hexecute ⊢
    refine Prog.logs_bind (hexecute.mono fun r o d h ↦ ?_)
    cases r with
    | error x => exact h
    | ok report => exact h

end Programs

/-! ### Runs -/

section Runs

/-- A genuine call stays genuine. -/
theorem genuine_evolves {a b : Db} (h : t.Genuine a) (hev : Evolves a b) : t.Genuine b := by
  cases t with
  | execute payload inputs =>
    obtain ⟨id, row, hrow, hpayload⟩ := h
    obtain ⟨row', hrow', he⟩ := hev.outbox id row hrow
    exact ⟨id, row', hrow', he.terms.2.2.1.trans hpayload⟩
  | _ => trivial

/-- The event of a call stays in the outbox. -/
theorem genuine_of_run (hwallets : InitialWallets wallets)
    (h : System.Reaches env (System.initial wallets) s) :
    ∀ i p, s.procs.lookup i = some p → p.task.Genuine s.db := by
  induction h with
  | refl => exact fun i p hp ↦ by simp [System.initial] at hp
  | tail hrun hstep ih =>
    intro i p hp
    have hev := (sound_of_reaches hwallets hrun).evolves_of_step hstep
    obtain ⟨m, hallowed, hm, -⟩ := hstep
    rcases State.task_of_step hm hp with ⟨q, hq, htask⟩ | rfl
    · exact genuine_evolves (htask ▸ ih i q hq) hev
    · exact genuine_evolves (hallowed i p.task rfl).2.1 hev

/-- **In every run an event is claimed by one call**, and stays claimed as it was. -/
theorem claimed_of_run (hwallets : InitialWallets wallets)
    (h : System.Reaches env (System.initial wallets) s) : eventClaims.Claimed s :=
  eventClaims.claimed_of_reaches rfl (fun _ htaken ↦ htaken rfl)
    (fun _ hs ↦ (sound_of_reaches hwallets hs).exclusive) h

/-- **In every run a call reports what it has claimed.** -/
theorem logged_of_run (hwallets : InitialWallets wallets)
    (h : System.Reaches env (System.initial wallets) s) :
    s.Logged postgres (Finds env wallets) (Commit env) (fun _ d ↦ ∀ w ∈ d, w.claim = none)
      fun t r _ d ↦ HasClaimed t r d := by
  refine State.logged_of_reaches rfl program_logs (fun s hs i p hp _ ↦ ?_)
    (fun s s' hs hobserved i p hm hp ↦ ?_) h
  · refine ⟨(sound_of_reaches hwallets hs).inv, genuine_of_run hwallets hs i p hp, ?_⟩
    intro vs hvs w hw c hc
    have hfree := (claimed_of_run hwallets hs).free i p vs w c.1 hp hvs hw
      (congrArg (Option.map Prod.fst) hc)
    exact not_not.1 hfree
  · rcases (sound_of_reaches hwallets hs).change_of_move hm hobserved with heq |
      ⟨j, q, _, _, hj, hq, -, -, -, -, -, hguar⟩
    · rw [heq]
      exact .idle _ _
    · cases hj
      obtain rfl : p = q := Option.some.inj (hp.symm.trans hq)
      exact hguar

/-- What a call has claimed: nothing, or its event. -/
theorem claims_of_run (hwallets : InitialWallets wallets)
    (h : System.Reaches env (System.initial wallets) s) {i : ℕ}
    {p : Proc Write Stmt Stmt.Result Thrown Task TaskResult} (hp : s.procs.lookup i = some p) :
    p.durable.filterMap Write.claim = [] ∨
      ∃ payload inputs outcome, p.task = .execute payload inputs ∧ p.durable.filterMap Write.claim =
        [(payload.eventId, ⟨payload.conversionId, outcome, inputs.databaseNow⟩)] := by
  rcases (logged_of_run hwallets h).now i p hp with hnone | ⟨r, _, hr⟩
  · exact .inl (List.filterMap_eq_nil_iff.2 hnone)
  · exact hr.claims

/-- A claimed event is processed, and its conversion is settled by the outcome. -/
theorem processed_of_claim (hwallets : InitialWallets wallets)
    (h : System.Reaches env (System.initial wallets) s) {i : ℕ}
    {p : Proc Write Stmt Stmt.Result Thrown Task TaskResult} (hp : s.procs.lookup i = some p)
    {c : String × ProcessedRow} (hc : c ∈ p.durable.filterMap Write.claim) :
    s.db.processed.lookup c.1 = some c.2 ∧
      ∃ row, s.db.conversions.lookup c.2.conversionId = some row ∧
        row.status = statusOf c.2.outcome := by
  obtain ⟨w, hw, hwc⟩ := List.mem_filterMap.1 hc
  have hlookup := (claimed_of_run hwallets h).holds i p w c.1 hp hw
    (congrArg (Option.map Prod.fst) hwc) c hwc
  obtain ⟨row, hrow, -, hstatus⟩ := (sound_of_reaches hwallets h).inv.processed _ _ hlookup
  exact ⟨hlookup, row, hrow, hstatus⟩

end Runs

end Ledger

/-! ### The counters -/

section Counters

/-- The report of an execution that has returned to its consumer. -/
def Proc.report? (p : Proc Write Stmt Stmt.Result Thrown Task TaskResult) :
    Option ExecutionReport :=
  match p.task, p.rest, p.live with
  | .execute _ _, .ret (.execution report), true => some report
  | _, _, _ => none

/-- The call has settled a conversion with the outcome. -/
def Proc.Settled (outcome : ExecutionOutcome)
    (p : Proc Write Stmt Stmt.Result Thrown Task TaskResult) : Prop :=
  ∃ c ∈ p.durable.filterMap Write.claim, c.2.outcome = outcome

instance (outcome : ExecutionOutcome) : DecidablePred (Proc.Settled outcome) := fun p ↦
  inferInstanceAs (Decidable (∃ c ∈ p.durable.filterMap Write.claim, c.2.outcome = outcome))

namespace MetricsService

/-- The calls that have counted a conversion with the outcome. -/
def counting (s : System) (outcome : ExecutionOutcome) : Finset ℕ :=
  Table.keysWhere s.procs fun p ↦ Proc.report? p = some (.processed outcome true)

/-- The counter of successes: how many calls have raised it. -/
def conversionCompletedTotal (s : System) : ℕ := (counting s .SUCCESS).card

/-- The counter of failures. -/
def conversionFailedTotal (s : System) : ℕ := (counting s .FAILURE).card

end MetricsService

/-- The calls that were cut off after they had settled a conversion with the outcome. -/
def uncounted (s : System) (outcome : ExecutionOutcome) : Finset ℕ :=
  Table.keysWhere s.procs fun p ↦ p.live = false ∧ Proc.Settled outcome p

/-- The conversions with a status. -/
def conversionsWith (db : Db) (status : ConversionStatus) : Finset String :=
  db.conversions.keysWhere fun row ↦ row.status = status

end Counters

namespace Ledger

open MetricsService

variable {env : Platform} {wallets : Table (String × String) WalletRow} {s : System}
  {outcome : ExecutionOutcome}

/-- The conversion that a call has settled. -/
def settledBy (s : System) (pid : ℕ) : String :=
  ((s.procs.lookup pid).bind fun p ↦ (p.durable.filterMap Write.claim).head?).elim ""
    fun c ↦ c.2.conversionId

/-- **One call for each settled conversion.** -/
theorem card_settled (hwallets : InitialWallets wallets)
    (h : System.Reaches env (System.initial wallets) s) :
    (Table.keysWhere s.procs (Proc.Settled outcome)).card =
      (conversionsWith s.db (statusOf outcome)).card := by
  have hvalid := (sound_of_reaches hwallets h).inv
  -- a call that has settled a conversion has claimed one event
  have hone : ∀ {i p}, s.procs.lookup i = some p → ∀ c ∈ p.durable.filterMap Write.claim,
      p.durable.filterMap Write.claim = [c] := fun hp c hc ↦ by
    rcases claims_of_run hwallets h hp with hnil | ⟨_, _, _, -, heq⟩
    · rw [hnil] at hc
      cases hc
    · rw [heq, List.mem_singleton] at hc
      rw [heq, hc]
  have hsettles : ∀ {i p c}, s.procs.lookup i = some p → c ∈ p.durable.filterMap Write.claim →
      settledBy s i = c.2.conversionId := fun hp hc ↦ by
    rw [settledBy, hp, Option.bind_some, hone hp _ hc]
    rfl
  refine Finset.card_nbij (settledBy s) (fun i hi ↦ ?_) (fun i hi j hj heq ↦ ?_) fun c hc ↦ ?_
  · obtain ⟨p, hp, c, hc, rfl⟩ := Table.mem_keysWhere.1 hi
    obtain ⟨-, row, hrow, hstatus⟩ := processed_of_claim hwallets h hp hc
    rw [hsettles hp hc]
    exact Table.mem_keysWhere.2 ⟨row, hrow, hstatus⟩
  · obtain ⟨p, hp, c, hc, -⟩ := Table.mem_keysWhere.1 hi
    obtain ⟨q, hq, c', hc', -⟩ := Table.mem_keysWhere.1 hj
    rw [hsettles hp hc, hsettles hq hc'] at heq
    have hevent := hvalid.settlementAgrees.unique _ _ _ _ (processed_of_claim hwallets h hp hc).1
      (processed_of_claim hwallets h hq hc').1 heq
    obtain ⟨w, hw, hwc⟩ := List.mem_filterMap.1 hc
    obtain ⟨w', hw', hwc'⟩ := List.mem_filterMap.1 hc'
    exact (claimed_of_run hwallets h).once i j p q w w' c.1 hp hq hw hw'
      (congrArg (Option.map Prod.fst) hwc)
      ((congrArg (Option.map Prod.fst) hwc').trans (congrArg some hevent.symm))
  · obtain ⟨row, hrow, hstatus⟩ := Table.mem_keysWhere.1 hc
    obtain ⟨e, r, o, -, hr, rfl, rfl, ho, -⟩ := (hvalid.conversions c row hrow).settled
      (by rw [hstatus, statusOf_isTerminal])
    obtain ⟨i, p, w, hp, hw, hwk⟩ := (claimed_of_run hwallets h).origin e (by
      show s.db.processed.lookup e ≠ none
      rw [hr]
      exact Option.some_ne_none r)
    obtain ⟨c, hwc, rfl⟩ := Option.map_eq_some_iff.1 hwk
    have hclaim := List.mem_filterMap.2 ⟨w, hw, hwc⟩
    obtain rfl : c.2 = r := Option.some.inj
      ((processed_of_claim hwallets h hp hclaim).1.symm.trans hr)
    refine ⟨i, Table.mem_keysWhere.2 ⟨p, hp, c, hclaim, ?_⟩, hsettles hp hclaim⟩
    exact statusOf_injective (ho.symm.trans hstatus)

/-- A call counts a conversion if and only if it has settled it and was not cut off. -/
theorem counts_iff (hwallets : InitialWallets wallets)
    (h : System.Reaches env (System.initial wallets) s) {i : ℕ}
    {p : Proc Write Stmt Stmt.Result Thrown Task TaskResult} (hp : s.procs.lookup i = some p) :
    Proc.report? p = some (.processed outcome true) ↔ p.live = true ∧ Proc.Settled outcome p := by
  have hends := (logged_of_run hwallets h).ends i p hp
  -- the call has no claim that it could have made
  have hnothing : ∀ c ∈ p.durable.filterMap Write.claim, ¬ ∀ w ∈ p.durable, w.claim = none :=
    fun c hc hnone ↦ by
      rw [List.filterMap_eq_nil_iff.2 hnone] at hc
      cases hc
  constructor
  · intro hreport
    unfold Proc.report? at hreport
    split at hreport
    · rename_i payload inputs report htask hrest hlive
      obtain rfl := Option.some.inj hreport
      have hclaimed := hends hlive
      rw [hrest, htask] at hclaimed
      obtain ⟨-, hone⟩ := hclaimed
      refine ⟨hlive, (payload.eventId,
        ⟨payload.conversionId, outcome, inputs.databaseNow⟩), ?_, rfl⟩
      rw [hone]
      exact List.mem_singleton_self _
    · cases hreport
  · rintro ⟨hlive, c, hc, rfl⟩
    have hlogs := hends hlive
    cases hrest : p.rest with
    | ret result =>
      rw [hrest] at hlogs
      have hclaimed : HasClaimed p.task (.ok result) p.durable := hlogs
      unfold HasClaimed at hclaimed
      split at hclaimed
      · rename_i payload inputs outcome settled htask hresult
        obtain rfl := Except.ok.inj hresult
        obtain ⟨rfl, hone⟩ := hclaimed
        rw [hone, List.mem_singleton] at hc
        rw [Proc.report?, htask, hrest, hlive, hc]
      · exact absurd hclaimed (hnothing c hc)
    | raise x =>
      rw [hrest] at hlogs
      have hclaimed : HasClaimed p.task (.error x) p.durable := hlogs
      unfold HasClaimed at hclaimed
      split at hclaimed
      · rename_i heq
        cases heq
      · exact absurd hclaimed (hnothing c hc)
    | call | begin | commit | rollback =>
      rw [hrest] at hlogs
      exact absurd hlogs.1 (hnothing c hc)

/-- **Every settled conversion is counted once**, unless its worker was cut off before it could. The
counters are never ahead of the tables. -/
theorem counted_once (hwallets : InitialWallets wallets)
    (h : System.Reaches env (System.initial wallets) s) :
    (conversionsWith s.db .COMPLETED).card =
      conversionCompletedTotal s + (uncounted s .SUCCESS).card ∧
    (conversionsWith s.db .FAILED).card =
      conversionFailedTotal s + (uncounted s .FAILURE).card := by
  have hsplit : ∀ outcome, (conversionsWith s.db (statusOf outcome)).card =
      (counting s outcome).card + (uncounted s outcome).card := fun outcome ↦ by
    rw [← card_settled hwallets h, ← Finset.card_union_of_disjoint]
    · congr 1
      ext i
      simp only [Finset.mem_union, counting, uncounted, Table.mem_keysWhere]
      constructor
      · rintro ⟨p, hp, hsettled⟩
        rcases hlive : p.live with - | -
        · exact .inr ⟨p, hp, hlive, hsettled⟩
        · exact .inl ⟨p, hp, (counts_iff hwallets h hp).2 ⟨hlive, hsettled⟩⟩
      · rintro (⟨p, hp, hreport⟩ | ⟨p, hp, -, hsettled⟩)
        · exact ⟨p, hp, ((counts_iff hwallets h hp).1 hreport).2⟩
        · exact ⟨p, hp, hsettled⟩
    · refine Finset.disjoint_left.2 fun i hi hj ↦ ?_
      obtain ⟨p, hp, hreport⟩ := Table.mem_keysWhere.1 hi
      obtain ⟨q, hq, hdead, -⟩ := Table.mem_keysWhere.1 hj
      obtain rfl : p = q := Option.some.inj (hp.symm.trans hq)
      have hlive := ((counts_iff hwallets h hp).1 hreport).1
      rw [hdead] at hlive
      cases hlive
  exact ⟨hsplit .SUCCESS, hsplit .FAILURE⟩

/-- The event is delivered to two workers. The first one settles the conversion and counts it. -/
theorem counted_once_sample : ∃ s : System, conversionCompletedTotal s = 1 ∧
    (conversionsWith s.db .COMPLETED).card = 1 := by
  have hrun : ∃ s, System.Reaches .reference (System.initial sampleWallets) s ∧
      conversionCompletedTotal s = 1 ∧ (uncounted s .SUCCESS).card = 0 :=
    System.exists_of_play (sampleAccepted ++ callFor 3 (sampleExecute .SUCCESS) 12 ++
      callFor 4 (.execute samplePayload ⟨.SUCCESS, sampleTime, sampleTime, .ofText "w-3"⟩) 1) _
      (by decide +kernel)
  obtain ⟨s, hreaches, hcounted, huncounted⟩ := hrun
  obtain ⟨hcompleted, -⟩ := counted_once (by decide +kernel) hreaches
  exact ⟨s, hcounted, by rw [hcompleted, hcounted, huncounted]⟩

end Ledger

end WalletConversion
