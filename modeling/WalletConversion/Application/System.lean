import WalletConversion.Application.ProcessConversionExecution
import WalletConversion.Foundation.RelyGuarantee

/-!
# The running application

Any number of calls run against one database, interleaved statement by statement: quote creations,
accepts, executions, the statement that marks an outbox row as published, and the idempotency
cleanup. A call may be cut off before any of its statements.

Two things are promised to the use cases by their surroundings, and `Admissible` states them:

* a generated id is new (`randomUUID`): no row and no other call has it;
* an execution is called with the payload of an outbox row.
-/

namespace WalletConversion

open Transactional

namespace IdempotencyCleanupService

/-- Delete a batch of the records that are older than the retention. -/
def cleanupBatch (now : Date) (retentionMs batchSize : ℕ) (place : String → ℕ) : App ℕ :=
  match Date.ofTime? (now.getTime - retentionMs) with
  | none => attempt (.error (.error "Invalid time value"))
  | some cutoff => PrismaIdempotencyRepository.deleteExpired cutoff batchSize place

end IdempotencyCleanupService

/-- A call of the application with everything it draws from its surroundings. -/
inductive Task where
  | createQuote (command : CreateQuoteCommand) (generatedId : Uuid) (now : Date)
  | acceptQuote (command : AcceptQuoteCommand) (inputs : AcceptInputs)
  | execute (payload : ConversionExecutionRequestedPayload) (inputs : ExecuteInputs)
  | markPublished (id : String) (publishedAt : Date)
  | cleanup (now : Date) (retentionMs batchSize : ℕ) (place : String → ℕ)

/-- What a call returns. -/
inductive TaskResult where
  | quote (quote : Quote)
  | accept (result : AcceptQuoteResult)
  | execution (report : ExecutionReport)
  | done

/-- The program of a call. -/
def Task.program (env : Platform) : Task → App TaskResult
  | .createQuote command generatedId now => do
    return .quote (← CreateQuoteUseCase.execute env command generatedId now)
  | .acceptQuote command inputs => do
    return .accept (← AcceptQuoteUseCase.execute env command inputs)
  | .execute payload inputs => do
    return .execution (← ProcessConversionExecutionUseCase.execute env payload inputs)
  | .markPublished id publishedAt => do
    PrismaOutboxRepository.markPublished id publishedAt
    return .done
  | .cleanup now retentionMs batchSize place => do
    let _ ← IdempotencyCleanupService.cleanupBatch now retentionMs batchSize place
    return .done

/-- The ids a call generates. -/
def Task.generatedIds : Task → List String
  | .createQuote _ generatedId _ => [generatedId.value]
  | .acceptQuote _ inputs => [inputs.conversionId.value, inputs.eventId.value]
  | .execute _ inputs => [inputs.walletId.value]
  | .markPublished _ _ => []
  | .cleanup _ _ _ _ => []

/-- No row has an id the call generates. -/
def Task.Fresh (t : Task) (db : Db) : Prop :=
  match t with
  | .createQuote _ generatedId _ => db.quotes.lookup generatedId.value = none
  | .acceptQuote _ inputs =>
    db.conversions.lookup inputs.conversionId.value = none ∧
      db.outbox.lookup inputs.eventId.value = none
  | .execute _ inputs => ∀ key row, db.wallets.lookup key = some row →
      row.id ≠ inputs.walletId.value
  | .markPublished _ _ => True
  | .cleanup _ _ _ _ => True

/-- An execution carries the payload of an outbox row. -/
def Task.Genuine (t : Task) (db : Db) : Prop :=
  match t with
  | .execute payload _ => ∃ id row, db.outbox.lookup id = some row ∧ row.payload = payload
  | _ => True

/-- The application: the database and its calls. -/
abbrev System := State Db Write Stmt Stmt.Result Thrown Task TaskResult

/-- Calls that may be started in a state. -/
def Admissible (s : System) (t : Task) : Prop :=
  t.Fresh s.db ∧ t.Genuine s.db ∧
    ∀ pid p, s.procs.lookup pid = some p → t.generatedIds.Disjoint p.task.generatedIds

/-- Calls that may be started in a state if nothing is known of the payloads: the ids they generate
are new. -/
def Startable (s : System) (t : Task) : Prop :=
  t.Fresh s.db ∧ ∀ pid p, s.procs.lookup pid = some p → t.generatedIds.Disjoint p.task.generatedIds

theorem Admissible.startable {s : System} {t : Task} (h : Admissible s t) : Startable s t :=
  ⟨h.1, h.2.2⟩

/-- One step of the application. -/
def System.Step (env : Platform) : System → System → Prop :=
  Transactional.Step postgres (Task.program env) Admissible fun _ _ ↦ True

/-- Any number of steps of the application. -/
def System.Reaches (env : Platform) : System → System → Prop :=
  Transactional.Reaches postgres (Task.program env) Admissible fun _ _ ↦ True

/-- The wallet rows a run may start from: nothing reserved, everything available, all checks met. -/
def InitialWallets (wallets : Table (String × String) WalletRow) : Prop :=
  ∀ key row, wallets.lookup key = some row →
    row.reserved.1 = 0 ∧ row.available.1 = row.balance.1 ∧ row.violated = none

/-- The application before its first call. -/
def System.initial (wallets : Table (String × String) WalletRow) : System where
  db := Db.ofWallets wallets
  procs := ∅

/-! ### Runs that are checked by evaluation -/

instance (t : Task) (db : Db) : Decidable (t.Fresh db) :=
  match t with
  | .createQuote _ generatedId _ =>
    inferInstanceAs (Decidable (db.quotes.lookup generatedId.value = none))
  | .acceptQuote _ inputs =>
    inferInstanceAs (Decidable (db.conversions.lookup inputs.conversionId.value = none ∧
      db.outbox.lookup inputs.eventId.value = none))
  | .execute _ _ => decidable_of_iff _ Table.forall_lookup_iff
  | .markPublished _ _ => isTrue trivial
  | .cleanup _ _ _ _ => isTrue trivial

instance (t : Task) (db : Db) : Decidable (t.Genuine db) :=
  match t with
  | .execute _ _ => decidable_of_iff _ Table.exists_lookup_iff
  | .createQuote _ _ _ => isTrue trivial
  | .acceptQuote _ _ => isTrue trivial
  | .markPublished _ _ => isTrue trivial
  | .cleanup _ _ _ _ => isTrue trivial

instance (s : System) (t : Task) : Decidable (Admissible s t) :=
  have : Decidable (∀ pid p, s.procs.lookup pid = some p →
      t.generatedIds.Disjoint p.task.generatedIds) :=
    decidable_of_iff (∀ pid ∈ s.procs.keys, ∀ p ∈ s.procs.lookup pid,
      ∀ id ∈ t.generatedIds, id ∉ p.task.generatedIds) Table.forall_lookup_iff
  inferInstanceAs (Decidable (_ ∧ _ ∧ _))

instance (s : System) (t : Task) : Decidable (Startable s t) :=
  have : Decidable (∀ pid p, s.procs.lookup pid = some p →
      t.generatedIds.Disjoint p.task.generatedIds) :=
    decidable_of_iff (∀ pid ∈ s.procs.keys, ∀ p ∈ s.procs.lookup pid,
      ∀ id ∈ t.generatedIds, id ∉ p.task.generatedIds) Table.forall_lookup_iff
  inferInstanceAs (Decidable (_ ∧ _))

instance (wallets : Table (String × String) WalletRow) : Decidable (InitialWallets wallets) :=
  decidable_of_iff _ Table.forall_lookup_iff

section Play

variable {env : Platform} {observed : Db → Db → Prop} [∀ a b, Decidable (observed a b)]

/-- Follow a schedule, starting admissible calls and making observed changes only. -/
def System.play (env : Platform) (observed : Db → Db → Prop) [∀ a b, Decidable (observed a b)]
    (s : System) : List (Move Task) → Option System
  | [] => some s
  | m :: ms =>
    (s.step postgres (Task.program env) m).bind fun s' ↦
      if (∀ t ∈ m.spawned, Admissible s t) ∧ observed s.db s'.db then
        System.play env observed s' ms
      else none

/-- **A schedule that can be followed is a run.** -/
theorem System.reaches_of_play {s s' : System} {ms : List (Move Task)}
    (h : System.play env observed s ms = some s') :
    Transactional.Reaches postgres (Task.program env) Admissible observed s s' := by
  induction ms generalizing s with
  | nil =>
    cases h
    exact .refl
  | cons m ms ih =>
    obtain ⟨s₁, hs₁, hrest⟩ := Option.bind_eq_some_iff.1 h
    split at hrest
    · rename_i hok
      refine .head ⟨m, fun pid t he ↦ hok.1 t (by rw [he]; rfl), hs₁, hok.2⟩ (ih hrest)
    · cases hrest

/-- A property of the state a schedule leads to, by evaluation. -/
theorem System.exists_of_play {s : System} (ms : List (Move Task)) (P : System → Prop)
    [DecidablePred P]
    (h : (System.play env observed s ms).any (fun s' ↦ decide (P s')) = true) :
    ∃ s', Transactional.Reaches postgres (Task.program env) Admissible observed s s' ∧ P s' := by
  obtain ⟨s', hs', hp⟩ := (Option.any_eq_true _ _).1 h
  exact ⟨s', System.reaches_of_play hs', of_decide_eq_true hp⟩

end Play

end WalletConversion
