import WalletConversion.Ledger.Accepts
import WalletConversion.Ledger.Executions
import WalletConversion.Ledger.Quotes

/-!
# Every call keeps the contract

The proofs of the single use cases put together: `program_wp` for any task that may be started, and
from it, by the soundness of the contract, the facts about every run:

* `coherent_of_reaches` — the committed tables are valid, every statement about to be issued is
  disciplined, and every finished call has its answer;
* `evolves_of_reaches` — from one state of a run to a later one nothing is undone.
-/

namespace WalletConversion

open Transactional Relation

namespace Ledger

variable {env : Platform} {opening : Table (String × String) WalletRow}
  {observed : Db → Db → Prop} {t : Task} {a b db : Db}

/-! ### The remaining tasks -/

/-- Marking an outbox row as published. -/
theorem markPublished_wp {id : String} {publishedAt : Date} :
    (ledger env opening observed).wp (.markPublished id publishedAt)
      ((Task.markPublished id publishedAt).program env) (fun _ o _ _ ↦ o = none) none [] db := by
  have hprogram : (Task.markPublished id publishedAt).program env =
      .call (.markPublished id publishedAt) fun _ ↦ .ret .done := rfl
  rw [hprogram]
  refine wp_autocommit fun db₁ _ hi₁ ↦ ?_
  rcases hrow : db₁.outbox.lookup id with - | row
  · have hexec (locked : LockKey → Bool) :
        exec (.markPublished id publishedAt) locked db₁ = .ok ((), []) := by
      simp [exec, hrow]
    exact ⟨(), [], hexec, fun _ _ ↦ trivial, .idle _ _, fun _ ↦ Contract.wp_ret fun _ _ _ ↦ rfl⟩
  by_cases hpub : row.publishedAt = none
  · have hchecks : ({ row with publishedAt := some publishedAt } : OutboxRow).violated = none :=
      if_neg (not_not_intro (hi₁.eventType hrow))
    have hexec (locked : LockKey → Bool) :
        exec (.markPublished id publishedAt) locked db₁ =
          .ok ((), [.putOutbox id { row with publishedAt := some publishedAt }]) := by
      simp only [exec, hrow, if_pos hpub, hchecks]
      rfl
    exact ⟨(), _, hexec, fun _ _ ↦ trivial, .published hrow hpub,
      fun _ ↦ Contract.wp_ret fun _ _ _ ↦ rfl⟩
  · exact ⟨(), [], fun _ ↦ by simp only [exec, hrow, if_neg hpub], fun _ _ ↦ trivial, .idle _ _,
      fun _ ↦ Contract.wp_ret fun _ _ _ ↦ rfl⟩

/-- Deleting records touches nothing else. -/
theorem applyAll_delete (keys : List String) (db : Db) :
    postgres.applyAll db (keys.map .deleteIdempotency) =
      { db with idempotency := keys.foldl (fun t key ↦ t.erase key) db.idempotency } := by
  induction keys generalizing db with
  | nil => rfl
  | cons key keys ih =>
    rw [List.map_cons, Store.applyAll_cons, ih]
    rfl

/-- The cleanup of idempotency records. Which rows it skips depends on the locks of the others. -/
theorem cleanup_wp {now : Date} {retentionMs batchSize : ℕ} {place : String → ℕ} :
    (ledger env opening observed).wp (.cleanup now retentionMs batchSize place)
      ((Task.cleanup now retentionMs batchSize place).program env) (fun _ o _ _ ↦ o = none) none []
      db := by
  simp only [Task.program, IdempotencyCleanupService.cleanupBatch]
  rcases Date.ofTime? (now.getTime - retentionMs) with - | cutoff
  · exact Contract.wp_raise fun _ _ _ ↦ rfl
  · refine Contract.wp_call_none fun db₁ _ hi₁ ↦ ⟨⟨fun locked e he ↦ ?_, fun _ _ _ _ _ _ ↦ trivial,
      fun _ _ _ _ us hus ↦ ?_⟩, fun locked r ws hx _ ↦ ?_⟩
    · cases he
    · cases hus
    · cases hx
      have hcommit : ∀ keys : List String, Commit env (.cleanup now retentionMs batchSize place) db₁
          (postgres.applyAll db₁ (keys.map .deleteIdempotency)) := fun keys ↦ by
        rw [applyAll_delete]
        exact .cleaned keys
      exact ⟨⟨hi₁.of_commit (hcommit _), hcommit _⟩, Contract.wp_ret fun _ _ _ ↦ rfl⟩

/-! ### All tasks -/

/-- **What a finished call has achieved.** -/
def Answer (env : Platform) (opening : Table (String × String) WalletRow)
    (observed : Db → Db → Prop) (t : Task) (r : Except Thrown TaskResult) (durable : List Write)
    (db : Db) : Prop :=
  match t, r with
  | .acceptQuote command inputs, .ok (.accept result) =>
    AcceptAnswer env opening observed command inputs (.ok result) durable db
  | .acceptQuote command inputs, .error x =>
    AcceptAnswer env opening observed command inputs (.error x) durable db
  | .acceptQuote _ _, _ => False
  | .execute payload _, r => ExecuteAnswer env opening payload r db
  | _, _ => True

/-- **Every call that may be started keeps the contract**, and ends with its answer. -/
theorem program_wp (hi : Valid env opening db) (hfresh : t.Fresh db) (hgenuine : t.Genuine db) :
    (ledger env opening observed).wp t (t.program env)
      (fun r o d db ↦ o = none ∧ Answer env opening observed t r d db) none [] db := by
  cases t with
  | createQuote command generatedId now =>
    exact Contract.wp_mono (createQuote_wp hfresh) fun _ _ _ _ h ↦ ⟨h, trivial⟩
  | acceptQuote command inputs =>
    refine Contract.wp_bind (Contract.wp_mono (acceptQuote_wp hi hfresh) ?_) hi
    rintro (x | result) o d db ⟨rfl, h⟩
    · exact Contract.wp_raise fun _ _ _ ↦ ⟨rfl, h⟩
    · exact Contract.wp_ret fun _ hr _ ↦ ⟨rfl, h.of_rely hr⟩
  | execute payload inputs =>
    refine Contract.wp_bind (Contract.wp_mono (execute_wp hi hgenuine hfresh) ?_) hi
    rintro (x | report) o d db ⟨rfl, h⟩
    · exact Contract.wp_raise fun _ _ _ ↦ ⟨rfl, h⟩
    · exact Contract.wp_ret fun _ hr _ ↦ ⟨rfl, h.evolves (evolves_of_rely hr)⟩
  | markPublished id publishedAt =>
    exact Contract.wp_mono markPublished_wp fun _ _ _ _ h ↦ ⟨h, trivial⟩
  | cleanup now retentionMs batchSize place =>
    exact Contract.wp_mono cleanup_wp fun _ _ _ _ h ↦ ⟨h, trivial⟩

/-! ### Runs -/

section Runs

variable {wallets : Table (String × String) WalletRow} {s s' : System}

/-- Runs in which every change of the tables is as `observed`. -/
def ReachesWithin (env : Platform) (observed : Db → Db → Prop) : System → System → Prop :=
  Transactional.Reaches postgres (Task.program env) Admissible observed

/-- Everything that holds of the calls and the tables in a state of a run. -/
def Sound (env : Platform) (wallets : Table (String × String) WalletRow)
    (observed : Db → Db → Prop) (s : System) : Prop :=
  Coherent (ledger env wallets observed) (Answer env wallets observed) s

/-- **A call that may be started is proved against the contract.** -/
theorem allowed_of_admissible (s : System) (t : Task) (h : Sound env wallets observed s)
    (hadmissible : Admissible s t) :
    (ledger env wallets observed).wp t (t.program env)
      (fun r o d db ↦ o = none ∧ Answer env wallets observed t r d db) none [] s.db ∧
    ∀ pid p, s.procs.lookup pid = some p →
      (ledger env wallets observed).compat t p.task ∧
        (ledger env wallets observed).compat p.task t := by
  obtain ⟨hfresh, hgenuine, hdisjoint⟩ := hadmissible
  exact ⟨program_wp h.inv hfresh hgenuine, fun pid p hp ↦
    ⟨hdisjoint pid p hp, (hdisjoint pid p hp).symm⟩⟩

/-- **Every state of every run is sound.** -/
theorem sound_of_reaches (hwallets : InitialWallets wallets)
    (h : ReachesWithin env observed (System.initial wallets) s) : Sound env wallets observed s := by
  have hinv : (ledger env wallets observed).inv (System.initial wallets).db :=
    Valid.initial hwallets
  exact Coherent.of_reaches hinv rfl allowed_of_admissible h

theorem Sound.of_reaches (h : Sound env wallets observed s)
    (hrun : ReachesWithin env observed s s') : Sound env wallets observed s' := by
  induction hrun with
  | refl => exact h
  | tail _ hstep ih => exact ih.of_step allowed_of_admissible hstep

/-- **What every commit keeps of valid tables holds in every later state of a run.** -/
theorem Sound.keeps {P : Db → Prop} (h : Sound env wallets observed s)
    (hcommit : ∀ t a b, Valid env wallets a → Commit env t a b → P a → P b)
    (hrun : ReachesWithin env observed s s') (hP : P s.db) : P s'.db := by
  induction hrun with
  | refl => exact hP
  | tail hrun hstep ih =>
    rcases (h.of_reaches hrun).change_of_step hstep with heq | ⟨_, _, _, _, -, -, -, -, -, -, hguar⟩
    · rwa [heq]
    · exact hcommit _ _ _ (h.of_reaches hrun).inv hguar ih

/-- **One step undoes nothing.** -/
theorem Sound.evolves_of_step (h : Sound env wallets observed s)
    (hstep : Transactional.Step postgres (Task.program env) Admissible observed s s') :
    Evolves s.db s'.db := by
  rcases h.change_of_step hstep with heq | ⟨_, _, _, _, _, _, _, _, _, _, hcommit⟩
  · rw [heq]
    exact .refl _
  · exact Commit.evolves hcommit

/-- **A run undoes nothing.** -/
theorem Sound.evolves_of_reaches (h : Sound env wallets observed s)
    (hrun : ReachesWithin env observed s s') : Evolves s.db s'.db := by
  induction hrun with
  | refl => exact .refl _
  | tail hrun hstep ih => exact ih.trans ((h.of_reaches hrun).evolves_of_step hstep)

end Runs

end Ledger

end WalletConversion
