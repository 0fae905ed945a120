import WalletConversion.Foundation.Erasure
import WalletConversion.Guarantees.Idempotency
import WalletConversion.Ledger.Footprint

/-!
# A failed accept leaves its key free

The claim of a key is inserted with empty response fields, so inside an accept the record is not
completed; the transaction completes it or takes it back.

* Every committed record is completed (`Completed`), so nobody is ever told that a request with the
  key is still in progress.
* When every request with a key has failed (`Failed`), whether it was refused, threw, or was cut
  off, the run might as well have gone without these requests: there is a run in which nobody has
  ever used the key, its state differs from the given one by the failed requests only, and the two
  states have the same future. So a later request behaves as with a fresh key.

The second part erases the failed requests from the run (`erase_requests`). What has to be checked
is that no other call sees the locks of an erased request: only the cleanup looks at locks, of
records that are there, and an erased request locks a key without a record.
-/

namespace WalletConversion

open Transactional Relation

namespace Ledger

variable {env : Platform} {wallets : Table (String × String) WalletRow} {s s' u : System} {t : Task}
  {a b db : Db} {key : String}

/-- The record holds a response, and names the conversion of the quote it was requested for. -/
structure Completed (env : Platform) (db : Db) (rec : IdempotencyRow) : Prop where
  status : rec.responseStatus = some 201
  body : rec.responseBody ≠ none
  conversion : ∃ c row, rec.conversionId = some c ∧ db.conversions.lookup c = some row ∧
    rec.requestHash = AcceptQuoteUseCase.requestHash env row.quoteId

theorem RecordValid.isCompleted {rec : IdempotencyRow} (h : RecordValid env db rec) :
    Completed env db rec := by
  obtain ⟨c, row, body, hc, hbody, hrow, -, -, hhash⟩ := h.completed
  exact ⟨h.status, by rw [hbody]; simp, c, row, hc, hrow, hhash⟩

/-! ### Requests with a key -/

/-- The call is a request with the key. -/
def Requests (key : String) : Task → Prop
  | .acceptQuote command _ => trim command.idempotencyKey = key
  | _ => False

instance (key : String) (t : Task) : Decidable (Requests key t) :=
  match t with
  | .createQuote _ _ _ => isFalse id
  | .acceptQuote command _ => inferInstanceAs (Decidable (trim command.idempotencyKey = key))
  | .execute _ _ => isFalse id
  | .markPublished _ _ => isFalse id
  | .cleanup _ _ _ _ => isFalse id

/-- The calls of a state that are requests with the key. -/
def requestsWith (s : System) (key : String) : Set ℕ :=
  {pid | ∃ p, s.procs.lookup pid = some p ∧ Requests key p.task}

/-- The request was cut off before its commit, threw, or was answered with an error. -/
def Failed (p : Proc Write Stmt Stmt.Result Thrown Task TaskResult) : Prop :=
  (p.live = false ∧ p.durable = []) ∨
  (p.live = true ∧ ((∃ x, p.rest = .raise x) ∨
    ∃ statusCode errorCode message, p.rest = .ret (.accept (.error statusCode errorCode message))))

/-- There is no record with the key, and nobody has ever used it. -/
def Unused (s : System) (key : String) : Prop :=
  s.db.idempotency.lookup key = none ∧ requestsWith s key = ∅

/-- A failed request has written nothing and holds no lock. -/
theorem Failed.idle {observed : Db → Db → Prop} (hsound : Sound env wallets observed s)
    (hquiet : s.DeadQuiet) {pid : ℕ} {p : Proc Write Stmt Stmt.Result Thrown Task TaskResult}
    (hp : s.procs.lookup pid = some p) (hrequest : Requests key p.task) (h : Failed p) :
    p.durable = [] ∧ p.pending = none := by
  obtain ⟨command, inputs, htask⟩ : ∃ command inputs, p.task = .acceptQuote command inputs := by
    cases htask : p.task with
    | acceptQuote command inputs => exact ⟨command, inputs, rfl⟩
    | _ =>
      rw [htask] at hrequest
      exact hrequest.elim
  rcases h with ⟨hdead, hdurable⟩ | ⟨hlive, ⟨x, hrest⟩ | ⟨statusCode, errorCode, message, hrest⟩⟩
  · exact ⟨hdurable, hquiet pid p hp hdead⟩
  · obtain ⟨hnone, hanswer⟩ := hsound.post_of_raise hp hlive hrest
    rw [htask] at hanswer
    exact ⟨hanswer, hnone⟩
  · obtain ⟨hnone, hanswer⟩ := hsound.post_of_ret hp hlive hrest
    rw [htask] at hanswer
    exact ⟨hanswer.1, hnone⟩

/-! ### Where a record comes from -/

/-- A commit writes a record for its own key only. -/
theorem Commit.requests (h : Commit env t a b) (hnone : a.idempotency.lookup key = none)
    (hsome : b.idempotency.lookup key ≠ none) : Requests key t := by
  cases h with
  | @accepted command _ _ _ _ _ _ _ unclaimed =>
    by_contra hne
    exact hsome ((Finmap.lookup_insert_of_ne _ fun he ↦ hne he.symm).trans hnone)
  | cleaned keys =>
    obtain ⟨rec, hrec⟩ := Option.ne_none_iff_exists'.1 hsome
    have hold : a.idempotency.lookup key = some rec := Table.lookup_of_foldl_erase hrec
    rw [hnone] at hold
    cases hold
  | _ => exact absurd hnone hsome

/-- **A record was written by a request with its key.** -/
theorem exists_request (hwallets : InitialWallets wallets)
    (hrun : System.Reaches env (System.initial wallets) s)
    (hsome : s.db.idempotency.lookup key ≠ none) :
    ∃ pid p, s.procs.lookup pid = some p ∧ Requests key p.task ∧ p.durable ≠ [] := by
  induction hrun with
  | refl => exact absurd rfl hsome
  | @tail a b hrun hstep ih =>
    rcases hold : a.db.idempotency.lookup key with - | rec
    · rcases (sound_of_reaches hwallets hrun).change_of_step hstep with
        heq | ⟨pid, p, p', ws, -, -, hp', htask, hdurable, hdb, hcommit⟩
      · rw [heq] at hsome
        exact absurd hold hsome
      · refine ⟨pid, p', hp', htask ▸ Commit.requests hcommit hold hsome, ?_⟩
        rintro hnil
        rw [hdurable] at hnil
        obtain ⟨-, rfl⟩ := List.append_eq_nil_iff.1 hnil
        rw [hdb] at hsome
        exact hsome hold
    · obtain ⟨pid, p, hp, hrequest, hdurable⟩ := ih (by rw [hold]; simp)
      obtain ⟨m, -, hm, -⟩ := hstep
      obtain ⟨p', ws, hp', htask, hdurable'⟩ := State.history_of_step hm hp
      refine ⟨pid, p', hp', htask ▸ hrequest, fun hnil ↦ hdurable ?_⟩
      rw [hdurable'] at hnil
      exact (List.append_eq_nil_iff.1 hnil).1

/-! ### Statements and locks -/

/-- A cleanup sees the locks of records that are there. -/
theorem exec_deleteExpired_congr {before : Date} {limit : ℕ} {place : String → ℕ}
    {locked locked' : LockKey → Bool}
    (h : ∀ key, db.idempotency.lookup key ≠ none →
      locked' (.idempotency key) = locked (.idempotency key)) :
    exec (.deleteExpired before limit place) locked' db =
      exec (.deleteExpired before limit place) locked db := by
  have hexpired : (db.idempotency.keys.filter fun key ↦
      (db.idempotency.lookup key).any (fun row ↦ row.createdAt.getTime < before.getTime) ∧
        locked' (.idempotency key) = false) = db.idempotency.keys.filter fun key ↦
      (db.idempotency.lookup key).any (fun row ↦ row.createdAt.getTime < before.getTime) ∧
        locked (.idempotency key) = false := by
    refine Finset.filter_congr fun key hkey ↦ ?_
    rw [h key fun hnone ↦ Finmap.lookup_eq_none.1 hnone (Finmap.mem_keys.1 hkey)]
  simp only [exec, hexpired]

/-- A statement of another task than a cleanup does not see locks. -/
theorem exec_congr_of_may {st : Stmt} (hmay : May t st) (locked locked' : LockKey → Bool)
    (h : ∀ now retentionMs batchSize place, t ≠ .cleanup now retentionMs batchSize place) :
    exec st locked' db = exec st locked db := by
  cases st with
  | deleteExpired =>
    cases t with
    | cleanup => exact absurd rfl (h _ _ _ _)
    | _ => exact hmay.elim
  | _ => rfl

/-- The writes of a cleanup bring no record. -/
theorem lookup_applyAll_deletes {vs : List Write}
    (hvs : ∀ w ∈ vs, ∃ key, w = .deleteIdempotency key)
    (hnone : db.idempotency.lookup key = none) :
    (postgres.applyAll db vs).idempotency.lookup key = none := by
  induction vs generalizing db with
  | nil => exact hnone
  | cons w vs ih =>
    obtain ⟨key', rfl⟩ := hvs _ List.mem_cons_self
    refine ih (fun w hw ↦ hvs w (List.mem_cons_of_mem _ hw)) ?_
    by_cases hne : key = key'
    · subst hne
      exact Finmap.lookup_erase _ _
    · exact (Finmap.lookup_erase_ne hne).trans hnone

/-- A request locks its own key only. -/
theorem key_of_held {vs : List Write} {other : String} (hrequest : Requests key t)
    (hkind : ∀ w ∈ vs, Kind t w) (hheld : .idempotency other ∈ postgres.keysOf vs) :
    other = key := by
  obtain ⟨w, hw, hlock⟩ := List.mem_flatMap.1 hheld
  have hw := hkind w hw
  cases t with
  | acceptQuote command inputs =>
    cases w with
    | putIdempotency key' row =>
      simp only [postgres_keys, Write.keys, List.mem_singleton, LockKey.idempotency.injEq] at hlock
      rw [hlock, ← hrequest]
      exact hw
    | deleteIdempotency | putProcessed | putExchange => exact hw.elim
    | _ => simp [Write.keys] at hlock
  | _ => exact hrequest.elim

/-! ### Erasing failed requests -/

theorem within_of_reaches (hrun : System.Reaches env (System.initial wallets) s) :
    s.Within May Kind :=
  State.within_of_reaches program_issues (fun _ _ _ _ _ _ ↦ exec_kind) hrun
    { rest := fun pid p hp ↦ by cases hp
      pending := fun pid p hp ↦ by cases hp }

theorem deadQuiet_of_reaches (hrun : System.Reaches env (System.initial wallets) s) :
    s.DeadQuiet := by
  induction hrun with
  | refl => exact fun pid p hp ↦ by cases hp
  | tail _ hstep ih =>
    obtain ⟨m, -, hm, -⟩ := hstep
    exact State.deadQuiet_of_step hm ih

/-- The calls in `gone` are requests with the key, and no request with it has written anything. -/
structure WithoutEffect (gone : Set ℕ) (key : String) (s : System) : Prop where
  requests : ∀ pid ∈ gone, ∀ p, s.procs.lookup pid = some p → Requests key p.task
  idle : ∀ pid p, s.procs.lookup pid = some p → Requests key p.task → p.durable = []

/-- What had no effect later had none before. -/
theorem WithoutEffect.of_step {gone : Set ℕ} {m : Move Task} (h : WithoutEffect gone key u)
    (hm : s.step postgres (Task.program env) m = some u) : WithoutEffect gone key s where
  requests pid hgone p hp := by
    obtain ⟨p', ws, hp', htask, -⟩ := State.history_of_step hm hp
    exact htask ▸ h.requests pid hgone p' hp'
  idle pid p hp hrequest := by
    obtain ⟨p', ws, hp', htask, hdurable⟩ := State.history_of_step hm hp
    have hnil := h.idle pid p' hp' (htask ▸ hrequest)
    rw [hdurable] at hnil
    exact (List.append_eq_nil_iff.1 hnil).1

theorem WithoutEffect.unclaimed {gone : Set ℕ} (h : WithoutEffect gone key s)
    (hwallets : InitialWallets wallets) (hrun : System.Reaches env (System.initial wallets) s) :
    s.db.idempotency.lookup key = none := by
  by_contra hsome
  obtain ⟨pid, p, hp, hrequest, hdurable⟩ := exists_request hwallets hrun hsome
  exact hdurable (h.idle pid p hp hrequest)

/-- No other call notices that the requests are gone. -/
theorem WithoutEffect.exec_eq {gone : Set ℕ} (h : WithoutEffect gone key s)
    (hwallets : InitialWallets wallets) (hrun : System.Reaches env (System.initial wallets) s)
    (herased : s.Erased gone s') {pid : ℕ}
    {p : Proc Write Stmt Stmt.Result Thrown Task TaskResult} {st : Stmt}
    {k : st.Result → App TaskResult} (hp : s.procs.lookup pid = some p)
    (hrest : p.rest = .call st k) :
    exec st (s'.lockedFor postgres pid) (postgres.view s.db p.pending) =
      exec st (s.lockedFor postgres pid) (postgres.view s.db p.pending) := by
  have hwithin := within_of_reaches hrun
  have hmay := hwithin.rest pid p hp
  rw [hrest] at hmay
  by_cases hcleanup : ∃ now retentionMs batchSize place,
      p.task = .cleanup now retentionMs batchSize place
  swap
  · refine exec_congr_of_may hmay.1 _ _ ?_
    rintro now retentionMs batchSize place htask
    exact hcleanup ⟨now, retentionMs, batchSize, place, htask⟩
  obtain ⟨now, retentionMs, batchSize, place, htask⟩ := hcleanup
  have hmay := hmay.1
  rw [htask] at hmay
  cases st with
  | deleteExpired before limit place =>
    -- the key of the requests has no record, and they hold no other key
    have hnone : (postgres.view s.db p.pending).idempotency.lookup key = none := by
      have hfree := h.unclaimed hwallets hrun
      cases hpending : p.pending with
      | none => exact hfree
      | some vs =>
        refine lookup_applyAll_deletes (fun w hw ↦ ?_) hfree
        have hkind := hwithin.pending pid p hp vs hpending w hw
        rw [htask] at hkind
        cases w with
        | deleteIdempotency key => exact ⟨key, rfl⟩
        | _ => exact hkind.elim
    refine exec_deleteExpired_congr fun other hother ↦ herased.lockedFor_eq ?_
    rintro j hj ⟨q, hq, hheld⟩
    cases hpending : q.pending with
    | none => simp [hpending] at hheld
    | some vs =>
      rw [hpending] at hheld
      obtain rfl := key_of_held (h.requests j hj q hq) (hwithin.pending j q hq vs hpending) hheld
      exact hother hnone
  | _ => exact hmay.elim

/-- **Requests without effect can be left out of a run.** -/
theorem erase_requests (hwallets : InitialWallets wallets)
    (hrun : System.Reaches env (System.initial wallets) s) {gone : Set ℕ}
    (h : WithoutEffect gone key s) :
    ∃ s', System.Reaches env (System.initial wallets) s' ∧ s.Erased gone s' := by
  induction hrun with
  | refl => exact ⟨_, .refl, rfl, fun _ _ ↦ rfl, fun _ _ ↦ rfl⟩
  | @tail a b hrun hstep ih =>
    obtain ⟨m, hadmissible, hm, -⟩ := hstep
    have ha := h.of_step hm
    obtain ⟨a', hrun', herased⟩ := ih ha
    by_cases hgone : m.pid ∈ gone
    · refine ⟨a', hrun', herased.step_gone hm hgone fun p hp ↦ ?_⟩
      exact h.idle _ p hp (h.requests _ hgone p hp)
    · obtain ⟨b', hm', herased'⟩ := herased.step_kept hm hgone fun p st k hp hrest ↦
        ha.exec_eq hwallets hrun herased hp hrest
      refine ⟨b', hrun'.tail ⟨m, fun pid t he ↦ ?_, hm', trivial⟩, herased'⟩
      -- what may be started may be started without them
      obtain ⟨hfresh, hgenuine, hdisjoint⟩ := hadmissible pid t he
      refine ⟨herased.db ▸ hfresh, herased.db ▸ hgenuine, fun j p hp ↦ hdisjoint j p ?_⟩
      by_cases hj : j ∈ gone
      · rw [herased.erased j hj] at hp
        cases hp
      · rwa [← herased.kept j hj]

/-! ### No poisoned key -/

/-- **No poisoned key.** Every committed record is completed; no request is told that another one is
in progress; and when all requests with a key have failed, the state is one in which the key is
unused, but for these requests, and has the same future. -/
theorem no_poisoned_key (hwallets : InitialWallets wallets)
    (hrun : System.Reaches env (System.initial wallets) s) :
    (∀ key rec, s.db.idempotency.lookup key = some rec → Completed env s.db rec) ∧
    (∀ pid key quoteId statusCode message written, ¬ Answered s pid key quoteId
      (.error statusCode "IDEMPOTENCY_IN_PROGRESS" message) written) ∧
    ∀ key, (∀ pid ∈ requestsWith s key, ∀ p, s.procs.lookup pid = some p → Failed p) →
      ∃ s', System.Reaches env (System.initial wallets) s' ∧ Unused s' key ∧
        s.Erased (requestsWith s key) s' ∧
        ∀ ms : List (Move Task), (∀ m ∈ ms, m.pid ∉ requestsWith s key) →
          Option.Rel (State.Erased (requestsWith s key)) (s.steps postgres (Task.program env) ms)
            (s'.steps postgres (Task.program env) ms) := by
  have hsound := sound_of_reaches hwallets hrun
  refine ⟨fun key rec hrec ↦ (hsound.inv.records key rec hrec).isCompleted, ?_,
    fun key hfailed ↦ ?_⟩
  · intro pid key quoteId statusCode message written hanswered
    obtain ⟨_, _, _, -, -, -, -, hanswer⟩ := hanswered.answer hsound
    exact hanswer.2 rfl
  -- failed accepts have written nothing and hold nothing
  · have hidle : ∀ pid p, s.procs.lookup pid = some p → Requests key p.task →
        p.durable = [] ∧ p.pending = none := fun pid p hp hrequest ↦
      (hfailed pid ⟨p, hp, hrequest⟩ p hp).idle hsound (deadQuiet_of_reaches hrun) hp hrequest
    have hrequests : ∀ pid ∈ requestsWith s key, ∀ p, s.procs.lookup pid = some p →
        Requests key p.task := by
      rintro pid ⟨q, hq, hrequest⟩ p hp
      rw [hq] at hp
      cases hp
      exact hrequest
    have hwithout : WithoutEffect (requestsWith s key) key s :=
      ⟨hrequests, fun pid p hp hrequest ↦ (hidle pid p hp hrequest).1⟩
    -- so the run without them ends in the same tables
    obtain ⟨s', hrun', herased⟩ := erase_requests hwallets hrun hwithout
    refine ⟨s', hrun', ⟨?_, ?_⟩, herased, fun ms hms ↦ herased.steps ?_ hms⟩
    · rw [herased.db]
      exact hwithout.unclaimed hwallets hrun
    · refine Set.eq_empty_of_forall_notMem ?_
      rintro pid ⟨p, hp, hrequest⟩
      by_cases hpid : pid ∈ requestsWith s key
      · rw [herased.erased pid hpid] at hp
        cases hp
      · rw [herased.kept pid hpid] at hp
        exact hpid ⟨p, hp, hrequest⟩
    · exact fun pid hpid p hp ↦ (hidle pid p hp (hrequests pid hpid p hp)).2

/-- The accept of an unknown quote fails; its key is then free, and a second accept with it
succeeds. -/
theorem no_poisoned_key_sample : ∃ s s' : System,
    ((s.procs.lookup 2).bind answerOf) =
      some (.error 404 "QUOTE_NOT_FOUND" "Quote q-2 was not found") ∧
    Unused s' "key-1" ∧ s.Erased (requestsWith s "key-1") s' ∧
    (s.steps postgres (Task.program .reference) (callFor 3 sampleAccept 10)).any (fun u ↦
      ((u.procs.lookup 3).bind answerOf) = some (.created sampleBody)) = true := by
  have hrun : ∃ s, System.Reaches .reference (System.initial sampleWallets) s ∧
      (s.procs.keys = {1, 2} ∧
        (s.procs.lookup 1).any (fun p ↦ decide (Requests "key-1" p.task)) = false ∧
        ((s.procs.lookup 2).bind answerOf) =
          some (.error 404 "QUOTE_NOT_FOUND" "Quote q-2 was not found") ∧
        (s.steps postgres (Task.program .reference) (callFor 3 sampleAccept 10)).any (fun u ↦
          ((u.procs.lookup 3).bind answerOf) = some (.created sampleBody)) = true) :=
    System.exists_of_play (callFor 1 sampleQuote 1 ++
      callFor 2 (.acceptQuote ⟨"q-2", "key-1"⟩
        ⟨sampleTime, .ofText "c-2", .ofText "e-2", sampleTime, 0⟩) 4) _ (by decide +kernel)
  obtain ⟨s, hreaches, hkeys, hquote, hanswer, hlater⟩ := hrun
  obtain ⟨-, -, hfree⟩ := no_poisoned_key (by decide +kernel) hreaches
  obtain ⟨s', -, hunused, herased, -⟩ := hfree "key-1" fun pid hpid p hp ↦ by
    obtain ⟨q, hq, hrequest⟩ := hpid
    rw [hp] at hq
    cases hq
    have hmem : pid ∈ s.procs.keys := Finmap.mem_keys.2 (Finmap.mem_of_lookup_eq_some hp)
    rw [hkeys, Finset.mem_insert, Finset.mem_singleton] at hmem
    rcases hmem with rfl | rfl
    · simp [hp, hrequest] at hquote
    · rw [hp, Option.bind_some, answerOf_eq_some] at hanswer
      exact Or.inr ⟨hanswer.1, Or.inr ⟨_, _, _, hanswer.2⟩⟩
  exact ⟨s, s', hanswer, hunused, herased, hlater⟩

end Ledger

end WalletConversion
