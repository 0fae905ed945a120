import WalletConversion.Application.Reference
import WalletConversion.Ledger.Calls

/-!
# The cleanup of idempotency records

Records are kept for a while and then deleted in batches, the oldest first. `CleansUp` says what
that is, for a choice of the records that may be deleted at all, and `cleansUp_iff` finds for every
choice when the cleanup does it: exactly when each record that is old enough may be deleted. The
statement that deletes looks at the time of a record only, not at its response. So a record in
progress is not spared (`cleanup_deletes_inProgress`); but the application commits no such record
(`cleanup_deletes_expired`).

**How it is proved.** A batch takes the first records of a list in the order of their times, so what
it leaves is not older. Each batch that deletes something makes the table smaller, which ends the
batches; and when one finds nothing to delete, nothing has expired any more.
-/

namespace WalletConversion

open Transactional

/-- A record without its response. -/
def IdempotencyRow.InProgress (row : IdempotencyRow) : Prop :=
  row.responseStatus = none ∨ row.responseBody = none

instance (row : IdempotencyRow) : Decidable row.InProgress :=
  inferInstanceAs (Decidable (_ ∨ _))

namespace Ledger

/-! ### What the cleanup is to do -/

section Specification

variable (now : Date) (retentionMs batchSize : ℕ)

/-- Created before the retention began. -/
def Expired (row : IdempotencyRow) : Prop := row.createdAt.getTime < now.getTime - retentionMs

instance (row : IdempotencyRow) : Decidable (Expired now retentionMs row) :=
  inferInstanceAs (Decidable (_ < _))

/-- A batch of the cleanup with nobody else around. -/
def cleanUp (place : String → ℕ) (db : Db) : Ending DbError Thrown ℕ × Db :=
  (IdempotencyCleanupService.cleanupBatch now retentionMs batchSize place).solo postgres none db

/-- Batches at the same time of the clock, one after the other. Each finds the rows in some
order. -/
def cleanUps : (ℕ → String → ℕ) → ℕ → Db → Db
  | _, 0, db => db
  | places, k + 1, db =>
    cleanUps (fun j ↦ places (j + 1)) k (cleanUp now retentionMs batchSize (places 0) db).2

variable (may : IdempotencyRow → Prop)

/-- A batch deletes records that have expired and may be deleted, the oldest first, and as many as
it can. -/
structure AllowedBatch (db db' : Db) (deleted : List String) : Prop where
  distinct : deleted.Nodup
  bounded : deleted.length ≤ batchSize
  tables : db' = { db with idempotency := deleted.foldl (fun t key ↦ t.erase key) db.idempotency }
  retained : ∀ key ∈ deleted, ∃ row, db.idempotency.lookup key = some row ∧ may row ∧
    Expired now retentionMs row
  /-- What is left and might have been deleted is not older. -/
  oldest : ∀ key ∈ deleted, ∀ key' ∉ deleted, ∀ row row', db.idempotency.lookup key = some row →
    db.idempotency.lookup key' = some row' → may row' → Expired now retentionMs row' →
    row.createdAt.getTime ≤ row'.createdAt.getTime
  full : deleted.length < batchSize → ∀ key row, db.idempotency.lookup key = some row →
    may row → Expired now retentionMs row → key ∈ deleted

/-- **What a cleanup is**: every batch is allowed and returns how many records it deleted, and
batches are repeated until nothing is left to delete. -/
structure CleansUp (db : Db) : Prop where
  batch : ∀ place, ∃ deleted db', cleanUp now retentionMs batchSize place db =
    (.returned deleted.length, db') ∧ AllowedBatch now retentionMs batchSize may db db' deleted
  drains : ∀ places, ∃ k,
    (∀ j < k, ∃ n, (cleanUp now retentionMs batchSize (places j)
      (cleanUps now retentionMs batchSize places j db)).1 = .returned (n + 1)) ∧
    (cleanUp now retentionMs batchSize (places k)
      (cleanUps now retentionMs batchSize places k db)).1 = .returned 0 ∧
    ∀ key row, (cleanUps now retentionMs batchSize places (k + 1) db).idempotency.lookup key =
      some row ↔ db.idempotency.lookup key = some row ∧
        (¬ may row ∨ ¬ Expired now retentionMs row)

end Specification

/-! ### What the cleanup does -/

variable {now cutoff : Date} {retentionMs batchSize : ℕ} {place : String → ℕ} {db : Db}
  {key : String} {row : IdempotencyRow} {may : IdempotencyRow → Prop}

/-- The records before the cutoff. -/
def expiredKeys (cutoff : Date) (db : Db) : Finset String :=
  db.idempotency.keys.filter fun key ↦
    (db.idempotency.lookup key).any fun row ↦ row.createdAt.getTime < cutoff.getTime

/-- When the record was written. -/
def createdTime (db : Db) (key : String) : ℤ :=
  (db.idempotency.lookup key).elim 0 fun row ↦ row.createdAt.getTime

/-- The records a batch deletes. -/
def victims (cutoff : Date) (batchSize : ℕ) (place : String → ℕ) (db : Db) : List String :=
  (inOrder (expiredKeys cutoff db) (createdTime db) place).take batchSize

theorem mem_expiredKeys : key ∈ expiredKeys cutoff db ↔
    ∃ row, db.idempotency.lookup key = some row ∧ row.createdAt.getTime < cutoff.getTime := by
  rw [expiredKeys, Finset.mem_filter, Finmap.mem_keys, Option.any_eq_true]
  simp only [decide_eq_true_eq]
  exact ⟨And.right, fun h ↦ ⟨Finmap.mem_of_lookup_eq_some h.choose_spec.1, h⟩⟩

/-- **A batch deletes its victims**, whatever their responses. -/
theorem cleanUp_eq (hcutoff : Date.ofTime? (now.getTime - retentionMs) = some cutoff) :
    cleanUp now retentionMs batchSize place db =
      (.returned (victims cutoff batchSize place db).length,
        { db with
          idempotency := (victims cutoff batchSize place db).foldl (fun t key ↦ t.erase key)
            db.idempotency }) := by
  have hexec : exec (.deleteExpired cutoff batchSize place) (fun _ ↦ false) db =
      .ok ((victims cutoff batchSize place db).length,
        (victims cutoff batchSize place db).map .deleteIdempotency) := by
    simp only [exec, victims, expiredKeys, and_true]
    rfl
  rw [cleanUp, IdempotencyCleanupService.cleanupBatch, hcutoff]
  refine (Prog.solo_call_none hexec).trans ?_
  rw [applyAll_delete]
  rfl

theorem expired_iff (hcutoff : Date.ofTime? (now.getTime - retentionMs) = some cutoff) :
    Expired now retentionMs row ↔ row.createdAt.getTime < cutoff.getTime := by
  rw [Date.getTime_of_ofTime? hcutoff, Expired]

/-- The victims are expired records. -/
theorem expired_of_mem_victims (h : key ∈ victims cutoff batchSize place db) :
    ∃ row, db.idempotency.lookup key = some row ∧ row.createdAt.getTime < cutoff.getTime :=
  mem_expiredKeys.1 (mem_inOrder.1 (List.mem_of_mem_take h))

/-- A batch that does not delete all it may has deleted all there is. -/
theorem mem_victims_of_lt (h : (victims cutoff batchSize place db).length < batchSize)
    (hkey : key ∈ expiredKeys cutoff db) : key ∈ victims cutoff batchSize place db := by
  rw [victims, List.length_take] at h
  rw [victims, List.take_of_length_le (by omega), mem_inOrder]
  exact hkey

/-- **A batch is allowed** when all that has expired may be deleted. -/
theorem allowedBatch_victims (hcutoff : Date.ofTime? (now.getTime - retentionMs) = some cutoff)
    (hmay : ∀ key row, db.idempotency.lookup key = some row →
      Expired now retentionMs row → may row) :
    AllowedBatch now retentionMs batchSize may db
      { db with idempotency :=
        (victims cutoff batchSize place db).foldl (fun t key ↦ t.erase key) db.idempotency }
      (victims cutoff batchSize place db) where
  distinct := nodup_inOrder.sublist (List.take_sublist _ _)
  bounded := List.length_take_le _ _
  tables := rfl
  retained key hkey := by
    obtain ⟨row, hrow, hlt⟩ := expired_of_mem_victims hkey
    have hexpired : Expired now retentionMs row := (expired_iff hcutoff).2 hlt
    exact ⟨row, hrow, hmay key row hrow hexpired, hexpired⟩
  oldest key hkey key' hkey' row row' hrow hrow' _ hexpired' := by
    -- what is not taken comes later
    have hmem : key' ∈ expiredKeys cutoff db :=
      mem_expiredKeys.2 ⟨row', hrow', (expired_iff hcutoff).1 hexpired'⟩
    have hmem : key' ∈ inOrder (expiredKeys cutoff db) (createdTime db) place := mem_inOrder.2 hmem
    rw [← List.take_append_drop batchSize (inOrder _ _ _)] at hmem
    have hlater := (List.mem_append.1 hmem).resolve_left hkey'
    have hordered : (inOrder (expiredKeys cutoff db) (createdTime db) place).Pairwise
        fun a b ↦ createdTime db a ≤ createdTime db b := pairwise_inOrder
    rw [← List.take_append_drop batchSize (inOrder _ _ _), List.pairwise_append] at hordered
    have hle := hordered.2.2 key hkey key' hlater
    rwa [createdTime, createdTime, hrow, hrow'] at hle
  full hlt key row hrow _ hexpired :=
    mem_victims_of_lt hlt (mem_expiredKeys.2 ⟨row, hrow, (expired_iff hcutoff).1 hexpired⟩)

/-- A batch that deletes nothing has nothing to delete. -/
theorem not_expired_of_cleanUp (hcutoff : Date.ofTime? (now.getTime - retentionMs) = some cutoff)
    (hbatch : 0 < batchSize) (hend : (cleanUp now retentionMs batchSize place db).1 = .returned 0)
    (hrow : db.idempotency.lookup key = some row) : ¬ Expired now retentionMs row := by
  intro hexpired
  rw [cleanUp_eq hcutoff] at hend
  have hzero : (victims cutoff batchSize place db).length = 0 := by simpa using hend
  have hlt : (victims cutoff batchSize place db).length < batchSize := by omega
  have hvictim : key ∈ victims cutoff batchSize place db :=
    mem_victims_of_lt hlt (mem_expiredKeys.2 ⟨row, hrow, (expired_iff hcutoff).1 hexpired⟩)
  rw [List.length_eq_zero_iff.1 hzero] at hvictim
  cases hvictim

/-- What a batch leaves. -/
theorem lookup_cleanUp (hcutoff : Date.ofTime? (now.getTime - retentionMs) = some cutoff) :
    (cleanUp now retentionMs batchSize place db).2.idempotency.lookup key =
      if key ∈ victims cutoff batchSize place db then none else db.idempotency.lookup key := by
  rw [cleanUp_eq hcutoff]
  exact Table.lookup_foldl_erase _ _ _

/-- A batch that deletes something leaves fewer expired records. -/
theorem card_expiredKeys_lt (hcutoff : Date.ofTime? (now.getTime - retentionMs) = some cutoff)
    (hpos : 0 < (victims cutoff batchSize place db).length) :
    (expiredKeys cutoff (cleanUp now retentionMs batchSize place db).2).card <
      (expiredKeys cutoff db).card := by
  obtain ⟨victim, hvictim⟩ := List.exists_mem_of_length_pos hpos
  refine Finset.card_lt_card ((Finset.ssubset_iff_of_subset fun key hkey ↦ ?_).2
    ⟨victim, mem_expiredKeys.2 (expired_of_mem_victims hvictim), fun hleft ↦ ?_⟩)
  · obtain ⟨row, hrow, hlt⟩ := mem_expiredKeys.1 hkey
    rw [lookup_cleanUp hcutoff] at hrow
    split at hrow
    · cases hrow
    · exact mem_expiredKeys.2 ⟨row, hrow, hlt⟩
  · obtain ⟨row, hrow, -⟩ := mem_expiredKeys.1 hleft
    rw [lookup_cleanUp hcutoff, if_pos hvictim] at hrow
    cases hrow

/-- **Repeated batches come to an end**, and leave just what has not expired. -/
theorem cleanUps_drain (hcutoff : Date.ofTime? (now.getTime - retentionMs) = some cutoff)
    (hbatch : 0 < batchSize) (places : ℕ → String → ℕ) (db : Db) : ∃ k,
    (∀ j < k, ∃ n, (cleanUp now retentionMs batchSize (places j)
      (cleanUps now retentionMs batchSize places j db)).1 = .returned (n + 1)) ∧
    (cleanUp now retentionMs batchSize (places k)
      (cleanUps now retentionMs batchSize places k db)).1 = .returned 0 ∧
    ∀ key row, (cleanUps now retentionMs batchSize places (k + 1) db).idempotency.lookup key =
      some row ↔ db.idempotency.lookup key = some row ∧ ¬ Expired now retentionMs row := by
  -- every batch but the last leaves fewer expired records
  induction hcard : (expiredKeys cutoff db).card using Nat.strong_induction_on
    generalizing db places with
  | _ m ih =>
    have hfirst : cleanUp now retentionMs batchSize (places 0) db = _ := cleanUp_eq hcutoff
    rcases Nat.eq_zero_or_pos (victims cutoff batchSize (places 0) db).length with hzero | hpos
    · refine ⟨0, fun j hj ↦ absurd hj (Nat.not_lt_zero j), ?_, fun key row ↦ ?_⟩
      · show (cleanUp now retentionMs batchSize (places 0) db).1 = _
        rw [hfirst, hzero]
      · show (cleanUp now retentionMs batchSize (places 0) db).2.idempotency.lookup key = _ ↔ _
        rw [lookup_cleanUp hcutoff, List.length_eq_zero_iff.1 hzero, if_neg List.not_mem_nil]
        have hend : (cleanUp now retentionMs batchSize (places 0) db).1 = .returned 0 := by
          rw [hfirst, hzero]
        exact ⟨fun hrow ↦ ⟨hrow, not_expired_of_cleanUp hcutoff hbatch hend hrow⟩, And.left⟩
    · have hfewer : (expiredKeys cutoff (cleanUp now retentionMs batchSize (places 0) db).2).card <
          m := hcard ▸ card_expiredKeys_lt hcutoff hpos
      obtain ⟨k, hbefore, hend, hleft⟩ := ih _ hfewer (fun j ↦ places (j + 1)) _ rfl
      refine ⟨k + 1, ?_, hend, fun key row ↦ ?_⟩
      · rintro (_ | j) hj
        · refine ⟨(victims cutoff batchSize (places 0) db).length - 1, ?_⟩
          show (cleanUp now retentionMs batchSize (places 0) db).1 = _
          rw [hfirst, Nat.sub_add_cancel hpos]
        · exact hbefore j (Nat.lt_of_succ_lt_succ hj)
      · refine (hleft key row).trans ?_
        rw [lookup_cleanUp hcutoff]
        split
        · rename_i hvictim
          obtain ⟨row', hrow', hlt⟩ := expired_of_mem_victims hvictim
          refine ⟨fun h ↦ (by cases h.1), fun ⟨hrow, hkept⟩ ↦ ?_⟩
          rw [hrow'] at hrow
          cases hrow
          exact absurd ((expired_iff hcutoff).2 hlt) hkept
        · exact Iff.rfl

theorem cleanUps_succ (places : ℕ → String → ℕ) (k : ℕ) (db : Db) :
    cleanUps now retentionMs batchSize places (k + 1) db =
      (cleanUp now retentionMs batchSize (places k)
        (cleanUps now retentionMs batchSize places k db)).2 := by
  induction k generalizing places db with
  | zero => rfl
  | succ k ih => exact ih (fun j ↦ places (j + 1)) _

/-- The cutoff of a cleanup is a date. -/
theorem CleansUp.exists_cutoff (h : CleansUp now retentionMs batchSize may db) :
    ∃ cutoff, Date.ofTime? (now.getTime - retentionMs) = some cutoff := by
  obtain ⟨deleted, db', hreturned, -⟩ := h.batch fun _ ↦ 0
  rcases hcutoff : Date.ofTime? (now.getTime - retentionMs) with - | cutoff
  · rw [cleanUp, IdempotencyCleanupService.cleanupBatch, hcutoff] at hreturned
    cases hreturned
  · exact ⟨cutoff, rfl⟩

/-- All that has expired may be deleted: it would be there after the last batch. -/
theorem CleansUp.may_of_expired (h : CleansUp now retentionMs batchSize may db)
    (hbatch : 0 < batchSize)
    (hrow : db.idempotency.lookup key = some row) (hexpired : Expired now retentionMs row) :
    may row := by
  obtain ⟨cutoff, hcutoff⟩ := h.exists_cutoff
  by_contra hnot
  obtain ⟨k, -, hend, hleft⟩ := h.drains fun _ _ ↦ 0
  have hkept := (hleft key row).2 ⟨hrow, .inl hnot⟩
  rw [cleanUps_succ, lookup_cleanUp hcutoff] at hkept
  split at hkept
  · cases hkept
  · exact not_expired_of_cleanUp hcutoff hbatch hend hkept hexpired

/-- **What the cleanup deletes**, for every choice of the records that may be deleted: it cleans up
exactly when the cutoff is a date, and every record that was created before it may be deleted. -/
theorem cleansUp_iff (hbatch : 0 < batchSize) : CleansUp now retentionMs batchSize may db ↔
    Date.ofTime? (now.getTime - retentionMs) ≠ none ∧
      ∀ key row, db.idempotency.lookup key = some row → Expired now retentionMs row → may row := by
  constructor
  · intro h
    obtain ⟨cutoff, hcutoff⟩ := h.exists_cutoff
    exact ⟨Option.ne_none_iff_exists'.2 ⟨cutoff, hcutoff⟩,
      fun key row hrow hexpired ↦ h.may_of_expired hbatch hrow hexpired⟩
  · rintro ⟨hdate, hmay⟩
    obtain ⟨cutoff, hcutoff⟩ := Option.ne_none_iff_exists'.1 hdate
    refine ⟨fun place ↦ ⟨_, _, cleanUp_eq hcutoff, allowedBatch_victims hcutoff hmay⟩,
      fun places ↦ ?_⟩
    obtain ⟨k, hbefore, hend, hleft⟩ := cleanUps_drain hcutoff hbatch places db
    refine ⟨k, hbefore, hend, fun key row ↦ (hleft key row).trans (and_congr_right fun hrow ↦ ?_)⟩
    exact ⟨.inr, fun hkept ↦ hkept.elim (fun hnot hexpired ↦ hnot (hmay key row hrow hexpired)) id⟩

/-- **The cleanup deletes what has expired**, whatever the table holds and whether or not a record
has its response: batches that have ended leave exactly the records at or after the cutoff. In the
states of the application no record is in progress, so that it deletes completed records only. -/
theorem cleanup_deletes_expired (hdate : Date.ofTime? (now.getTime - retentionMs) ≠ none)
    (hbatch : 0 < batchSize) :
    (∀ db, CleansUp now retentionMs batchSize (fun _ ↦ True) db) ∧
    ∀ (env : Platform) (wallets : Table (String × String) WalletRow) (s : System),
      InitialWallets wallets → System.Reaches env (System.initial wallets) s →
        CleansUp now retentionMs batchSize (fun row ↦ ¬ row.InProgress) s.db := by
  refine ⟨fun db ↦ (cleansUp_iff hbatch).2 ⟨hdate, fun _ _ _ _ ↦ trivial⟩, ?_⟩
  intro env wallets s hwallets hrun
  refine (cleansUp_iff hbatch).2 ⟨hdate, fun key row hrow _ hprogress ↦ ?_⟩
  have hvalid := (sound_of_reaches hwallets hrun).inv.records key row hrow
  obtain ⟨_, _, _, -, hbody, -⟩ := hvalid.completed
  rcases hprogress with hstatus | hnone
  · exact absurd (hvalid.status.symm.trans hstatus) nofun
  · exact absurd (hbody.symm.trans hnone) nofun

/-- A record that was never completed. -/
def startedRow (createdAt : Date) : IdempotencyRow where
  scope := AcceptQuoteUseCase.ACCEPT_QUOTE_SCOPE
  requestHash := "hash"
  responseStatus := none
  responseBody := none
  conversionId := none
  createdAt := createdAt

/-- One record in progress, of `createdAt`. -/
def startedDb (createdAt : Date) : Db :=
  { Db.ofWallets ∅ with idempotency := Finmap.singleton "key-1" (startedRow createdAt) }

/-- A record in progress is an hour older than the retention, and batches leave nothing of it. -/
theorem cleanup_deletes_expired_sample : ∃ k, (cleanUps ⟨1786064400000, by decide⟩ 86400000 1000
    (fun _ _ ↦ 0) (k + 1)
      (startedDb ⟨1785974400000, by decide⟩)).idempotency.lookup "key-1" = none := by
  have hcleans : CleansUp ⟨1786064400000, by decide⟩ 86400000 1000 (fun _ ↦ True)
      (startedDb ⟨1785974400000, by decide⟩) :=
    (cleanup_deletes_expired (by decide) (by decide)).1 _
  obtain ⟨k, -, -, hleft⟩ := hcleans.drains fun _ _ ↦ 0
  refine ⟨k, Option.eq_none_iff_forall_ne_some.2 fun row hrow ↦ ?_⟩
  obtain ⟨hold, hkept⟩ := (hleft "key-1" row).1 hrow
  cases Finmap.lookup_singleton_eq.symm.trans hold
  exact hkept.elim (fun h ↦ h trivial) (fun h ↦ h (by decide))

/-- So the retention does not keep records in progress. -/
theorem cleanup_deletes_inProgress : ¬ CleansUp ⟨1786064400000, by decide⟩ 86400000 1000
    (fun row ↦ ¬ row.InProgress) (startedDb ⟨1785974400000, by decide⟩) := fun h ↦
  h.may_of_expired (by decide) (show (startedDb _).idempotency.lookup "key-1" = some _ from
    Finmap.lookup_singleton_eq) (show Expired _ _ (startedRow _) by decide)
    (show (startedRow _).InProgress by decide)

end Ledger

end WalletConversion
