import WalletConversion.Ledger.Commit

/-!
# Statements on valid rows

What the statements with guards and checks do on rows that meet the constraints. Each lemma gives
the result of a statement in full, whatever is locked, so a program can be run through it.

* A wallet row that meets its checks bounds all its columns by its balance, so `reserve`, `release`
  and `commitReservation` never overflow: they update the row or find their guard violated
  (`exec_reserveWallet`, `exec_releaseWallet`, `exec_commitWallet`).
* `credit` is the one update that can leave the range of the column (`exec_creditWallet`).
* Amounts and ids of stored objects are read back by the columns they came from.
-/

namespace WalletConversion

open DecimalNotation

namespace Ledger

variable {db : Db}

/-! ### Views -/

@[simp] theorem postgres_apply (w : Write) : postgres.apply db w = db.write w := rfl

@[simp] theorem postgres_keys (w : Write) : postgres.keys w = w.keys := rfl

/-! ### Assignments -/

/-- A number with at most 18 decimals that is not too large is stored. -/
theorem assign_of_lt {q : ℚ} (h : IsFixed 18 q) (hlt : |q| < 10 ^ 20) :
    assign q = .ok ⟨q, h, hlt⟩ := by
  rw [assign_of_isFixed h, dif_pos hlt]

/-- A number of 21 or more digits before the point overflows its column. -/
theorem assign_of_ge {q : ℚ} (h : IsFixed 18 q) (hge : ¬ |q| < 10 ^ 20) :
    assign q = .error .numericOverflow := by
  rw [assign_of_isFixed h, dif_neg hge]

/-- So does the text of such an amount. -/
theorem column_toString_overflow {m : Money} (hscale : m.asset.scale ≤ 18)
    (hge : ¬ m.amount < 10 ^ 20) : column m.toString = .error .numericOverflow := by
  rw [column_of_denotes m.denotes_toString (m.fixed.mono hscale), dif_neg]
  rwa [abs_of_nonneg m.nonneg]

@[simp] theorem checked_none : checked none = .ok () := rfl

private theorem abs_zero_lt : |(0 : ℚ)| < 10 ^ 20 := by norm_num

theorem assign_zero : assign 0 = .ok ⟨0, IsFixed.zero 18, abs_zero_lt⟩ :=
  assign_of_lt (IsFixed.zero 18) abs_zero_lt

/-! ### Wallet updates -/

section WalletUpdates

variable {userId asset : String} {w : WalletRow} {guard : WalletRow → Bool}
  {set : WalletRow → Except DbError WalletRow}

/-- A wallet that does not exist is not updated. -/
theorem updateWallet_of_none (hw : db.wallets.lookup (userId, asset) = none) :
    updateWallet db userId asset guard set = .ok (none, []) := by
  rw [updateWallet, hw]

/-- A wallet that fails the condition of the statement is not updated. -/
theorem updateWallet_of_guard_false (hw : db.wallets.lookup (userId, asset) = some w)
    (hguard : guard w = false) : updateWallet db userId asset guard set = .ok (none, []) := by
  rw [updateWallet, hw]
  simp only [hguard, Bool.false_eq_true, if_false]

/-- A wallet that passes the condition and the checks is written. -/
theorem updateWallet_of_set {w' : WalletRow} (hw : db.wallets.lookup (userId, asset) = some w)
    (hguard : guard w = true) (hset : set w = .ok w') (hchecks : w'.violated = none) :
    updateWallet db userId asset guard set = .ok (some w', [.putWallet userId asset w']) := by
  rw [updateWallet, hw]
  simp only [hguard, if_true, hset, bind, Except.bind, hchecks, checked_none]

/-- Where the new row cannot be computed the statement is refused. -/
theorem updateWallet_of_set_error {e : DbError} (hw : db.wallets.lookup (userId, asset) = some w)
    (hguard : guard w = true) (hset : set w = .error e) :
    updateWallet db userId asset guard set = .error e := by
  rw [updateWallet, hw]
  simp only [hguard, if_true, hset, bind, Except.bind]

section Money

variable {m : Money}

/-- An amount between zero and the range of the column is stored. -/
theorem assign_of_mem {q r : ℚ} (h : IsFixed 18 q) (h₀ : 0 ≤ q) (hr : q ≤ r) (hlt : r < 10 ^ 20) :
    ∃ n : Numeric, n.1 = q ∧ assign q = .ok n := by
  have habs : |q| < 10 ^ 20 := by
    rw [abs_of_nonneg h₀]
    exact lt_of_le_of_lt hr hlt
  exact ⟨⟨q, h, habs⟩, rfl, assign_of_lt h habs⟩

/-- **`reserve` moves the amount** when enough is available. -/
theorem exec_reserveWallet (hscale : m.asset.scale ≤ 18)
    (hw : db.wallets.lookup (userId, asset) = some w) (hv : w.violated = none)
    (hle : m.amount ≤ w.available.1) :
    ∃ w', Reserves m.amount w w' ∧ w'.violated = none ∧ ∀ locked,
      exec (.reserveWallet userId asset m.toString) locked db =
        .ok (some w', [.putWallet userId asset w']) := by
  obtain ⟨havailable, hreserved, hsum, hlt⟩ := WalletRow.bounds hv
  have hm := m.nonneg
  have hfixed : IsFixed 18 m.amount := m.fixed.mono hscale
  obtain ⟨available, ha, hassign⟩ := assign_of_mem (w.available.2.1.sub hfixed)
    (sub_nonneg.2 hle) (by linarith : _ ≤ w.balance.1) hlt
  obtain ⟨reserved, hr, hassign'⟩ := assign_of_mem (w.reserved.2.1.add hfixed)
    (by linarith) (by linarith : _ ≤ w.balance.1) hlt
  have hchecks : ({ w with available, reserved } : WalletRow).violated = none := by
    refine WalletRow.violated_eq_none.2 ⟨⟨by linarith, by linarith, by linarith⟩, ?_⟩
    show available.1 + reserved.1 = w.balance.1
    linarith
  refine ⟨{ w with available, reserved }, ⟨rfl, rfl, ha, hr⟩, hchecks, fun locked ↦ ?_⟩
  simp only [exec, number_toString, bind, Except.bind]
  refine updateWallet_of_set hw (by simpa using hle) ?_ hchecks
  simp only [hassign, hassign']

/-- **`release` moves the amount back** when enough is reserved. -/
theorem exec_releaseWallet (hscale : m.asset.scale ≤ 18)
    (hw : db.wallets.lookup (userId, asset) = some w) (hv : w.violated = none)
    (hle : m.amount ≤ w.reserved.1) :
    ∃ w', Releases m.amount w w' ∧ w'.violated = none ∧ ∀ locked,
      exec (.releaseWallet userId asset m.toString) locked db =
        .ok (some w', [.putWallet userId asset w']) := by
  obtain ⟨havailable, hreserved, hsum, hlt⟩ := WalletRow.bounds hv
  have hm := m.nonneg
  have hfixed : IsFixed 18 m.amount := m.fixed.mono hscale
  obtain ⟨available, ha, hassign⟩ := assign_of_mem (w.available.2.1.add hfixed)
    (by linarith) (by linarith : _ ≤ w.balance.1) hlt
  obtain ⟨reserved, hr, hassign'⟩ := assign_of_mem (w.reserved.2.1.sub hfixed)
    (sub_nonneg.2 hle) (by linarith : _ ≤ w.balance.1) hlt
  have hchecks : ({ w with available, reserved } : WalletRow).violated = none := by
    refine WalletRow.violated_eq_none.2 ⟨⟨by linarith, by linarith, by linarith⟩, ?_⟩
    show available.1 + reserved.1 = w.balance.1
    linarith
  refine ⟨{ w with available, reserved }, ⟨rfl, rfl, ha, hr⟩, hchecks, fun locked ↦ ?_⟩
  simp only [exec, number_toString, bind, Except.bind]
  refine updateWallet_of_set hw (by simpa using hle) ?_ hchecks
  simp only [hassign, hassign']

/-- **`commitReservation` removes the amount** when enough is reserved. -/
theorem exec_commitWallet (hscale : m.asset.scale ≤ 18)
    (hw : db.wallets.lookup (userId, asset) = some w) (hv : w.violated = none)
    (hle : m.amount ≤ w.reserved.1) :
    ∃ w', Commits m.amount w w' ∧ w'.violated = none ∧ ∀ locked,
      exec (.commitWallet userId asset m.toString) locked db =
        .ok (some w', [.putWallet userId asset w']) := by
  obtain ⟨havailable, hreserved, hsum, hlt⟩ := WalletRow.bounds hv
  have hm := m.nonneg
  have hfixed : IsFixed 18 m.amount := m.fixed.mono hscale
  obtain ⟨reserved, hr, hassign⟩ := assign_of_mem (w.reserved.2.1.sub hfixed)
    (sub_nonneg.2 hle) (by linarith : _ ≤ w.balance.1) hlt
  obtain ⟨balance, hb, hassign'⟩ := assign_of_mem (w.balance.2.1.sub hfixed)
    (by linarith) (by linarith : _ ≤ w.balance.1) hlt
  have hchecks : ({ w with reserved, balance } : WalletRow).violated = none := by
    refine WalletRow.violated_eq_none.2 ⟨⟨by linarith, by linarith, by linarith⟩, ?_⟩
    show w.available.1 + reserved.1 = balance.1
    linarith
  refine ⟨{ w with reserved, balance }, ⟨rfl, hb, rfl, hr⟩, hchecks, fun locked ↦ ?_⟩
  simp only [exec, number_toString, bind, Except.bind]
  refine updateWallet_of_set hw (by simpa using hle) ?_ hchecks
  simp only [hassign, hassign']

/-- **`credit` adds the amount** when the balance stays in range. -/
theorem exec_creditWallet (hscale : m.asset.scale ≤ 18)
    (hw : db.wallets.lookup (userId, asset) = some w) (hv : w.violated = none)
    (hlt : w.balance.1 + m.amount < 10 ^ 20) :
    ∃ w', Credits m.amount w w' ∧ w'.violated = none ∧ ∀ locked,
      exec (.creditWallet userId asset m.toString) locked db =
        .ok (some w', [.putWallet userId asset w']) := by
  obtain ⟨havailable, hreserved, hsum, -⟩ := WalletRow.bounds hv
  have hm := m.nonneg
  have hfixed : IsFixed 18 m.amount := m.fixed.mono hscale
  obtain ⟨balance, hb, hassign⟩ := assign_of_mem (w.balance.2.1.add hfixed)
    (by linarith) le_rfl hlt
  obtain ⟨available, ha, hassign'⟩ := assign_of_mem (w.available.2.1.add hfixed)
    (by linarith) (by linarith : _ ≤ w.balance.1 + m.amount) hlt
  have hchecks : ({ w with balance, available } : WalletRow).violated = none := by
    refine WalletRow.violated_eq_none.2 ⟨⟨by linarith, by linarith, by linarith⟩, ?_⟩
    show available.1 + w.reserved.1 = balance.1
    linarith
  refine ⟨{ w with balance, available }, ⟨rfl, hb, ha, rfl⟩, hchecks, fun locked ↦ ?_⟩
  simp only [exec, number_toString, bind, Except.bind]
  refine updateWallet_of_set hw rfl ?_ hchecks
  simp only [hassign, hassign']

/-- A credit that leaves the range of the column is refused. -/
theorem exec_creditWallet_overflow (hscale : m.asset.scale ≤ 18)
    (hw : db.wallets.lookup (userId, asset) = some w) (hv : w.violated = none)
    (hge : ¬ w.balance.1 + m.amount < 10 ^ 20) (locked : LockKey → Bool) :
    exec (.creditWallet userId asset m.toString) locked db = .error .numericOverflow := by
  obtain ⟨havailable, hreserved, hsum, -⟩ := WalletRow.bounds hv
  have hm := m.nonneg
  have hassign := assign_of_ge (w.balance.2.1.add (m.fixed.mono hscale)) (by
    rwa [abs_of_nonneg (by linarith)])
  simp only [exec, number_toString, bind, Except.bind]
  refine updateWallet_of_set_error hw rfl ?_
  simp only [hassign]

/-- More than what is available is not reserved. -/
theorem exec_reserveWallet_of_lt (hw : db.wallets.lookup (userId, asset) = some w)
    (hlt : ¬ m.amount ≤ w.available.1) (locked : LockKey → Bool) :
    exec (.reserveWallet userId asset m.toString) locked db = .ok (none, []) := by
  simp only [exec, number_toString, bind, Except.bind]
  exact updateWallet_of_guard_false hw (by simpa using hlt)

/-- More than what is reserved is not released. -/
theorem exec_releaseWallet_of_lt (hw : db.wallets.lookup (userId, asset) = some w)
    (hlt : ¬ m.amount ≤ w.reserved.1) (locked : LockKey → Bool) :
    exec (.releaseWallet userId asset m.toString) locked db = .ok (none, []) := by
  simp only [exec, number_toString, bind, Except.bind]
  exact updateWallet_of_guard_false hw (by simpa using hlt)

/-- More than what is reserved is not committed. -/
theorem exec_commitWallet_of_lt (hw : db.wallets.lookup (userId, asset) = some w)
    (hlt : ¬ m.amount ≤ w.reserved.1) (locked : LockKey → Bool) :
    exec (.commitWallet userId asset m.toString) locked db = .ok (none, []) := by
  simp only [exec, number_toString, bind, Except.bind]
  exact updateWallet_of_guard_false hw (by simpa using hlt)

/-- Nothing is reserved in a wallet that does not exist. -/
theorem exec_reserveWallet_of_none (hw : db.wallets.lookup (userId, asset) = none)
    (locked : LockKey → Bool) :
    exec (.reserveWallet userId asset m.toString) locked db = .ok (none, []) := by
  simp only [exec, number_toString, bind, Except.bind]
  exact updateWallet_of_none hw

/-- `createIfMissing` on an existing wallet. -/
theorem exec_insertWallet_of_some {id : String} (hasset : nonBlank asset = true)
    (hw : db.wallets.lookup (userId, asset) = some w) (locked : LockKey → Bool) :
    exec (.insertWallet id userId asset) locked db = .ok ((), []) := by
  simp only [exec, hasset, Bool.true_eq_false, if_false, hw]

/-- A wallet without money. -/
def emptyWallet (id : String) : WalletRow where
  id := id
  balance := ⟨0, IsFixed.zero 18, by norm_num⟩
  available := ⟨0, IsFixed.zero 18, by norm_num⟩
  reserved := ⟨0, IsFixed.zero 18, by norm_num⟩

/-- An empty wallet passes the checks of its table. -/
theorem emptyWallet_checks (id : String) : (emptyWallet id).violated = none :=
  WalletRow.violated_eq_none.2 ⟨⟨le_rfl, le_rfl, le_rfl⟩, add_zero _⟩

/-- `createIfMissing` opens a wallet without money. -/
theorem exec_insertWallet_of_none {id : String} (hasset : nonBlank asset = true)
    (hw : db.wallets.lookup (userId, asset) = none)
    (hid : ∀ key row, db.wallets.lookup key = some row → row.id ≠ id) (locked : LockKey → Bool) :
    exec (.insertWallet id userId asset) locked db =
      .ok ((), [.putWallet userId asset (emptyWallet id)]) := by
  have hfree : ¬ ∃ key ∈ db.wallets.keys, (db.wallets.lookup key).map (·.id) = some id := by
    rintro ⟨key, -, hkey⟩
    obtain ⟨row, hrow, hrowid⟩ := Option.map_eq_some_iff.1 hkey
    exact hid key row hrow hrowid
  simp only [exec, hasset, Bool.true_eq_false, if_false, hw, assign_zero, bind, Except.bind,
    if_neg hfree]
  rfl

end Money

end WalletUpdates

/-! ### Saved objects -/

section Saved

variable {env : Platform} {id : String}

/-- **Saving a new quote** inserts its row. -/
theorem exec_saveQuote_new {q : Quote} {row : QuoteRow} (h : q.StoredAs env id row)
    (hv : row.violated = none) (hnew : db.quotes.lookup id = none) (locked : LockKey → Bool) :
    exec (.upsertQuote (PrismaQuoteRepository.data q)) locked db =
      .ok ((), [.putQuote id row]) := by
  have hrate : column q.rate.toString = .ok row.rate := by
    have hden := q.rate.denotes_toString
    rw [← h.rate_eq] at hden
    rw [column_of_denotes hden row.rate.2.1, dif_pos row.rate.2.2]
  rw [h.id_eq] at hnew
  simp only [exec, Quote.storing_eq_ok.2 h.storable, bind, Except.bind]
  simp only [PrismaQuoteRepository.data, hnew, h.source.column, h.target.column, hrate]
  have hrow : (⟨q.userId.value, q.sourceAsset.code, q.targetAsset.code, row.sourceAmount,
      row.targetAmount, row.rate, q.status, q.createdAt, q.expiresAt, q.acceptedAt⟩ : QuoteRow) =
      row := by
    ext1 <;> simp only [h.user_eq, h.source.code_eq, h.target.code_eq, h.status_eq, h.createdAt_eq,
      h.expiresAt_eq, h.acceptedAt_eq, Quote.sourceAsset, Quote.targetAsset]
  rw [hrow, hv, checked_none, ← h.id_eq]

/-- **Saving a new conversion** inserts its row, unless its quote was converted already. -/
theorem exec_saveConversion_new {k : Conversion} {row : ConversionRow} (h : k.StoredAs env id row)
    (hv : row.violated = none) (hnew : db.conversions.lookup id = none)
    (hquote : ∀ c r, db.conversions.lookup c = some r → r.quoteId ≠ row.quoteId)
    (locked : LockKey → Bool) :
    exec (.upsertConversion (PrismaConversionRepository.data k)) locked db =
      .ok ((), [.insertConversion id row]) := by
  have hrow : (⟨k.quoteId.value, k.userId.value, k.sourceAmount.asset.code,
      k.targetAmount.asset.code, row.sourceAmount, row.targetAmount, k.status,
      k.exchangeExecutionId, k.failureReason, k.createdAt, k.completedAt⟩ : ConversionRow) =
      row := by
    ext1 <;> simp only [h.quote_eq, h.user_eq, h.source.code_eq, h.target.code_eq, h.status_eq,
      h.execution_eq, h.reason_eq, h.createdAt_eq, h.completedAt_eq]
  have hfree : ¬ ∃ c ∈ db.conversions.keys,
      (db.conversions.lookup c).map (·.quoteId) = some k.quoteId.value := by
    rintro ⟨c, -, hc⟩
    obtain ⟨r, hr, hq⟩ := Option.map_eq_some_iff.1 hc
    exact hquote c r hr (hq.trans h.quote_eq.symm)
  rw [h.id_eq] at hnew
  simp only [exec, Conversion.storing_eq_ok.2 h.storable, bind, Except.bind]
  simp only [PrismaConversionRepository.data, hnew, h.source.column, h.target.column, hrow, hv,
    checked_none, if_neg hfree, ← h.id_eq]

/-- **Saving a conversion that exists** updates its state. -/
theorem exec_saveConversion_old {k : Conversion} {row row' : ConversionRow} (hk : k.Storable)
    (hold : db.conversions.lookup k.id.value = some row)
    (hrow : row' =
      { row with
        status := k.status
        exchangeExecutionId := k.exchangeExecutionId
        failureReason := k.failureReason
        completedAt := k.completedAt })
    (hv : row'.violated = none) (locked : LockKey → Bool) :
    exec (.upsertConversion (PrismaConversionRepository.data k)) locked db =
      .ok ((), [.updateConversion k.id.value row']) := by
  subst hrow
  simp only [exec, Conversion.storing_eq_ok.2 hk, bind, Except.bind]
  simp only [PrismaConversionRepository.data, hold, hv, checked_none]

end Saved

/-! ### Accepting a quote -/

/-- **An active quote that has not expired is accepted.** -/
theorem exec_acceptQuote {id : String} {acceptedAt now : Date} {row : QuoteRow}
    (hrow : db.quotes.lookup id = some row) (hactive : row.status = .ACTIVE)
    (htime : now.getTime ≤ row.expiresAt.getTime)
    (hchecks : ({ row with status := .ACCEPTED, acceptedAt := some acceptedAt } :
      QuoteRow).violated = none) (locked : LockKey → Bool) :
    exec (.acceptQuote id acceptedAt now) locked db =
      .ok (some { row with status := .ACCEPTED, acceptedAt := some acceptedAt },
        [.putQuote id { row with status := .ACCEPTED, acceptedAt := some acceptedAt }]) := by
  simp only [exec, hrow, if_pos (And.intro hactive htime), hchecks, checked_none, bind,
    Except.bind]

/-- A quote is not accepted twice. -/
theorem exec_acceptQuote_of_not_active {id : String} {acceptedAt now : Date} {row : QuoteRow}
    (hrow : db.quotes.lookup id = some row) (hactive : row.status ≠ .ACTIVE)
    (locked : LockKey → Bool) :
    exec (.acceptQuote id acceptedAt now) locked db = .ok (none, []) := by
  have hguard : ¬ (row.status = .ACTIVE ∧ now.getTime ≤ row.expiresAt.getTime) :=
    fun h ↦ hactive h.1
  simp only [exec, hrow, if_neg hguard]

/-! ### Messages and records -/

/-- A new event is stored unpublished. -/
theorem exec_createOutbox {message : OutboxMessage}
    (htype : message.eventType = "ConversionExecutionRequested")
    (hnew : db.outbox.lookup message.id = none) (locked : LockKey → Bool) :
    exec (.createOutbox message) locked db =
      .ok ((), [.putOutbox message.id ⟨message.eventType, message.aggregateId, message.payload,
        message.createdAt, message.publishedAt⟩]) := by
  have hchecks : (⟨message.eventType, message.aggregateId, message.payload, message.createdAt,
      message.publishedAt⟩ : OutboxRow).violated = none := by
    simp [OutboxRow.violated, htype]
  simp only [exec, hchecks, checked_none, bind, Except.bind, if_pos hnew]

section Records

variable {scope key hash : String} {now : Date}

/-- A key that is taken is left as it is. -/
theorem exec_insertIdempotency_of_some {rec : IdempotencyRow}
    (hrec : db.idempotency.lookup key = some rec) (locked : LockKey → Bool) :
    exec (.insertIdempotency scope key hash now) locked db = .ok (false, []) := by
  simp only [exec, hrec]

/-- A free key is taken by a record in progress. -/
theorem exec_insertIdempotency_of_none (hscope : nonBlank scope = true)
    (hkey : nonBlank key = true) (hhash : nonBlank hash = true)
    (hnone : db.idempotency.lookup key = none) (locked : LockKey → Bool) :
    exec (.insertIdempotency scope key hash now) locked db =
      .ok (true, [.putIdempotency key ⟨scope, hash, none, none, none, now⟩]) := by
  have hchecks : (⟨scope, hash, none, none, none, now⟩ : IdempotencyRow).violated key = none := by
    simp [IdempotencyRow.violated, hscope, hkey, hhash]
  simp only [exec, hnone, hchecks, checked_none, bind, Except.bind]

/-- A record is completed with its response. -/
theorem exec_completeIdempotency {rec : IdempotencyRow} {responseStatus : ℕ}
    {responseBody : AcceptQuoteSuccessBody} {conversionId : String}
    (hrec : db.idempotency.lookup key = some rec) (hscope : nonBlank rec.scope = true)
    (hkey : nonBlank key = true) (hhash : nonBlank rec.requestHash = true)
    (locked : LockKey → Bool) :
    exec (.completeIdempotency rec.scope key responseStatus responseBody conversionId) locked db =
      .ok ((1 : ℕ), [.putIdempotency key
        { rec with
          responseStatus := some responseStatus
          responseBody := some responseBody
          conversionId := some conversionId }]) := by
  have hchecks : ({ rec with
      responseStatus := some responseStatus
      responseBody := some responseBody
      conversionId := some conversionId } : IdempotencyRow).violated key = none := by
    simp [IdempotencyRow.violated, hscope, hkey, hhash]
  simp only [exec, hrec, if_true, hchecks, checked_none, bind, Except.bind]

end Records

end Ledger

end WalletConversion
