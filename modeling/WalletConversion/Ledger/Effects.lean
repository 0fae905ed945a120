import WalletConversion.Ledger.Writes

/-!
# What a statement has done

The lemmas on valid rows say when a statement succeeds. Here the tables are arbitrary and the
statement has succeeded: each lemma reads off what it found and what it wrote. The same is said of
the steps that a conversion takes in memory.
-/

namespace WalletConversion

open DecimalNotation

namespace Ledger

variable {db : Db} {locked : LockKey → Bool} {ws : List Write}

/-! ### Statements of an accept -/

/-- The insert of a key wins or changes nothing. -/
theorem insertIdempotency_ok {scope key requestHash : String} {now : Date} {won : Bool}
    (h : exec (.insertIdempotency scope key requestHash now) locked db = .ok (won, ws)) :
    (won = false ∧ ws = []) ∨ (won = true ∧ db.idempotency.lookup key = none ∧
      ws = [.putIdempotency key ⟨scope, requestHash, none, none, none, now⟩]) := by
  simp only [exec] at h
  split at h
  · cases h
    exact .inl ⟨rfl, rfl⟩
  · rename_i hnone
    obtain ⟨_, -, h⟩ := except_bind_eq_ok.1 h
    cases h
    exact .inr ⟨rfl, hnone, rfl⟩

/-- Accepting a quote changes an active quote that has not expired, or nothing. -/
theorem acceptQuote_ok {id : String} {acceptedAt now : Date} {x : Option QuoteRow}
    (h : exec (.acceptQuote id acceptedAt now) locked db = .ok (x, ws)) :
    (x = none ∧ ws = []) ∨ ∃ row, db.quotes.lookup id = some row ∧ row.status = .ACTIVE ∧
      now.getTime ≤ row.expiresAt.getTime ∧
      x = some { row with status := .ACCEPTED, acceptedAt := some acceptedAt } ∧
      ws = [.putQuote id { row with status := .ACCEPTED, acceptedAt := some acceptedAt }] := by
  simp only [exec] at h
  split at h
  · cases h
    exact .inl ⟨rfl, rfl⟩
  · rename_i row hrow
    split at h
    · rename_i hguard
      obtain ⟨_, -, h⟩ := except_bind_eq_ok.1 h
      cases h
      exact .inr ⟨row, hrow, hguard.1, hguard.2, rfl, rfl⟩
    · cases h
      exact .inl ⟨rfl, rfl⟩

/-- A conversion with a new id is inserted. -/
theorem upsertConversion_new {data : ConversionData} {u : Unit}
    (hnone : db.conversions.lookup data.id = none)
    (h : exec (.upsertConversion data) locked db = .ok (u, ws)) :
    storing data.texts = .ok () ∧ ∃ source target, column data.sourceAmount = .ok source ∧
      column data.targetAmount = .ok target ∧ ws = [.insertConversion data.id
        { quoteId := data.quoteId
          userId := data.userId
          sourceAsset := data.sourceAsset
          targetAsset := data.targetAsset
          sourceAmount := source
          targetAmount := target
          status := data.status
          exchangeExecutionId := data.exchangeExecutionId
          failureReason := data.failureReason
          createdAt := data.createdAt
          completedAt := data.completedAt }] := by
  simp only [exec, hnone] at h
  obtain ⟨_, hstoring, h⟩ := except_bind_eq_ok.1 h
  obtain ⟨source, hsource, h⟩ := except_bind_eq_ok.1 h
  obtain ⟨target, htarget, h⟩ := except_bind_eq_ok.1 h
  obtain ⟨_, -, h⟩ := except_bind_eq_ok.1 h
  split at h
  · cases h
  · cases h
    exact ⟨hstoring, source, target, hsource, htarget, rfl⟩

/-- An existing conversion gets the columns of its lifecycle, and its event. -/
theorem upsertConversion_old {data : ConversionData} {u : Unit} {row : ConversionRow}
    (hrow : db.conversions.lookup data.id = some row)
    (h : exec (.upsertConversion data) locked db = .ok (u, ws)) :
    ws = [.updateConversion data.id
      { row with
        status := data.status
        exchangeExecutionId := data.exchangeExecutionId
        failureReason := data.failureReason
        completedAt := data.completedAt }] := by
  simp only [exec, hrow] at h
  obtain ⟨_, -, h⟩ := except_bind_eq_ok.1 h
  obtain ⟨_, -, h⟩ := except_bind_eq_ok.1 h
  cases h
  rfl

/-- A stored event is new and unpublished. -/
theorem createOutbox_ok {message : OutboxMessage} {u : Unit}
    (h : exec (.createOutbox message) locked db = .ok (u, ws)) :
    db.outbox.lookup message.id = none ∧ ws = [.putOutbox message.id
      ⟨message.eventType, message.aggregateId, message.payload, message.createdAt,
        message.publishedAt⟩] := by
  simp only [exec] at h
  obtain ⟨_, -, h⟩ := except_bind_eq_ok.1 h
  split at h
  · rename_i hnone
    cases h
    exact ⟨hnone, rfl⟩
  · cases h

/-- Completing a record writes the response. -/
theorem completeIdempotency_ok {scope key conversionId : String} {responseStatus : ℕ}
    {responseBody : AcceptQuoteSuccessBody} {count : ℕ} {row : IdempotencyRow}
    (hrow : db.idempotency.lookup key = some row)
    (h : exec (.completeIdempotency scope key responseStatus responseBody conversionId) locked db =
      .ok (count, ws)) :
    count = 0 ∨ (count = 1 ∧ ws = [.putIdempotency key
      { row with
        responseStatus := some responseStatus
        responseBody := some responseBody
        conversionId := some conversionId }]) := by
  simp only [exec, hrow] at h
  split at h
  · obtain ⟨_, -, h⟩ := except_bind_eq_ok.1 h
    cases h
    exact .inr ⟨rfl, rfl⟩
  · cases h
    exact .inl rfl

/-- A reservation that updated a row found enough and moved the amount. -/
theorem reserveWallet_ok {userId asset : String} {m : Money} (hscale : m.asset.scale ≤ 18)
    {w' : WalletRow}
    (h : exec (.reserveWallet userId asset m.toString) locked db = .ok (some w', ws)) :
    ∃ w, db.wallets.lookup (userId, asset) = some w ∧ m.amount ≤ w.available.1 ∧
      Reserves m.amount w w' ∧ ws = [.putWallet userId asset w'] := by
  simp only [exec, number_toString, bind, Except.bind, updateWallet] at h
  split at h
  · cases h
  · rename_i w hw
    split at h
    · rename_i hguard
      obtain ⟨_, hset, h⟩ := except_bind_eq_ok.1 h
      obtain ⟨_, -, h⟩ := except_bind_eq_ok.1 h
      cases h
      obtain ⟨available, havailable, hset⟩ := except_bind_eq_ok.1 hset
      obtain ⟨reserved, hreserved, hset⟩ := except_bind_eq_ok.1 hset
      cases hset
      have hfixed : IsFixed 18 m.amount := m.fixed.mono hscale
      exact ⟨w, hw, by simpa using hguard,
        { id_eq := rfl
          balance_eq := rfl
          available_eq := assign_eq_ok (w.available.2.1.sub hfixed) havailable
          reserved_eq := assign_eq_ok (w.reserved.2.1.add hfixed) hreserved }, rfl⟩
    · cases h

/-! ### The statement that requests an execution -/

/-- The request moves a conversion that holds its reservation, or nothing. -/
theorem requestExecution_ok {id eventId : String} {x : Option ConversionRow}
    (h : exec (.requestExecution id eventId) locked db = .ok (x, ws)) :
    (x = none ∧ ws = []) ∨ ∃ row, db.conversions.lookup id = some row ∧
      row.status = .FUNDS_RESERVED ∧ row.exchangeExecutionId = some eventId ∧
      x = some { row with status := .EXECUTION_REQUESTED } ∧
      ws = [.updateConversion id { row with status := .EXECUTION_REQUESTED }] := by
  simp only [exec] at h
  split at h
  · cases h
    exact .inl ⟨rfl, rfl⟩
  · rename_i row hrow
    split at h
    · rename_i hguard
      obtain ⟨_, -, h⟩ := except_bind_eq_ok.1 h
      cases h
      exact .inr ⟨row, hrow, hguard.1, hguard.2, rfl, rfl⟩
    · cases h
      exact .inl ⟨rfl, rfl⟩

/-! ### Steps of a conversion -/

theorem markFundsReserved_id {c c' : Conversion}
    (h : Conversion.markFundsReserved.call c = .ok c') :
    c'.id = c.id := by
  by_cases hs : c.status = .CREATED
  · simp [Conversion.markFundsReserved, Mutation.call, Mutation.bind_apply, hs] at h
    rw [← h]
  · simp [Conversion.markFundsReserved, Mutation.call, Mutation.bind_apply, hs] at h

theorem bindExecutionEvent_id {eventId : String} {c c' : Conversion}
    (h : (Conversion.bindExecutionEvent eventId).call c = .ok c') : c'.id = c.id := by
  simp only [Conversion.bindExecutionEvent, Mutation.call, Mutation.bind_apply,
    Mutation.throwIf_apply, Mutation.assign_apply] at h
  by_cases hs : c.status ≠ .FUNDS_RESERVED
  · simp [hs] at h
  by_cases hempty : trim eventId = ""
  · simp [hs, hempty] at h
  by_cases hbound : c.exchangeExecutionId ≠ none ∧ c.exchangeExecutionId ≠ some eventId
  · simp [hs, hempty, hbound] at h
  rw [if_neg hs, if_neg hempty] at h
  dsimp only at h
  rw [if_neg hbound] at h
  cases h
  rfl

/-- A new conversion has the id it was given. -/
theorem create_id {id : ConversionId} {quoteId : QuoteId} {userId : UserId} {source target : Money}
    {at' : Date} {c : Conversion}
    (h : Conversion.create id quoteId userId source target at' = .ok c) :
    c.id = id := by
  simp only [Conversion.create, Conversion.new] at h
  split_ifs at h
  cases h
  rfl

/-- A report changes neither the id nor the event of a conversion. -/
theorem applyExecutionResult_ok {outcome : ExecutionOutcome} {now : Date} {reason : Option String}
    {c c' : Conversion} (h : (Conversion.applyExecutionResult outcome now reason).call c = .ok c') :
    c'.id = c.id ∧ c'.exchangeExecutionId = c.exchangeExecutionId := by
  cases hs : c.status <;> cases outcome <;>
    simp [Mutation.call, Conversion.applyExecutionResult, hs] at h <;> subst h <;> exact ⟨rfl, rfl⟩

/-- The result of an execution is applied after it was requested. -/
theorem applyExecutionResult_status {outcome : ExecutionOutcome} {now : Date}
    {reason : Option String} {c c' : Conversion}
    (h : (Conversion.applyExecutionResult outcome now reason).call c = .ok c') :
    c'.status ≠ .FUNDS_RESERVED := by
  cases hs : c.status <;> cases outcome <;>
    simp [Mutation.call, Conversion.applyExecutionResult, hs] at h <;> subst h <;>
    simp [Conversion.completed, Conversion.failed, Conversion.reconciling, hs]

/-- A request binds the event it is made with. -/
theorem markExecutionRequested_ok {e : String} {c c' : Conversion}
    (h : (Conversion.markExecutionRequested e).call c = .ok c') :
    c'.id = c.id ∧ c'.exchangeExecutionId = some e := by
  simp only [Conversion.markExecutionRequested, Mutation.call, Mutation.bind_apply,
    Mutation.throwIf_apply, Mutation.assign_apply] at h
  by_cases hstatus : c.status ≠ .FUNDS_RESERVED
  · simp [hstatus] at h
  by_cases hempty : trim e = ""
  · simp [hstatus, hempty] at h
  by_cases hbound : c.exchangeExecutionId ≠ none ∧ c.exchangeExecutionId ≠ some e
  · simp [hstatus, hempty, hbound] at h
  rw [if_neg hstatus, if_neg hempty] at h
  dsimp only at h
  rw [if_neg hbound] at h
  cases h
  exact ⟨rfl, rfl⟩

end Ledger

end WalletConversion
