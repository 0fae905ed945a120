import WalletConversion.Ledger.Statements

/-!
# What a statement writes

`exec_writes`: whatever the tables are, the writes of a statement that is not refused are the ones
its text names (`Stmt.Writes`), and every row it writes passes its checks (`Write.violated`).
-/

namespace WalletConversion

open Transactional

/-- The first constraint the row of a write breaks. -/
def Write.violated : Write → Option ConstraintName
  | .putWallet _ _ row => row.violated
  | .putQuote _ row => row.violated
  | .insertConversion _ row => row.violated
  | .updateConversion _ row => row.violated
  | .putOutbox _ row => row.violated
  | .putIdempotency key row => row.violated key
  | .deleteIdempotency _ => none
  | .putProcessed _ _ => none
  | .putExchange _ _ => none

/-- The writes a statement can make. -/
def Stmt.Writes : Stmt → Write → Prop
  | .upsertQuote data, .putQuote id _ => id = data.id
  | .acceptQuote id _ _, .putQuote id' _ => id' = id
  | .upsertConversion data, .insertConversion id row => id = data.id ∧ row.status = data.status
  | .upsertConversion data, .updateConversion id row => id = data.id ∧ row.status = data.status
  | .requestExecution id _, .updateConversion id' row =>
    id' = id ∧ row.status = .EXECUTION_REQUESTED
  | .createOutbox message, .putOutbox id _ => id = message.id
  | .markPublished id _, .putOutbox id' _ => id' = id
  | .insertIdempotency _ key _ _, .putIdempotency key' _ => key' = key
  | .completeIdempotency _ key _ _ _, .putIdempotency key' _ => key' = key
  | .deleteExpired _ _ _, .deleteIdempotency _ => True
  | .insertProcessed eventId _ _ _, .putProcessed eventId' _ => eventId' = eventId
  | .insertExchange data, .putExchange id _ => id = data.clientOrderId
  | .insertWallet _ userId asset, .putWallet userId' asset' _ => userId' = userId ∧ asset' = asset
  | .createWallet data, .putWallet userId asset _ => userId = data.userId ∧ asset = data.asset
  | .reserveWallet userId asset _, .putWallet userId' asset' _ => userId' = userId ∧ asset' = asset
  | .releaseWallet userId asset _, .putWallet userId' asset' _ => userId' = userId ∧ asset' = asset
  | .commitWallet userId asset _, .putWallet userId' asset' _ => userId' = userId ∧ asset' = asset
  | .creditWallet userId asset _, .putWallet userId' asset' _ => userId' = userId ∧ asset' = asset
  | _, _ => False

/-- The writes are those of the statement, and pass their checks. -/
def Proper (st : Stmt) (ws : List Write) : Prop := ∀ w ∈ ws, st.Writes w ∧ w.violated = none

namespace Ledger

theorem proper_nil (st : Stmt) : Proper st [] := fun _ hw ↦ by cases hw

theorem proper_singleton {st : Stmt} {w : Write} (hw : st.Writes w) (hv : w.violated = none) :
    Proper st [w] :=
  List.forall_mem_singleton.2 ⟨hw, hv⟩

theorem checked_eq_ok {violated : Option ConstraintName} {u : Unit}
    (h : checked violated = .ok u) : violated = none := by
  cases violated with
  | none => rfl
  | some name => cases h

/-- A row that was checked before it is written. -/
theorem proper_of_checked {st : Stmt} {violated : Option ConstraintName} {w : Write}
    {ws : List Write} {α : Type} {a r : α}
    (h : (checked violated >>= fun _ ↦ .ok (a, [w])) = .ok (r, ws)) (hw : st.Writes w)
    (hv : w.violated = violated) : Proper st ws := by
  obtain ⟨_, hchecked, h⟩ := except_bind_eq_ok.1 h
  cases h
  exact proper_singleton hw (hv.trans (checked_eq_ok hchecked))

theorem proper_of_updateWallet {st : Stmt} {db : Db} {userId asset : String}
    {guard : WalletRow → Bool} {set : WalletRow → Except DbError WalletRow} {r : Option WalletRow}
    {ws : List Write} (h : updateWallet db userId asset guard set = .ok (r, ws))
    (hw : ∀ row, st.Writes (.putWallet userId asset row)) : Proper st ws := by
  unfold updateWallet at h
  split at h
  · cases h
    exact proper_nil _
  · split at h
    · obtain ⟨row', -, h⟩ := except_bind_eq_ok.1 h
      exact proper_of_checked h (hw row') rfl
    · cases h
      exact proper_nil _

/-- **A statement that is not refused writes rows that pass their checks.** -/
theorem exec_writes {st : Stmt} {locked : LockKey → Bool} {db : Db} {r : st.Result}
    {ws : List Write} (h : exec st locked db = .ok (r, ws)) : Proper st ws := by
  cases st with
  | upsertQuote data =>
    simp only [exec] at h
    obtain ⟨_, -, h⟩ := except_bind_eq_ok.1 h
    split at h
    · exact proper_of_checked h rfl rfl
    · obtain ⟨_, -, h⟩ := except_bind_eq_ok.1 h
      obtain ⟨_, -, h⟩ := except_bind_eq_ok.1 h
      obtain ⟨_, -, h⟩ := except_bind_eq_ok.1 h
      exact proper_of_checked h rfl rfl
  | acceptQuote id acceptedAt now =>
    simp only [exec] at h
    split at h
    · cases h
      exact proper_nil _
    · split at h
      · exact proper_of_checked h rfl rfl
      · cases h
        exact proper_nil _
  | upsertConversion data =>
    simp only [exec] at h
    obtain ⟨_, -, h⟩ := except_bind_eq_ok.1 h
    split at h
    · exact proper_of_checked h ⟨rfl, rfl⟩ rfl
    · obtain ⟨_, -, h⟩ := except_bind_eq_ok.1 h
      obtain ⟨_, -, h⟩ := except_bind_eq_ok.1 h
      obtain ⟨_, hchecked, h⟩ := except_bind_eq_ok.1 h
      split at h
      · cases h
      · cases h
        exact proper_singleton ⟨rfl, rfl⟩ (checked_eq_ok hchecked)
  | requestExecution id eventId =>
    simp only [exec] at h
    split at h
    · cases h
      exact proper_nil _
    · split at h
      · exact proper_of_checked h ⟨rfl, rfl⟩ rfl
      · cases h
        exact proper_nil _
  | createOutbox message =>
    simp only [exec] at h
    obtain ⟨_, hchecked, h⟩ := except_bind_eq_ok.1 h
    split at h
    · cases h
      exact proper_singleton rfl (checked_eq_ok hchecked)
    · cases h
  | markPublished id publishedAt =>
    simp only [exec] at h
    split at h
    · split at h
      · exact proper_of_checked h rfl rfl
      · cases h
        exact proper_nil _
    · cases h
      exact proper_nil _
  | insertIdempotency scope key requestHash now =>
    simp only [exec] at h
    split at h
    · cases h
      exact proper_nil _
    · exact proper_of_checked h rfl rfl
  | completeIdempotency scope key responseStatus responseBody conversionId =>
    simp only [exec] at h
    split at h
    · cases h
      exact proper_nil _
    · split at h
      · exact proper_of_checked h rfl rfl
      · cases h
        exact proper_nil _
  | deleteExpired before limit place =>
    cases h
    intro w hw
    obtain ⟨key, -, rfl⟩ := List.mem_map.1 hw
    exact ⟨trivial, rfl⟩
  | insertProcessed eventId conversionId outcome now =>
    simp only [exec] at h
    split at h
    · cases h
      exact proper_nil _
    · cases h
      exact proper_singleton rfl rfl
  | insertExchange data =>
    simp only [exec] at h
    obtain ⟨_, -, h⟩ := except_bind_eq_ok.1 h
    obtain ⟨_, -, h⟩ := except_bind_eq_ok.1 h
    split at h
    · cases h
      exact proper_nil _
    · cases h
      exact proper_singleton rfl rfl
  | insertWallet id userId asset =>
    simp only [exec, assign_zero] at h
    split at h
    · cases h
    · split at h
      · cases h
        exact proper_nil _
      · simp only [bind, Except.bind] at h
        split at h
        · cases h
        · cases h
          exact proper_singleton ⟨rfl, rfl⟩ (emptyWallet_checks id)
  | createWallet data =>
    simp only [exec] at h
    obtain ⟨balance, -, h⟩ := except_bind_eq_ok.1 h
    obtain ⟨available, -, h⟩ := except_bind_eq_ok.1 h
    obtain ⟨reserved, -, h⟩ := except_bind_eq_ok.1 h
    split at h
    · cases h
    · obtain ⟨_, hchecks, h⟩ := except_bind_eq_ok.1 h
      split_ifs at h
      cases h
      exact proper_singleton ⟨rfl, rfl⟩ (checked_eq_ok hchecks)
  | reserveWallet userId asset amount | releaseWallet userId asset amount
  | commitWallet userId asset amount | creditWallet userId asset amount =>
    obtain ⟨_, -, h⟩ := except_bind_eq_ok.1 h
    exact proper_of_updateWallet h fun _ ↦ ⟨rfl, rfl⟩
  | findQuote | findConversion | findUnpublished | findIdempotency | existsProcessed
  | findExchange | findWallet =>
    cases h
    exact proper_nil _

end Ledger

end WalletConversion
