import WalletConversion.Ledger.Preservation
import WalletConversion.Ledger.Statements

/-!
# The contract of the use cases

`ledger` is what the calls of the application promise to each other: the invariant `Valid`, the
commits of `Commit`, and ids that no two calls generate. Its `demand` is what every statement must
meet when it is issued (`Disciplined`):

* **the database accepts it**: no constraint is violated, and nothing is refused but a quote that
  holds a `NUL` (`HoldsNul`) and a number out of range, of a quote that is created or of a credit
  (`OutOfRange`);
* **locks are taken in order**: an execution asks for its own locks only (`MayLock`), and a
  statement asks for locks of a higher rank than those its transaction holds, or for locks it holds
  already. The one exception is a successful settlement, which holds the wallet it pays from and
  asks for the wallet it pays into (`PaysInto`).

The remaining lemmas are the statement rules of the weakest precondition for this contract.
-/

namespace WalletConversion

open Transactional Relation

/-! ### Lock order -/

/-- The order in which transactions take locks. -/
def LockKey.rank : LockKey → ℕ
  | .idempotency _ | .processed _ | .exchange _ => 0
  | .quote _ => 1
  | .conversionId _ | .conversionQuote _ => 2
  | .wallet _ _ => 3
  | .conversion _ => 4
  | .outbox _ => 5

/-- No text of the request that is stored holds a `NUL`. -/
structure CreateQuoteCommand.Storable (command : CreateQuoteCommand) : Prop where
  user : storable command.userId = true
  source : storable command.sourceAsset = true
  target : storable command.targetAsset = true

namespace Ledger

/-- A settlement with outcome `SUCCESS` holds the source wallet of its conversion and asks for the
target wallet. -/
def PaysInto (t : Task) (db : Db) (held key : LockKey) : Prop :=
  ∃ payload inputs row x, t = .execute payload inputs ∧
    db.conversions.lookup payload.conversionId = some row ∧
    row.exchangeExecutionId = some payload.eventId ∧ row.status = .EXECUTION_REQUESTED ∧
    db.exchange.lookup payload.eventId = some x ∧ x.outcome = .SUCCESS ∧
    held = .wallet row.userId row.sourceAsset ∧ key = .wallet row.userId row.targetAsset

/-- The locks a task may ask for. An execution asks for its event, its conversion, and the two
wallets of the conversion. -/
def MayLock : Task → Db → LockKey → Prop
  | .execute payload _, db, key =>
    key = .processed payload.eventId ∨ key = .exchange payload.eventId ∨
    key = .conversion payload.conversionId ∨
    ∃ row, db.conversions.lookup payload.conversionId = some row ∧
      (key = .wallet row.userId row.sourceAsset ∨ key = .wallet row.userId row.targetAsset)
  | _, _, _ => True

/-- The locks of writes come in order after those of earlier writes. -/
def InOrder (t : Task) (db : Db) (vs ws : List Write) : Prop :=
  ∀ key ∈ postgres.keysOf ws, ∀ held ∈ postgres.keysOf vs,
    key ∈ postgres.keysOf vs ∨ held.rank < key.rank ∨ PaysInto t db held key

/-- The locks of writes may be taken after those of earlier writes. -/
structure Takes (t : Task) (db : Db) (vs ws : List Write) : Prop where
  allowed : ∀ key ∈ postgres.keysOf ws, MayLock t db key
  ordered : InOrder t db vs ws

theorem Takes.nil_right (t : Task) (db : Db) (vs : List Write) : Takes t db vs [] where
  allowed key hkey := by cases hkey
  ordered key hkey := by cases hkey

theorem Takes.nil_left {t : Task} {db : Db} {ws : List Write}
    (hallowed : ∀ key ∈ postgres.keysOf ws, MayLock t db key) : Takes t db [] ws where
  allowed := hallowed
  ordered key _ held hheld := by cases hheld

theorem Takes.of_lt {t : Task} {db : Db} {vs ws : List Write}
    (hallowed : ∀ key ∈ postgres.keysOf ws, MayLock t db key)
    (h : ∀ key ∈ postgres.keysOf ws, ∀ held ∈ postgres.keysOf vs, held.rank < key.rank) :
    Takes t db vs ws where
  allowed := hallowed
  ordered key hkey held hheld := Or.inr (Or.inl (h key hkey held hheld))

/-- The credit of a settlement would leave the range of its column. -/
def CreditOverflows (payload : ConversionExecutionRequestedPayload) (db : Db) : Prop :=
  ∃ row w, db.conversions.lookup payload.conversionId = some row ∧
    row.status = .EXECUTION_REQUESTED ∧
    db.wallets.lookup (row.userId, row.targetAsset) = some w ∧
    ¬ w.balance.1 + row.targetAmount.1 < 10 ^ 20

/-- The numbers for which the database refuses a statement of a task: a quote too large to be
stored, and a credit too large to be held. -/
def OutOfRange : Task → Db → Prop
  | .createQuote _ _ _, _ => True
  | .execute payload _, db => CreditOverflows payload db
  | _, _ => False

/-- The one task that stores texts of its own: a request for a quote, which may hold a `NUL`. -/
def HoldsNul : Task → Prop
  | .createQuote command _ _ => ¬ command.Storable
  | _ => False

/-- The only refusals of the database that a task meets. -/
def MayRefuse (t : Task) (db : Db) (e : DbError) : Prop :=
  (e = .numericOverflow ∧ OutOfRange t db) ∨ (e = .invalidText ∧ HoldsNul t)

/-- An execution stores no texts of its own. -/
theorem MayRefuse.outOfRange {payload : ConversionExecutionRequestedPayload}
    {inputs : ExecuteInputs}
    {db : Db} {e : DbError} (h : MayRefuse (.execute payload inputs) db e) :
    OutOfRange (.execute payload inputs) db := by
  rcases h with ⟨-, h⟩ | ⟨-, hnul⟩
  · exact h
  · cases hnul

/-- What every statement meets when it is issued. -/
structure Disciplined (t : Task) (o : Option (List Write)) (db : Db) (s : Stmt) : Prop where
  accepted : ∀ locked e, exec s locked (postgres.view db o) = .error e → MayRefuse t db e
  allowed : ∀ locked r ws, exec s locked (postgres.view db o) = .ok (r, ws) →
    ∀ key ∈ postgres.keysOf ws, MayLock t db key
  ordered : ∀ locked r ws, exec s locked (postgres.view db o) = .ok (r, ws) →
    ∀ vs, o = some vs → InOrder t db vs ws

/-! ### The contract -/

/-- **The contract of the use cases**, over runs in which the committed tables change as
`observed`. -/
def ledger (env : Platform) (opening : Table (String × String) WalletRow)
    (observed : Db → Db → Prop) : Contract postgres Task where
  inv := Valid env opening
  guar := Commit env
  compat t t' := t.generatedIds.Disjoint t'.generatedIds
  observed := observed
  demand := Disciplined

variable {env : Platform} {opening : Table (String × String) WalletRow}
  {observed : Db → Db → Prop} {t : Task} {held : List LockKey} {a b : Db}

/-! ### What interference leaves alone -/

section Rely

theorem evolves_of_rely (h : (ledger env opening observed).Rely t held a b) : Evolves a b :=
  h.lift Evolves .refl (fun _ _ _ ↦ .trans) fun _ _ _ _ _ _ hcommit _ ↦ hcommit.evolves

theorem observed_of_rely (h : (ledger env opening observed).Rely t held a b) :
    ReflTransGen observed a b :=
  h.lift (ReflTransGen observed) (fun _ ↦ .refl) (fun _ _ _ ↦ .trans)
    fun _ _ _ _ _ _ _ hobs ↦ .single hobs

private theorem lookup_insert_none {V : Type} {table : Table String V} {id k : String} {v : V}
    (h : table.lookup id = none) (hne : id ≠ k) : (table.insert k v).lookup id = none := by
  rwa [Finmap.lookup_insert_of_ne _ hne]

/-- A commit of another call uses none of the ids this call generates. -/
theorem fresh_of_commit {t' : Task} (hcommit : Commit env t' a b)
    (hdisjoint : t.generatedIds.Disjoint t'.generatedIds) (h : t.Fresh a) : t.Fresh b := by
  cases t with
  | createQuote command generatedId now =>
    cases hcommit with
    | quoteCreated =>
      exact lookup_insert_none h (by simpa [Task.generatedIds, eq_comm] using hdisjoint)
    | accepted _ _ lookup =>
      refine lookup_insert_none h fun heq ↦ ?_
      rw [← heq, h] at lookup
      cases lookup
    | _ => exact h
  | acceptQuote command inputs =>
    cases hcommit with
    | accepted =>
      simp only [Task.generatedIds, List.disjoint_cons_left, List.mem_cons, List.not_mem_nil,
        or_false, not_or] at hdisjoint
      exact ⟨lookup_insert_none h.1 hdisjoint.1.1, lookup_insert_none h.2 hdisjoint.2.1.2⟩
    | executionRequested lookup =>
      refine ⟨lookup_insert_none h.1 fun heq ↦ ?_, h.2⟩
      rw [← heq, h.1] at lookup
      cases lookup
    | completed settles | failed settles | reconciling settles =>
      refine ⟨lookup_insert_none h.1 fun heq ↦ ?_, h.2⟩
      have := settles.lookup
      rw [← heq, h.1] at this
      cases this
    | published lookup =>
      refine ⟨h.1, lookup_insert_none h.2 fun heq ↦ ?_⟩
      rw [← heq, h.2] at lookup
      cases lookup
    | _ => exact h
  | execute payload inputs =>
    -- a wallet row keeps its id, and a new one has an id of the call that opened it
    have hupdate : ∀ {table : Table (String × String) WalletRow} {k w},
        (∀ key row, table.lookup key = some row → row.id ≠ inputs.walletId.value) →
        w.id ≠ inputs.walletId.value → ∀ key row, (table.insert k w).lookup key = some row →
        row.id ≠ inputs.walletId.value := by
      intro table k w htable hw key row hrow
      rcases Table.lookup_insert_cases hrow with ⟨-, rfl⟩ | ⟨-, hrow⟩
      · exact hw
      · exact htable key row hrow
    cases hcommit with
    | accepted _ _ _ _ _ _ _ _ wallet reserves =>
      exact hupdate h (by rw [reserves.id_eq]; exact h _ _ wallet)
    | @completed payload' inputs' _ c row w w' v v' settles source commits checks target credits =>
      refine hupdate (hupdate h (by rw [commits.id_eq]; exact h _ _ source)) ?_
      rw [credits.id_eq]
      rcases target with ht | ⟨-, hid, -⟩
      · exact h _ _ ht
      · rw [hid]
        simpa [Task.generatedIds, eq_comm] using hdisjoint
    | failed _ source releases =>
      exact hupdate h (by rw [releases.id_eq]; exact h _ _ source)
    | _ => exact h
  | markPublished => trivial
  | cleanup => trivial

theorem fresh_of_rely (h : (ledger env opening observed).Rely t held a b) (hfresh : t.Fresh a) :
    t.Fresh b :=
  h.lift (fun a b ↦ t.Fresh a → t.Fresh b) (fun _ ↦ id) (fun _ _ _ h h' ↦ h' ∘ h)
    (fun _ _ _ hdisjoint _ _ hcommit _ ↦ fresh_of_commit hcommit hdisjoint) hfresh

end Rely

/-! ### Statement rules -/

section Rules

variable {α : Type} {s : Stmt} {k : s.Result → App α}
  {Q : Except Thrown α → Option (List Write) → List Write → Db → Prop} {vs d : List Write} {db : Db}

/-- A statement inside a transaction, which may be refused. -/
theorem wp_statement_or_refused
    (h : ∀ db', (ledger env opening observed).Rely t (postgres.keysOf vs) db db' →
      Valid env opening db' →
      (∃ e, MayRefuse t db' e ∧ ∀ locked, exec s locked (postgres.applyAll db' vs) = .error e) ∨
      ∃ r ws, (∀ locked, exec s locked (postgres.applyAll db' vs) = .ok (r, ws)) ∧
        Takes t db' vs ws ∧ (ledger env opening observed).wp t (k r) Q (some (vs ++ ws)) d db') :
    (ledger env opening observed).wp t (.call s k) Q (some vs) d db := by
  refine Contract.wp_call_some fun db' hr hi ↦ ?_
  rcases h db' hr hi with ⟨e, hrefuse, herror⟩ | ⟨r, ws, hok, htakes, hk⟩
  · refine ⟨⟨fun locked e' he ↦ ?_, fun locked r ws hx ↦ ?_, fun locked r ws hx ↦ ?_⟩,
      fun locked r ws hx ↦ ?_⟩
    · rw [postgres.view_some, herror locked] at he
      cases he
      exact hrefuse
    · rw [postgres.view_some, herror locked] at hx
      cases hx
    · rw [postgres.view_some, herror locked] at hx
      cases hx
    · have hx' : exec s locked (postgres.applyAll db' vs) = .ok (r, ws) := hx
      rw [herror locked] at hx'
      cases hx'
  · refine ⟨⟨fun locked e he ↦ ?_, fun locked r' ws' hx ↦ ?_, fun locked r' ws' hx us hus ↦ ?_⟩,
      fun locked r' ws' hx ↦ ?_⟩
    · rw [postgres.view_some, hok locked] at he
      cases he
    · rw [postgres.view_some, hok locked] at hx
      cases hx
      exact htakes.allowed
    · rw [postgres.view_some, hok locked] at hx
      cases hx
      cases hus
      exact htakes.ordered
    · have hx' : exec s locked (postgres.applyAll db' vs) = .ok (r', ws') := hx
      rw [hok locked] at hx'
      cases hx'
      exact hk

/-- A statement inside a transaction. -/
theorem wp_statement
    (h : ∀ db', (ledger env opening observed).Rely t (postgres.keysOf vs) db db' →
      Valid env opening db' →
      ∃ r ws, (∀ locked, exec s locked (postgres.applyAll db' vs) = .ok (r, ws)) ∧
        Takes t db' vs ws ∧ (ledger env opening observed).wp t (k r) Q (some (vs ++ ws)) d db') :
    (ledger env opening observed).wp t (.call s k) Q (some vs) d db :=
  wp_statement_or_refused fun db' hr hi ↦ Or.inr (h db' hr hi)

/-- A statement inside a transaction that only reads. -/
theorem wp_read
    (h : ∀ db', (ledger env opening observed).Rely t (postgres.keysOf vs) db db' →
      Valid env opening db' →
      ∃ r, (∀ locked, exec s locked (postgres.applyAll db' vs) = .ok (r, [])) ∧
        (ledger env opening observed).wp t (k r) Q (some vs) d db') :
    (ledger env opening observed).wp t (.call s k) Q (some vs) d db := by
  refine wp_statement fun db' hr hi ↦ ?_
  obtain ⟨r, hx, hk⟩ := h db' hr hi
  exact ⟨r, [], hx, .nil_right _ _ _, by rwa [List.append_nil]⟩

/-- A statement outside a transaction, which may be refused. -/
theorem wp_autocommit_or_refused
    (h : ∀ db', (ledger env opening observed).Rely t [] db db' → Valid env opening db' →
      (∃ e, MayRefuse t db' e ∧ ∀ locked, exec s locked db' = .error e) ∨
      ∃ r ws, (∀ locked, exec s locked db' = .ok (r, ws)) ∧
        (∀ key ∈ postgres.keysOf ws, MayLock t db' key) ∧
          Commit env t db' (postgres.applyAll db' ws) ∧
        (observed db' (postgres.applyAll db' ws) → (ledger env opening observed).wp t (k r) Q none
          (d ++ ws) (postgres.applyAll db' ws))) :
    (ledger env opening observed).wp t (.call s k) Q none d db := by
  refine Contract.wp_call_none fun db' hr hi ↦ ?_
  rcases h db' hr hi with ⟨e, hrefuse, herror⟩ | ⟨r, ws, hok, hallowed, hcommit, hk⟩
  · refine ⟨⟨fun locked e' he ↦ ?_, fun locked r ws hx ↦ ?_, fun _ _ _ _ us hus ↦ ?_⟩,
      fun locked r ws hx ↦ ?_⟩
    · rw [postgres.view_none, herror locked] at he
      cases he
      exact hrefuse
    · rw [postgres.view_none, herror locked] at hx
      cases hx
    · cases hus
    · have hx' : exec s locked db' = .ok (r, ws) := hx
      rw [herror locked] at hx'
      cases hx'
  · refine ⟨⟨fun locked e he ↦ ?_, fun locked r' ws' hx ↦ ?_, fun _ _ _ _ us hus ↦ ?_⟩,
      fun locked r' ws' hx ↦ ?_⟩
    · rw [postgres.view_none, hok locked] at he
      cases he
    · rw [postgres.view_none, hok locked] at hx
      cases hx
      exact hallowed
    · cases hus
    · have hx' : exec s locked db' = .ok (r', ws') := hx
      rw [hok locked] at hx'
      cases hx'
      exact fun hobs ↦ ⟨⟨hi.of_commit hcommit, hcommit⟩, hk hobs⟩

/-- A statement outside a transaction. -/
theorem wp_autocommit
    (h : ∀ db', (ledger env opening observed).Rely t [] db db' → Valid env opening db' →
      ∃ r ws, (∀ locked, exec s locked db' = .ok (r, ws)) ∧
        (∀ key ∈ postgres.keysOf ws, MayLock t db' key) ∧
          Commit env t db' (postgres.applyAll db' ws) ∧
        (observed db' (postgres.applyAll db' ws) → (ledger env opening observed).wp t (k r) Q none
          (d ++ ws) (postgres.applyAll db' ws))) :
    (ledger env opening observed).wp t (.call s k) Q none d db :=
  wp_autocommit_or_refused fun db' hr hi ↦ Or.inr (h db' hr hi)

/-- A statement outside a transaction that only reads. -/
theorem wp_autocommit_read
    (h : ∀ db', (ledger env opening observed).Rely t [] db db' → Valid env opening db' →
      ∃ r, (∀ locked, exec s locked db' = .ok (r, [])) ∧
        (observed db' db' → (ledger env opening observed).wp t (k r) Q none d db')) :
    (ledger env opening observed).wp t (.call s k) Q none d db := by
  refine wp_autocommit fun db' hr hi ↦ ?_
  obtain ⟨r, hx, hk⟩ := h db' hr hi
  exact ⟨r, [], hx, (by simp), .idle _ _, fun hobs ↦ by
    rw [List.append_nil]
    exact hk hobs⟩

end Rules

end Ledger

end WalletConversion
