import WalletConversion.Conversion.Conversion
import WalletConversion.Foundation.FiniteTable
import WalletConversion.Pricing.Quote
import Mathlib.Tactic.Tauto

/-!
# The database schema

The seven tables, their column types and their constraints. A table is a finite map from its key to
the rest of the row. Columns nothing in the model reads (`updated_at` and the like) are left out.

`Numeric` is `NUMERIC(38,18)`: a number with at most 18 decimals below `10 ^ 20`. Storing rounds
half away from zero to 18 decimals and refuses what is too large.

The `CHECK` constraints are decidable predicates on rows; each row type has one `violated` function
that names the first constraint a row breaks. PostgreSQL checks them in the order of their names.
-/

namespace WalletConversion

open DecimalNotation

/-! ### Column types -/

/-- `NUMERIC(38,18)`. -/
abbrev Numeric := { q : ℚ // IsFixed 18 q ∧ |q| < 10 ^ 20 }

namespace Numeric

/-- Store a number in the column. -/
def store (q : ℚ) : Option Numeric :=
  let r : ℚ := roundHalfAway (q * 10 ^ 18) / 10 ^ 18
  if h : |r| < 10 ^ 20 then some ⟨r, ⟨_, rfl⟩, h⟩ else none

/-- **A number with at most 18 decimals is stored as it is**, or not at all. -/
theorem store_of_isFixed {q : ℚ} (h : IsFixed 18 q) :
    store q = if hlt : |q| < 10 ^ 20 then some ⟨q, h, hlt⟩ else none := by
  obtain ⟨n, hn⟩ := h
  have hround : (roundHalfAway (q * 10 ^ 18) : ℚ) / 10 ^ 18 = q := by
    rw [hn, div_mul_cancel₀ _ (by positivity), roundHalfAway_intCast]
  unfold store
  by_cases hlt : |q| < 10 ^ 20
  · rw [dif_pos hlt, dif_pos (by rwa [hround])]
    exact congrArg some (Subtype.ext hround)
  · rw [dif_neg hlt, dif_neg (by rwa [hround])]

end Numeric

/-- `length(btrim(text)) > 0`. -/
def nonBlank (text : String) : Bool := text.toList.any (· ≠ ' ')

/-! ### Errors of the database -/

/-- The named constraints. -/
inductive ConstraintName where
  | wallet_accounts_pkey
  | wallet_accounts_user_id_asset_key
  | wallet_accounts_non_negative_check
  | wallet_accounts_balance_invariant_check
  | wallet_accounts_asset_nonempty_check
  | quotes_positive_values_check
  | quotes_distinct_assets_check
  | quotes_lifecycle_check
  | quotes_expiry_check
  | conversions_quote_id_key
  | conversions_positive_amounts_check
  | conversions_distinct_assets_check
  | conversions_lifecycle_check
  | outbox_messages_pkey
  | outbox_messages_event_type_check
  | idempotency_records_nonempty_check
  | idempotency_records_response_consistency_check
  deriving DecidableEq

/-- Why the database refuses a statement. -/
inductive DbError where
  /-- A `CHECK`, `UNIQUE` or primary key constraint is violated. -/
  | constraint (name : ConstraintName)
  /-- A value does not fit `NUMERIC(38,18)`. -/
  | numericOverflow
  /-- A text is no number. -/
  | invalidNumber
  /-- A text holds a `NUL`. -/
  | invalidText
  deriving DecidableEq

/-! ### Rows -/

/-- `wallet_accounts`, by user and asset. -/
@[ext] structure WalletRow where
  id : String
  balance : Numeric
  available : Numeric
  reserved : Numeric
  deriving DecidableEq

/-- The first `CHECK` the row breaks. -/
def WalletRow.violated (row : WalletRow) : Option ConstraintName :=
  if ¬ row.available.1 + row.reserved.1 = row.balance.1 then
    some .wallet_accounts_balance_invariant_check
  else if ¬ (0 ≤ row.balance.1 ∧ 0 ≤ row.available.1 ∧ 0 ≤ row.reserved.1) then
    some .wallet_accounts_non_negative_check
  else none

theorem WalletRow.violated_eq_none {row : WalletRow} : row.violated = none ↔
    (0 ≤ row.balance.1 ∧ 0 ≤ row.available.1 ∧ 0 ≤ row.reserved.1) ∧
      row.available.1 + row.reserved.1 = row.balance.1 := by
  unfold WalletRow.violated
  split_ifs with h₁ h₂ <;> tauto

/-- `quotes`, by id. -/
@[ext] structure QuoteRow where
  userId : String
  sourceAsset : String
  targetAsset : String
  sourceAmount : Numeric
  targetAmount : Numeric
  rate : Numeric
  status : QuoteStatus
  createdAt : Date
  expiresAt : Date
  acceptedAt : Option Date
  deriving DecidableEq

/-- The first `CHECK` the row breaks. -/
def QuoteRow.violated (row : QuoteRow) : Option ConstraintName :=
  if ¬ row.sourceAsset ≠ row.targetAsset then
    some .quotes_distinct_assets_check
  else if ¬ row.createdAt.getTime < row.expiresAt.getTime then
    some .quotes_expiry_check
  else if ¬ ((row.status = .ACTIVE ∧ row.acceptedAt = none) ∨
      (row.status = .ACCEPTED ∧ row.acceptedAt ≠ none)) then
    some .quotes_lifecycle_check
  else if ¬ (0 < row.sourceAmount.1 ∧ 0 < row.targetAmount.1 ∧ 0 < row.rate.1) then
    some .quotes_positive_values_check
  else none

theorem QuoteRow.violated_eq_none {row : QuoteRow} : row.violated = none ↔
    (0 < row.sourceAmount.1 ∧ 0 < row.targetAmount.1 ∧ 0 < row.rate.1) ∧
      row.sourceAsset ≠ row.targetAsset ∧
      ((row.status = .ACTIVE ∧ row.acceptedAt = none) ∨
        (row.status = .ACCEPTED ∧ row.acceptedAt ≠ none)) ∧
      row.createdAt.getTime < row.expiresAt.getTime := by
  unfold QuoteRow.violated
  split_ifs with h₁ h₂ h₃ h₄ <;> tauto

/-- `conversions`, by id. -/
@[ext] structure ConversionRow where
  quoteId : String
  userId : String
  sourceAsset : String
  targetAsset : String
  sourceAmount : Numeric
  targetAmount : Numeric
  status : ConversionStatus
  exchangeExecutionId : Option String
  failureReason : Option String
  createdAt : Date
  completedAt : Option Date
  deriving DecidableEq

/-- `conversions_lifecycle_check`. -/
def ConversionRow.lifecycle (row : ConversionRow) : Prop :=
  (row.status = .CREATED ∧ row.exchangeExecutionId = none ∧ row.completedAt = none ∧
    row.failureReason = none) ∨
  ((row.status = .FUNDS_RESERVED ∨ row.status = .EXECUTION_REQUESTED) ∧
    row.exchangeExecutionId ≠ none ∧ row.completedAt = none ∧ row.failureReason = none) ∨
  (row.status = .COMPLETED ∧ row.exchangeExecutionId ≠ none ∧ row.completedAt ≠ none ∧
    row.failureReason = none) ∨
  (row.status = .FAILED ∧ row.exchangeExecutionId ≠ none ∧ row.completedAt ≠ none ∧
    row.failureReason ≠ none) ∨
  (row.status = .REQUIRES_RECONCILIATION ∧ row.exchangeExecutionId ≠ none ∧
    row.completedAt = none ∧ row.failureReason ≠ none)

instance (row : ConversionRow) : Decidable row.lifecycle := by
  unfold ConversionRow.lifecycle
  infer_instance

/-- The first `CHECK` the row breaks. -/
def ConversionRow.violated (row : ConversionRow) : Option ConstraintName :=
  if ¬ row.sourceAsset ≠ row.targetAsset then
    some .conversions_distinct_assets_check
  else if ¬ row.lifecycle then some .conversions_lifecycle_check
  else if ¬ (0 < row.sourceAmount.1 ∧ 0 < row.targetAmount.1) then
    some .conversions_positive_amounts_check
  else none

theorem ConversionRow.violated_eq_none {row : ConversionRow} : row.violated = none ↔
    (0 < row.sourceAmount.1 ∧ 0 < row.targetAmount.1) ∧ row.sourceAsset ≠ row.targetAsset ∧
      row.lifecycle := by
  unfold ConversionRow.violated
  split_ifs with h₁ h₂ h₃ <;> tauto

/-- `outbox_messages`, by id. -/
@[ext] structure OutboxRow where
  eventType : String
  aggregateId : String
  payload : ConversionExecutionRequestedPayload
  createdAt : Date
  publishedAt : Option Date
  deriving DecidableEq

/-- The first `CHECK` the row breaks. -/
def OutboxRow.violated (row : OutboxRow) : Option ConstraintName :=
  if ¬ row.eventType = "ConversionExecutionRequested" then
    some .outbox_messages_event_type_check
  else none

/-- The body of a successful accept, as it is answered and as it is stored for replays. -/
@[ext] structure AcceptQuoteSuccessBody where
  conversionId : String
  quoteId : String
  userId : String
  status : String
  sourceAsset : String
  targetAsset : String
  sourceAmount : String
  targetAmount : String
  createdAt : String
  deriving DecidableEq

/-- `idempotency_records`, by idempotency key. -/
@[ext] structure IdempotencyRow where
  scope : String
  requestHash : String
  responseStatus : Option ℕ
  responseBody : Option AcceptQuoteSuccessBody
  conversionId : Option String
  createdAt : Date
  deriving DecidableEq

/-- The first `CHECK` the row breaks. -/
def IdempotencyRow.violated (key : String) (row : IdempotencyRow) : Option ConstraintName :=
  if ¬ (nonBlank row.scope ∧ nonBlank key ∧ nonBlank row.requestHash) then
    some .idempotency_records_nonempty_check
  else if ¬ ((row.responseStatus = none ∧ row.responseBody = none ∧ row.conversionId = none) ∨
      (row.responseStatus ≠ none ∧ row.responseBody ≠ none ∧ row.conversionId ≠ none)) then
    some .idempotency_records_response_consistency_check
  else none

/-- `processed_messages`, by event id. The type of the outcome is its `CHECK`. -/
@[ext] structure ProcessedRow where
  conversionId : String
  outcome : ExecutionOutcome
  processedAt : Date
  deriving DecidableEq

/-- `fake_exchange_executions`, by client order id. The type of the outcome is its `CHECK`. -/
@[ext] structure ExchangeRow where
  conversionId : String
  userId : String
  sourceAsset : String
  targetAsset : String
  sourceAmount : Numeric
  targetAmount : Numeric
  outcome : ExecutionOutcome
  reason : Option String
  externalReference : String
  deriving DecidableEq

/-! ### The database -/

/-- All tables. -/
@[ext] structure Db where
  wallets : Table (String × String) WalletRow
  quotes : Table String QuoteRow
  conversions : Table String ConversionRow
  outbox : Table String OutboxRow
  idempotency : Table String IdempotencyRow
  processed : Table String ProcessedRow
  exchange : Table String ExchangeRow

/-- No quotes, conversions, messages or records; only wallets. -/
def Db.ofWallets (wallets : Table (String × String) WalletRow) : Db :=
  ⟨wallets, ∅, ∅, ∅, ∅, ∅, ∅⟩

/-- What the application uses of its platform, beyond the language itself: the asset registry, how
the driver writes a `NUMERIC` it read, the hash of `crypto`, and which texts `new Date` parses. -/
structure Platform extends DecimalJs where
  registry : Registry
  /-- `String(decimal)` of a column value. -/
  numericText : Numeric → String
  /-- The text of a nonnegative column value is a decimal literal for it, in whichever notation. -/
  denotes_numericText : ∀ n : Numeric, 0 ≤ n.1 → Denotes (numericText n).toList n.1
  /-- A negative column value has its minus sign. -/
  denotes_numericText_of_neg : ∀ n : Numeric, n.1 < 0 → DenotesSigned (numericText n).toList n.1
  /-- The hexadecimal SHA-256 digest. -/
  sha256Hex : String → String
  nonBlank_sha256Hex : ∀ text, nonBlank (sha256Hex text) = true
  /-- Whether `new Date(text)` is a valid date. -/
  parsesDate : String → Bool
  /-- A text of `toISOString`, with or without zero milliseconds, is parsed. -/
  parsesDate_timestampText : ∀ date : Date, parsesDate date.timestampText = true

theorem Platform.denotesSigned_numericText (env : Platform) (n : Numeric) :
    DenotesSigned (env.numericText n).toList n.1 := by
  rcases le_or_gt 0 n.1 with h | h
  · exact (env.denotes_numericText n h).signed
  · exact env.denotes_numericText_of_neg n h

end WalletConversion
