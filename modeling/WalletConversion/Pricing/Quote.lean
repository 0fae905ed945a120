import WalletConversion.Shared.Clock
import WalletConversion.Shared.Money

/-!
# Quotes

A quote locks a price for twenty seconds. It is stored as `ACTIVE` or `ACCEPTED`; `EXPIRED` is
derived when it is read. The structure carries what the constructor checks: the lifecycle, the asset
pair of the rate, a positive source amount and an expiry after the creation.
-/

namespace WalletConversion

open DecimalNotation

/-! ### Exchange rates -/

/-- Units of the target asset for one unit of the source asset. -/
@[ext] structure ExchangeRate where
  sourceAsset : Asset
  targetAsset : Asset
  rate : Magnitude
  positive : rate.1 ≠ 0
  distinct : sourceAsset.code ≠ targetAsset.code
  deriving DecidableEq

namespace ExchangeRate

/-- `ExchangeRate.of(sourceAsset, targetAsset, text)`. -/
def of (js : DecimalJs) (sourceAsset targetAsset : Asset) (text : String) :
    Except JsError ExchangeRate :=
  if hd : sourceAsset.code = targetAsset.code then
    .error (.error "ExchangeRate source and target assets must differ")
  else do
    let invalid : JsError :=
      .error s!"Exchange rate must be a finite positive number, got \"{text}\""
    match ← Decimal.ofText js text with
    | .finite negative rate =>
      if h : negative ∨ rate.1 = 0 then .error invalid
      else .ok ⟨sourceAsset, targetAsset, rate, fun h0 ↦ h (Or.inr h0), hd⟩
    | _ => .error invalid

/-- The factor that amounts are converted with. -/
def toDecimal (r : ExchangeRate) : Decimal := .finite false r.rate

/-- `rate.toFixed()`: all significant digits. -/
def toString (r : ExchangeRate) : String := String.ofList (Decimal.plainText r.rate)

theorem rate_pos (r : ExchangeRate) : 0 < r.rate.1 :=
  lt_of_le_of_ne r.rate.2.1 (Ne.symm r.positive)

theorem denotes_toString (r : ExchangeRate) : Denotes r.toString.toList r.rate.1 := by
  have hfixed : IsFixed (Decimal.decimalPlaces r.rate) r.rate.1 :=
    Decimal.decimalPlaces_le_iff.1 le_rfl
  obtain ⟨n, hn⟩ := hfixed.exists_nat r.rate.2.1
  have hunits : r.rate.1 * 10 ^ Decimal.decimalPlaces r.rate = (n : ℕ) := by
    rw [hn, div_mul_cancel₀ _ (by positivity)]
  have hden := denotes_fixedText (Decimal.decimalPlaces r.rate) n
  rw [← hn] at hden
  rw [toString, String.toList_ofList, Decimal.plainText, hunits, Rat.num_natCast,
    Int.natAbs_natCast]
  exact hden

/-- A text that denotes the rate is read as the rate. -/
theorem of_denotes (js : DecimalJs) {text : String} {r : ExchangeRate}
    (h : Denotes text.toList r.rate.1) : of js r.sourceAsset r.targetAsset text = .ok r := by
  obtain ⟨m, hm, htext⟩ := Decimal.ofText_of_denotes js h
  have hvalid : ¬ (false = true ∨ m.1 = 0) := by
    rw [hm]
    simp [r.positive]
  rw [of, dif_neg r.distinct, htext]
  simp only [bind, Except.bind, dif_neg hvalid]
  exact congrArg Except.ok (ExchangeRate.ext rfl rfl (Subtype.ext hm))

/-- What a rate was read from. -/
theorem of_eq_ok {js : DecimalJs} {sourceAsset targetAsset : Asset} {text : String}
    {r : ExchangeRate} (h : of js sourceAsset targetAsset text = .ok r) :
    r.sourceAsset = sourceAsset ∧ r.targetAsset = targetAsset ∧
      Decimal.ofText js text = .ok (.finite false r.rate) := by
  unfold of at h
  split at h
  · cases h
  · rcases hd : Decimal.ofText js text with e | d
    · rw [hd] at h
      cases h
    · rw [hd] at h
      simp only [bind, Except.bind] at h
      split at h
      · rename_i negative rate
        split at h
        · cases h
        · rename_i hvalid
          cases h
          have hneg : negative = false := by simpa using fun hn ↦ hvalid (Or.inl hn)
          exact ⟨rfl, rfl, congrArg (fun b ↦ Except.ok (Decimal.finite b rate)) hneg⟩
      · cases h

end ExchangeRate

/-! ### Pricing -/

namespace FakePricingProvider

/-- The fixed rate table. -/
def RATES (key : String) : Option String :=
  if key = "USDT->BTC" then some "0.0000161"
  else if key = "BTC->USDT" then some "62111.801242236"
  else none

/-- The rate of a pair, or an error if the table has none. -/
def getRate (js : DecimalJs) (sourceAsset targetAsset : Asset) : Except JsError ExchangeRate :=
  match RATES s!"{sourceAsset.code}->{targetAsset.code}" with
  | none => .error ⟨.UnsupportedAssetPairError,
      s!"No deterministic rate configured for {sourceAsset.code} -> {targetAsset.code}"⟩
  | some rate => ExchangeRate.of js sourceAsset targetAsset rate

/-- **The two rates.** -/
theorem getRate_eq_ok {js : DecimalJs} {sourceAsset targetAsset : Asset} {r : ExchangeRate}
    (h : getRate js sourceAsset targetAsset = .ok r) :
    r.sourceAsset = sourceAsset ∧ r.targetAsset = targetAsset ∧
      ((s!"{sourceAsset.code}->{targetAsset.code}" = "USDT->BTC" ∧ r.rate.1 = 161 / 10 ^ 7) ∨
        (s!"{sourceAsset.code}->{targetAsset.code}" = "BTC->USDT" ∧
          r.rate.1 = 62111801242236 / 10 ^ 9)) := by
  unfold getRate at h
  split at h
  · cases h
  · rename_i text htext
    obtain ⟨hsource, htarget, hdec⟩ := ExchangeRate.of_eq_ok h
    -- each text is a literal, so the rate is the number it denotes
    have hval : ∀ {t : String} {d : Scientific}, literal t.toList = some d →
        Decimal.ofText js t = .ok (.finite false r.rate) → r.rate.1 = d.value := by
      intro t d hd ht
      obtain ⟨m, hm, ht'⟩ := Decimal.ofText_of_denotes js ⟨d, hd, rfl⟩
      rw [ht] at ht'
      cases ht'
      exact hm
    refine ⟨hsource, htarget, ?_⟩
    unfold RATES at htext
    split_ifs at htext with hforth hback
    · cases htext
      refine .inl ⟨hforth, (hval (d := ⟨161, -7⟩) (by decide) hdec).trans ?_⟩
      norm_num [Scientific.value]
    · cases htext
      refine .inr ⟨hback, (hval (d := ⟨62111801242236, -9⟩) (by decide) hdec).trans ?_⟩
      norm_num [Scientific.value]

/-- **Every configured rate fits its column**: at most 18 decimals, far below `10 ^ 20`. -/
theorem rate_fits {js : DecimalJs} {sourceAsset targetAsset : Asset} {r : ExchangeRate}
    (h : getRate js sourceAsset targetAsset = .ok r) :
    IsFixed 18 r.rate.1 ∧ r.rate.1 < 10 ^ 20 := by
  obtain ⟨-, -, ⟨-, hrate⟩ | ⟨-, hrate⟩⟩ := getRate_eq_ok h
  · exact ⟨⟨161 * 10 ^ 11, by norm_num [hrate]⟩, by norm_num [hrate]⟩
  · exact ⟨⟨62111801242236 * 10 ^ 9, by norm_num [hrate]⟩, by norm_num [hrate]⟩

end FakePricingProvider

/-! ### Quotes -/

/-- Of these, `EXPIRED` is shown and never stored. -/
inductive QuoteStatus where
  | ACTIVE
  | ACCEPTED
  | EXPIRED
  deriving DecidableEq

/-- How long a price is locked. -/
def QUOTE_TTL_SECONDS : ℤ := 20

/-- A price lock for one conversion. -/
@[ext] structure Quote where
  id : QuoteId
  userId : UserId
  sourceAmount : Money
  targetAmount : Money
  rate : ExchangeRate
  createdAt : Date
  expiresAt : Date
  status : QuoteStatus
  acceptedAt : Option Date
  lifecycle : (status = .ACTIVE ∧ acceptedAt = none) ∨ (status = .ACCEPTED ∧ acceptedAt.isSome)
  pair : sourceAmount.asset.code = rate.sourceAsset.code ∧
    targetAmount.asset.code = rate.targetAsset.code
  positive : sourceAmount.amount ≠ 0
  expiry : createdAt.getTime < expiresAt.getTime
  deriving DecidableEq

namespace Quote

/-- The error of the constructor and of `create`. -/
def invalid (message : String) : JsError := ⟨.InvalidQuoteError, message⟩

/-- The constructor and its checks, in their order. It does not look at the target amount: that it
is not zero is checked by `create`. -/
def new (id : QuoteId) (userId : UserId) (sourceAmount targetAmount : Money) (rate : ExchangeRate)
    (createdAt expiresAt : Date) (status : QuoteStatus) (acceptedAt : Option Date) :
    Except JsError Quote :=
  if h₁ : status = .EXPIRED then
    .error (invalid "EXPIRED is a derived status and must not be persisted")
  else if h₂ : status = .ACCEPTED ∧ acceptedAt = none then
    .error (invalid "ACCEPTED quote must have acceptedAt")
  else if h₃ : status = .ACTIVE ∧ acceptedAt ≠ none then
    .error (invalid "ACTIVE quote must not have acceptedAt")
  else if h₄ : sourceAmount.asset.code ≠ rate.sourceAsset.code ∨
      targetAmount.asset.code ≠ rate.targetAsset.code then
    .error (invalid "Quote amounts must match the exchange rate asset pair")
  else if h₅ : sourceAmount.isZero then
    .error (invalid "Quote source amount must be positive")
  else if h₆ : expiresAt.getTime ≤ createdAt.getTime then
    .error (invalid "Quote expiresAt must be after createdAt")
  else
    .ok
      { id, userId, sourceAmount, targetAmount, rate, createdAt, expiresAt, status, acceptedAt
        lifecycle := by
          cases status <;> cases acceptedAt <;> simp_all
        pair := by
          rw [not_or, not_not, not_not] at h₄
          exact h₄
        positive := by simpa [Money.isZero] using h₅
        expiry := not_le.1 h₆ }

/-- Price a source amount. Where the expiry is beyond the range of dates, the code makes a quote
with an Invalid Date, which the driver then refuses to save; here there is no such date, and
`create` throws. -/
def create (id : QuoteId) (userId : UserId) (sourceAmount : Money) (rate : ExchangeRate)
    (createdAt : Date) (ttlSeconds : Option ℤ) : Except JsError Quote := do
  let ttl := ttlSeconds.getD QUOTE_TTL_SECONDS
  if ttl ≤ 0 then
    throw (invalid s!"Quote TTL must be a positive integer, got {ttl}")
  if sourceAmount.asset.code ≠ rate.sourceAsset.code then
    throw (invalid (s!"Source amount asset {sourceAmount.asset.code} does not match rate source " ++
      s!"{rate.sourceAsset.code}"))
  if sourceAmount.isZero then
    throw (invalid "Quote source amount must be positive")
  let targetAmount ← sourceAmount.convert rate.toDecimal rate.targetAsset
  if targetAmount.isZero then
    throw (invalid (s!"Quoted target amount rounds to zero for {sourceAmount.toString} at rate " ++
      s!"{rate.toString}"))
  -- the only place where the model stops before the code does
  match Date.ofTime? (createdAt.getTime + ttl * 1000) with
  | none => throw (.error "Invalid time value")
  | some expiresAt =>
    new id userId sourceAmount targetAmount rate createdAt expiresAt .ACTIVE none

/-- Rebuild a quote from its stored state. A snapshot that was taken as `EXPIRED` counts as
active. -/
def reconstitute (id : QuoteId) (userId : UserId) (sourceAmount targetAmount : Money)
    (rate : ExchangeRate) (createdAt expiresAt : Date) (status : QuoteStatus)
    (acceptedAt : Option Date) : Except JsError Quote :=
  new id userId sourceAmount targetAmount rate createdAt expiresAt
    (if status = .EXPIRED then .ACTIVE else status) acceptedAt

/-- What the user gives. -/
def sourceAsset (q : Quote) : Asset := q.sourceAmount.asset

/-- What the user gets. -/
def targetAsset (q : Quote) : Asset := q.targetAmount.asset

/-- An active quote can still be accepted at the moment of its expiry. An accepted one does not
expire. -/
def isExpired (q : Quote) (now : Date) : Bool :=
  q.status = .ACTIVE ∧ q.expiresAt.getTime < now.getTime

/-- The status shown to a client. -/
def statusAt (q : Quote) (now : Date) : QuoteStatus :=
  if q.status = .ACCEPTED then .ACCEPTED else if q.isExpired now then .EXPIRED else .ACTIVE

/-- The quote after both assignments of `accept`. -/
def accepted (q : Quote) (now : Date) : Quote :=
  { q with status := .ACCEPTED, acceptedAt := some now, lifecycle := Or.inr ⟨rfl, rfl⟩ }

/-- The first refusal of `accept`. -/
def alreadyAccepted (q : Quote) : JsError :=
  ⟨.QuoteAlreadyAcceptedError, s!"Quote {q.id.value} has already been accepted"⟩

/-- The second refusal of `accept`. -/
def expired (q : Quote) : JsError :=
  ⟨.QuoteExpiredError, s!"Quote {q.id.value} has expired and cannot be accepted"⟩

/-- Accept the quote once, before it expires. -/
def accept (now : Date) : Mutation Quote Unit := do
  Mutation.throwIf (fun q ↦ q.status = .ACCEPTED) alreadyAccepted
  Mutation.throwIf (fun q ↦ q.isExpired now) expired
  Mutation.assign fun q ↦ q.accepted now

/-- A stored quote is rebuilt as itself. -/
theorem reconstitute_self (q : Quote) :
    reconstitute q.id q.userId q.sourceAmount q.targetAmount q.rate q.createdAt q.expiresAt q.status
      q.acceptedAt = .ok q := by
  have hstatus : q.status ≠ .EXPIRED := by
    rcases q.lifecycle with ⟨h, -⟩ | ⟨h, -⟩ <;> simp [h]
  have haccepted : ¬ (q.status = .ACCEPTED ∧ q.acceptedAt = none) := by
    rintro ⟨h, h'⟩
    rcases q.lifecycle with ⟨h'', -⟩ | ⟨-, h''⟩ <;> simp_all
  have hactive : ¬ (q.status = .ACTIVE ∧ q.acceptedAt ≠ none) := by
    rintro ⟨h, h'⟩
    rcases q.lifecycle with ⟨-, h''⟩ | ⟨h'', -⟩ <;> simp_all
  have hpair : ¬ (q.sourceAmount.asset.code ≠ q.rate.sourceAsset.code ∨
      q.targetAmount.asset.code ≠ q.rate.targetAsset.code) := by
    simp [q.pair]
  have hpositive : ¬ q.sourceAmount.isZero = true := by
    simpa [Money.isZero] using q.positive
  rw [reconstitute, if_neg hstatus, new, dif_neg hstatus, dif_neg haccepted, dif_neg hactive,
    dif_neg hpair, dif_neg hpositive, dif_neg (not_le.2 q.expiry)]

/-- **Everything `accept` can do.** -/
theorem accept_call (q : Quote) (now : Date) :
    (accept now).call q =
      if q.status = .ACCEPTED then .error q.alreadyAccepted
      else if q.isExpired now then .error q.expired
      else .ok (q.accepted now) := by
  by_cases h₁ : q.status = .ACCEPTED
  · simp [accept, Mutation.call, Mutation.bind_apply, h₁]
  · by_cases h₂ : q.isExpired now = true
    · simp [accept, Mutation.call, Mutation.bind_apply, h₁, h₂]
    · simp [accept, Mutation.call, Mutation.bind_apply, h₁, h₂]

end Quote

end WalletConversion
