import WalletConversion.Application.System

/-!
# A platform to run on

`Platform` leaves open what `decimal.js`, `crypto` and `new Date` do. `Platform.reference` closes it
with computable functions that agree with them on ordinary inputs, so that runs of the application
can be evaluated: the registered assets, plain decimal notation for column values, and the digests
of the quote ids that the sample runs use.
-/

namespace WalletConversion

open DecimalNotation Transactional

/-! ### Column values and dates -/

/-- A nonnegative number with at most 18 decimals, without zeros at its end. -/
def plainDigits (q : ℚ) : List Char := dropTrailingZeros (fixedText 18 (q * 10 ^ 18).num.natAbs)

theorem denotes_plainDigits {q : ℚ} (hfixed : IsFixed 18 q) (h : 0 ≤ q) :
    Denotes (plainDigits q) q := by
  obtain ⟨m, hm⟩ := hfixed.exists_nat h
  have hunits : (q * 10 ^ 18).num.natAbs = m := by
    rw [hm, div_mul_cancel₀ _ (by positivity)]
    simp
  rw [plainDigits, hunits]
  conv_rhs => rw [hm]
  exact denotes_dropTrailingZeros 18 m

/-- A column value in plain notation. -/
def Numeric.plainText (n : Numeric) : String :=
  String.ofList (if n.1 < 0 then '-' :: plainDigits (-n.1) else plainDigits n.1)

theorem Numeric.denotes_plainText (n : Numeric) (h : 0 ≤ n.1) :
    Denotes n.plainText.toList n.1 := by
  rw [plainText, if_neg (not_lt.2 h), String.toList_ofList]
  exact denotes_plainDigits n.2.1 h

theorem Numeric.denotes_plainText_of_neg (n : Numeric) (h : n.1 < 0) :
    DenotesSigned n.plainText.toList n.1 := by
  have hden := (denotes_plainDigits n.2.1.neg (neg_nonneg.2 h.le)).negated
  rw [plainText, if_pos h, String.toList_ofList]
  rwa [neg_neg] at hden

/-- A timestamp ends with the mark of UTC. -/
theorem Date.getLast_timestampText (date : Date) :
    date.timestampText.toList.getLast? = some 'Z' := by
  simp only [Date.timestampText]
  split
  · rw [String.toList_ofList, List.getLast?_concat]
  · rw [String.toList_ofList, Date.toISOString, String.toList_ofList, List.getLast?_concat]

/-- A whole number as a column value. -/
def Numeric.ofNat (n : ℕ) (h : |(n : ℚ)| < 10 ^ 20 := by norm_num) : Numeric :=
  ⟨n, IsFixed.intCast _ _, h⟩

/-- A text without white space around it, as an id. -/
def Uuid.ofText (text : String) (trimmed : trim text = text := by decide)
    (nonempty : text ≠ "" := by decide) (stored : storable text = true := by decide) : Uuid :=
  ⟨⟨text, trimmed, nonempty⟩, stored⟩

/-! ### The platform -/

/-- The digests of the quote ids of the sample runs; other texts are told apart. -/
def referenceDigest (text : String) : String :=
  if text = "q-1" then "8a3e90ba8a519e1e3e3da22b26bf3d8db2a56b4ae77f42e60b2eda9173930f92"
  else if text = "q-2" then
    "550c8741449c03a7fa7b9016aea1fc994b6281d1b25cb6ebbdb5eaa51bd41169"
  else "digest of " ++ text

theorem referenceDigest_injective : Function.Injective referenceDigest := by
  -- a text that is told apart starts with the letter `d`
  have hother : ∀ text digest, "digest of " ++ text = digest → digest.toList.head? = some 'd' := by
    rintro text _ rfl
    rw [String.toList_append]
    rfl
  intro a b h
  unfold referenceDigest at h
  by_cases ha₁ : a = "q-1" <;> by_cases hb₁ : b = "q-1" <;> by_cases ha₂ : a = "q-2" <;>
    by_cases hb₂ : b = "q-2" <;> simp only [ha₁, ha₂, hb₁, hb₂, if_true, if_false] at h ⊢
  all_goals first
    | exact absurd h (by decide)
    | exact absurd (hother _ _ h) (by decide)
    | exact absurd (hother _ _ h.symm) (by decide)
    | exact (String.append_right_inj _).1 h

/-- **The registered assets on a computable platform.** -/
def Platform.reference : Platform where
  parseOther _ _ := none
  registry := .wellKnown
  numericText := Numeric.plainText
  denotes_numericText := Numeric.denotes_plainText
  denotes_numericText_of_neg := Numeric.denotes_plainText_of_neg
  sha256Hex := referenceDigest
  nonBlank_sha256Hex text := by
    unfold referenceDigest
    split_ifs
    · decide
    · decide
    · simp [nonBlank]
  parsesDate text := text.toList.getLast? = some 'Z'
  parsesDate_timestampText date := by
    rw [decide_eq_true_eq]
    exact date.getLast_timestampText

/-! ### Samples -/

/-- One unit of an asset. -/
def Money.one (asset : Asset) : Money :=
  ⟨asset, 1, zero_le_one, by simpa using DecimalNotation.IsFixed.intCast asset.scale 1⟩

/-- A user. -/
def sampleUser : UserId := ⟨"u-1", by decide, by decide⟩

/-- A wallet of 1000 USDT. -/
def sampleRow : WalletRow := ⟨"w-1", .ofNat 1000, .ofNat 1000, .ofNat 0⟩

/-- One user with this wallet. -/
def sampleWallets : Table (String × String) WalletRow :=
  (∅ : Table (String × String) WalletRow).insert ("u-1", "USDT") sampleRow

/-- A moment of the sample runs. -/
def sampleTime : Date := ⟨1785974400000, by decide⟩

/-- The ids of the sample runs. -/
def sampleQuoteId : Uuid := .ofText "q-1"

@[inherit_doc sampleQuoteId] def sampleConversionId : Uuid := .ofText "c-1"

@[inherit_doc sampleQuoteId] def sampleEventId : Uuid := .ofText "e-1"

/-- The user asks for a quote for 500 USDT in BTC. -/
def sampleQuote : Task := .createQuote ⟨"u-1", "USDT", "BTC", "500"⟩ sampleQuoteId sampleTime

/-- The user accepts the quote. -/
def sampleAccept : Task :=
  .acceptQuote ⟨"q-1", "key-1"⟩ ⟨sampleTime, sampleConversionId, sampleEventId, sampleTime, 0⟩

/-- The event of the conversion. -/
def samplePayload : ConversionExecutionRequestedPayload where
  eventId := "e-1"
  eventType := "ConversionExecutionRequested"
  conversionId := "c-1"
  userId := "u-1"
  sourceAsset := "USDT"
  targetAsset := "BTC"
  sourceAmount := "500"
  targetAmount := "0.00805"
  occurredAt := sampleTime.timestampText

/-- The response of the accept. -/
def sampleBody : AcceptQuoteSuccessBody where
  conversionId := "c-1"
  quoteId := "q-1"
  userId := "u-1"
  status := "FUNDS_RESERVED"
  sourceAsset := "USDT"
  targetAsset := "BTC"
  sourceAmount := "500"
  targetAmount := "0.00805"
  createdAt := sampleTime.timestampText

/-- A worker executes the event with the exchange in a mode. -/
def sampleExecute (mode : ExecutionOutcome) : Task :=
  .execute samplePayload ⟨mode, sampleTime, sampleTime, .ofText "w-2"⟩

/-- Start a call and let it take some steps. -/
def callFor (pid : ℕ) (t : Task) (steps : ℕ) : List (Move Task) :=
  .spawn pid t :: List.replicate steps (.run pid)

/-- The quote is created and accepted. -/
def sampleAccepted : List (Move Task) := callFor 1 sampleQuote 1 ++ callFor 2 sampleAccept 10

/-- The conversion is executed. -/
def sampleSettled (mode : ExecutionOutcome) : List (Move Task) :=
  sampleAccepted ++ callFor 3 (sampleExecute mode)
    (match mode with
      | .SUCCESS => 12
      | .FAILURE => 10
      | .UNKNOWN => 9)

end WalletConversion
