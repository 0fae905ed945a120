import WalletConversion.Application.AcceptQuote
import WalletConversion.Foundation.Pattern

/-!
# The request for a quote

What the controller admits to `CreateQuoteUseCase`: a body of four strings that meets the decorators
of `CreateQuoteDto`. `sourceAmountPattern_iff` reads the pattern of the amount as a grammar.
-/

namespace WalletConversion

open DecimalNotation

/-! ### Decorators -/

/-- A variation selector, which chooses how the character before it is shown. -/
def isVariationSelector (c : Char) : Bool := c.toNat == 0xFE0F || c.toNat == 0xFE0E

/-- The characters that are followed by a variation selector. -/
def presentationSequences : List Char → ℕ
  | c :: d :: cs =>
    (if !isVariationSelector c && isVariationSelector d then 1 else 0) +
      presentationSequences (d :: cs)
  | _ => 0

/-- `@MaxLength(most)`: a character and its variation selector count once. -/
def maxLength (most : ℕ) (value : String) : Bool :=
  value.length - presentationSequences value.toList ≤ most

/-- `@IsNotEmpty()`. -/
def isNotEmpty (value : String) : Bool := value ≠ ""

/-! ### The body -/

/-- The body of `POST /quotes`. -/
structure CreateQuoteDto where
  userId : String
  sourceAsset : String
  targetAsset : String
  sourceAmount : String

namespace CreateQuoteDto

/-- `[1-9]`. -/
def nonZeroDigit (c : Char) : Bool := c.isDigit && c ≠ '0'

/-- `[A-Za-z0-9]`. -/
def alphanumeric (c : Char) : Bool := c.isAlphanum

/-- `/\S/`. -/
def userIdPattern : Pattern := .one fun c ↦ !isWhiteSpace c

/-- `/^[A-Za-z0-9]+$/`. -/
def assetPattern : Pattern := .seq (.chars alphanumeric 1 none) .ending

/-- `0\.(?=\d{1,18}$)\d*[1-9]\d*`, an amount below one. -/
def fractionPattern : Pattern :=
  .seq (.char '0') <| .seq (.char '.') <|
    .seq (.ahead (.seq (.chars Char.isDigit 1 (some 18)) .ending)) <|
      .seq (.chars Char.isDigit 0 none) <| .seq (.one nonZeroDigit) (.chars Char.isDigit 0 none)

/-- `[1-9]\d{0,19}(?:\.\d{1,18})?`, an amount of at least one. -/
def wholePattern : Pattern :=
  .seq (.one nonZeroDigit) <| .seq (.chars Char.isDigit 0 (some 19)) <|
    .alt (.seq (.char '.') (.chars Char.isDigit 1 (some 18))) .empty

/-- The pattern of the amount: either of the two, and nothing after it. -/
def sourceAmountPattern : Pattern := .seq (.alt fractionPattern wholePattern) .ending

/-- All decorators of the body. -/
def admits (body : CreateQuoteDto) : Bool :=
  isNotEmpty body.userId && maxLength 128 body.userId && userIdPattern.search body.userId &&
  isNotEmpty body.sourceAsset && maxLength 16 body.sourceAsset &&
    assetPattern.test body.sourceAsset &&
  isNotEmpty body.targetAsset && maxLength 16 body.targetAsset &&
    assetPattern.test body.targetAsset &&
  isNotEmpty body.sourceAmount && maxLength 39 body.sourceAmount &&
    sourceAmountPattern.test body.sourceAmount

/-- The command the controller hands on. -/
def command (body : CreateQuoteDto) : CreateQuoteCommand :=
  ⟨body.userId, body.sourceAsset, body.targetAsset, body.sourceAmount⟩

/-! ### The amount -/

/-- An integer part and a fraction of an amount: at most 20 digits without leading zeros, at most 18
digits behind the point, and not all of them zeros. -/
structure Amount (ip fp : List Char) : Prop where
  wholeDigits : ∀ c ∈ ip, c.isDigit = true
  wholeLength : ip.length ≤ 20
  noLeadingZero : (∃ c ds, ip = c :: ds ∧ c ≠ '0') ∨ ip = ['0']
  fractionDigits : ∀ c ∈ fp, c.isDigit = true
  fractionLength : fp.length ≤ 18
  positive : 0 < (scientific ip fp 0).value

/-- An amount is positive when one of its digits is no zero. -/
theorem value_pos_iff {ip fp : List Char} (h : ∀ c ∈ ip ++ fp, c.isDigit = true) :
    0 < (scientific ip fp 0).value ↔ ∃ c ∈ ip ++ fp, c ≠ '0' := by
  have hpow : (0 : ℚ) < 10 ^ (0 - (fp.length : ℤ)) := zpow_pos (by norm_num) _
  rw [scientific, Scientific.value, mul_pos_iff_of_pos_right hpow, Nat.cast_pos,
    Nat.pos_iff_ne_zero,
    Ne, ofDigitChars_eq_zero h]
  push Not
  rfl

theorem nonZeroDigit_iff {c : Char} : nonZeroDigit c = true ↔ c.isDigit = true ∧ c ≠ '0' := by
  rw [nonZeroDigit, Bool.and_eq_true, decide_eq_true_eq]

theorem fractionPattern_iff {cs : List Char} :
    [] ∈ fractionPattern.rests cs ↔ ∃ fp, cs = plain ['0'] fp ∧ Amount ['0'] fp := by
  simp only [fractionPattern, Pattern.mem_rests_seq, Pattern.mem_rests_char,
    Pattern.mem_rests_ahead,
    Pattern.mem_rests_chars, Pattern.mem_rests_one, Pattern.mem_rests_ending, nonZeroDigit_iff]
  constructor
  · rintro ⟨_, rfl, fp, rfl, _, ⟨rfl, _, _, ⟨run, rfl, hdigits, hleast, hmost⟩, rfl, rfl⟩, _,
      ⟨before, hsplit, -⟩, _, ⟨c, rfl, -, hc⟩, -⟩
    rw [List.append_nil] at hsplit ⊢
    have hne : run ≠ [] := List.ne_nil_of_length_pos hleast
    refine ⟨run, by simp [plain, hne], by simp [Char.isDigit], by simp, .inr rfl, hdigits,
      hmost 18 rfl, ?_⟩
    rw [value_pos_iff (by simpa using hdigits)]
    exact ⟨c, by simp [hsplit], hc⟩
  · rintro ⟨fp, rfl, h⟩
    obtain ⟨c, hc, hzero⟩ := (value_pos_iff (by simpa using h.fractionDigits)).1 h.positive
    have hmem : c ∈ fp := by simpa [hzero] using hc
    have hne : fp ≠ [] := List.ne_nil_of_mem hmem
    obtain ⟨before, after, hfp⟩ := List.append_of_mem hmem
    have hsub : ∀ d ∈ before ++ c :: after, d.isDigit = true := hfp ▸ h.fractionDigits
    refine ⟨'.' :: fp, by simp [plain, hne], fp, rfl, fp, ⟨rfl, [], [], ⟨fp, by simp,
      h.fractionDigits, List.length_pos_iff.2 hne, ?_⟩, rfl, rfl⟩, c :: after, ⟨before, hfp, ?_,
      Nat.zero_le _, by simp⟩, after, ⟨c, rfl, hsub c (by simp), hzero⟩, after, by simp, ?_,
      Nat.zero_le _, by simp⟩
    · rintro _ ⟨⟩
      exact h.fractionLength
    · exact fun d hd ↦ hsub d (by simp [hd])
    · exact fun d hd ↦ hsub d (by simp [hd])

theorem wholePattern_iff {cs : List Char} :
    [] ∈ wholePattern.rests cs ↔
      ∃ c ds fp, c ≠ '0' ∧ cs = plain (c :: ds) fp ∧ Amount (c :: ds) fp := by
  simp only [wholePattern, Pattern.mem_rests_seq, Pattern.mem_rests_char, Pattern.mem_rests_alt,
    Pattern.mem_rests_chars, Pattern.mem_rests_one, Pattern.mem_rests_empty, nonZeroDigit_iff]
  constructor
  · rintro ⟨rest, ⟨c, rfl, hdigit, hc⟩, middle, ⟨ds, rfl, hds, -, hlength⟩, hfraction⟩
    have hwhole : ∀ d ∈ c :: ds, d.isDigit = true := List.forall_mem_cons.2 ⟨hdigit, hds⟩
    have hlength' : (c :: ds).length ≤ 20 := Nat.succ_le_succ (hlength 19 rfl)
    rcases hfraction with ⟨_, rfl, fp, rfl, hfp, hleast, hmost⟩ | rfl
    · rw [List.append_nil]
      have hne : fp ≠ [] := List.ne_nil_of_length_pos hleast
      refine ⟨c, ds, fp, hc, by simp [plain, hne], hwhole, hlength', .inl ⟨c, ds, rfl, hc⟩, hfp,
        hmost 18 rfl, (value_pos_iff ?_).2 ⟨c, by simp, hc⟩⟩
      exact fun d hd ↦ (List.mem_append.1 hd).elim (hwhole d) (hfp d)
    · refine ⟨c, ds, [], hc, by simp [plain], hwhole, hlength', .inl ⟨c, ds, rfl, hc⟩, by simp,
        by simp, (value_pos_iff ?_).2 ⟨c, by simp, hc⟩⟩
      simpa using hwhole
  · rintro ⟨c, ds, fp, hc, rfl, h⟩
    obtain ⟨hdigit, hds⟩ := List.forall_mem_cons.1 h.wholeDigits
    have hlength : ds.length ≤ 19 := Nat.le_of_succ_le_succ h.wholeLength
    refine ⟨ds ++ if fp = [] then [] else '.' :: fp, ⟨c, rfl, hdigit, hc⟩, _,
      ⟨ds, rfl, hds, Nat.zero_le _, by simpa using hlength⟩, ?_⟩
    by_cases hne : fp = []
    · exact .inr (by simp [hne])
    · refine .inl ⟨fp, by simp [hne], fp, by simp, h.fractionDigits, List.length_pos_iff.2 hne, ?_⟩
      rintro _ ⟨⟩
      exact h.fractionLength

/-- **The pattern of the amount as a grammar.** -/
theorem sourceAmountPattern_iff {text : String} :
    sourceAmountPattern.test text = true ↔ ∃ ip fp, text.toList = plain ip fp ∧ Amount ip fp := by
  rw [Pattern.test_iff]
  simp only [sourceAmountPattern, Pattern.mem_rests_seq, Pattern.mem_rests_alt,
    Pattern.mem_rests_ending]
  constructor
  · rintro ⟨_, _, hrest, rfl, rfl⟩
    rcases hrest with hrest | hrest
    · obtain ⟨fp, htext, h⟩ := fractionPattern_iff.1 hrest
      exact ⟨_, fp, htext, h⟩
    · obtain ⟨c, ds, fp, -, htext, h⟩ := wholePattern_iff.1 hrest
      exact ⟨_, fp, htext, h⟩
  · rintro ⟨ip, fp, htext, h⟩
    refine ⟨[], [], ?_, rfl, rfl⟩
    rcases h.noLeadingZero with ⟨c, ds, rfl, hc⟩ | rfl
    · exact .inr (wholePattern_iff.2 ⟨c, ds, fp, hc, htext, h⟩)
    · exact .inl (fractionPattern_iff.2 ⟨fp, htext, h⟩)

/-- **What an admitted amount denotes**: a positive number that fits the column of the amount. -/
theorem denotes_sourceAmount {body : CreateQuoteDto} (h : body.admits = true) :
    ∃ x, Denotes body.sourceAmount.toList x ∧ 0 < x ∧ x < 10 ^ 20 ∧ IsFixed 18 x := by
  have hpattern : sourceAmountPattern.test body.sourceAmount = true := by
    rw [admits, Bool.and_eq_true] at h
    exact h.2
  obtain ⟨ip, fp, htext, hamount⟩ := sourceAmountPattern_iff.1 hpattern
  have hne : ip ≠ [] := by
    rcases hamount.noLeadingZero with ⟨c, ds, rfl, -⟩ | rfl <;> simp
  refine ⟨_, ⟨scientific ip fp 0, ?_, rfl⟩, hamount.positive, ?_, ?_⟩
  · rw [htext]
    exact literal_plain hamount.wholeDigits hne hamount.fractionDigits
  · exact (value_scientific_lt hamount.wholeDigits hamount.fractionDigits).trans_le
      (pow_le_pow_right₀ (by norm_num) hamount.wholeLength)
  · exact (isFixed_value_scientific ip fp).mono hamount.fractionLength

end CreateQuoteDto

end WalletConversion
