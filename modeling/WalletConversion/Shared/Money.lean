import WalletConversion.Foundation.DecimalNotation
import WalletConversion.Shared.Text

/-!
# Assets, decimals and money

`Money` pairs an amount with its asset. The amount is exact, never negative, and has at most the
decimals of the asset; the structure carries both facts, so every operation that returns a `Money`
has proved them.

Decimal arithmetic is arithmetic in `ℚ`, rounded to 40 significant digits, half to even
(`precision`). A result whose exponent leaves the range `±9·10¹⁵` of the library (`maxE`) becomes
`Infinity` or zero (`finalise`). The amount of a `Money` is kept as the rounded number, and
`Money.toDecimal` is the decimal that holds it; `Money.IsFinite` says that the two agree. What a
method computes from an amount that has already overflown is outside the model, and so are texts
whose number is out of range. The library reads more than decimal literals (`Infinity`, hexadecimal
and so on); what it does with a text that is no decimal literal is the parameter
`DecimalJs.parseOther`.

**Texts.** `Money.toString` writes all decimals of the asset and `trimTrailingZeros` shortens that;
`Money.of` reads both back (`of_toString`, `of_trimTrailingZeros`).
-/

namespace WalletConversion

open DecimalNotation

/-! ### Assets -/

/-- A digital asset and the number of decimals it is quoted and stored with. -/
structure Asset where
  code : String
  scale : ℕ
  deriving DecidableEq

/-- `code.trim().toUpperCase()`. Codes are ASCII: the request validation admits no others. -/
def Asset.normalize (code : String) : Except JsError String :=
  let normalized := String.ofList ((trim code).toList.map Char.toUpper)
  if normalized = "" then .error (.error "Asset code must not be empty") else .ok normalized

/-- Only a `NUL` becomes a `NUL`. -/
theorem toUpper_eq_nul {c : Char} : c.toUpper = '\x00' ↔ c = '\x00' := by
  refine ⟨fun h ↦ ?_, fun h ↦ by rw [h]; rfl⟩
  by_cases hc : 'a'.val ≤ c.val ∧ c.val ≤ 'z'.val
  · -- a capital letter is no `NUL`
    have hval : c.val + ('A'.val - 'a'.val) = 0 := by
      have hupper := congrArg Char.val h
      unfold Char.toUpper at hupper
      rwa [dif_pos hc] at hupper
    have hlow : 97 ≤ c.toNat := hc.1
    have hhigh : c.toNat ≤ 122 := hc.2
    have hnat := congrArg UInt32.toNat hval
    simp at hnat
    omega
  · unfold Char.toUpper at h
    rwa [dif_neg hc] at h

/-- Normalizing a code neither adds nor removes a `NUL`. -/
theorem Asset.storable_normalize {code normalized : String}
    (h : Asset.normalize code = .ok normalized) : storable normalized = storable code := by
  simp only [Asset.normalize] at h
  split at h
  · cases h
  · rw [Except.ok.injEq] at h
    subst h
    rw [← storable_trim code, storable, storable, String.toList_ofList, List.all_map]
    simp only [Function.comp_def, ne_eq, toUpper_eq_nul]

/-- The process-wide registry of assets. Codes are normalized and unique, and no asset has more
decimals than the columns of the database. -/
structure Registry where
  assets : List Asset
  normalized : ∀ a ∈ assets, Asset.normalize a.code = .ok a.code
  unique : ∀ a ∈ assets, ∀ b ∈ assets, a.code = b.code → a = b
  scale_le : ∀ a ∈ assets, a.scale ≤ 18

/-- Tether, in millionths. -/
def USDT : Asset := ⟨"USDT", 6⟩

/-- Bitcoin, in satoshis. -/
def BTC : Asset := ⟨"BTC", 8⟩

/-- The assets the application registers. -/
def Registry.wellKnown : Registry where
  assets := [USDT, BTC]
  normalized := by decide
  unique := by decide
  scale_le := by decide

/-- Look an asset up by its code. -/
def Asset.of (registry : Registry) (code : String) : Except JsError Asset := do
  let normalized ← Asset.normalize code
  match registry.assets.find? fun a ↦ a.code = normalized with
  | none =>
    .error (.error
      s!"Unknown asset code: \"{code}\". Register it via Asset.register() before use.")
  | some asset => .ok asset

/-- **A stored code is read back as its asset.** -/
theorem Asset.of_code {registry : Registry} {asset : Asset} (h : asset ∈ registry.assets) :
    Asset.of registry asset.code = .ok asset := by
  have hfind : registry.assets.find? (fun a ↦ a.code = asset.code) = some asset := by
    rcases hf : registry.assets.find? (fun a ↦ a.code = asset.code) with - | b
    · have := List.find?_eq_none.1 hf asset h
      simp at this
    · have hb := List.find?_some hf
      rw [decide_eq_true_eq] at hb
      rw [hf, registry.unique b (List.mem_of_find?_eq_some hf) asset h hb]
  rw [Asset.of, registry.normalized _ h]
  simp only [bind, Except.bind]
  rw [hfind]

/-- An asset that was found is registered, under the normalized code. -/
theorem Asset.of_eq_ok {registry : Registry} {code : String} {asset : Asset}
    (h : Asset.of registry code = .ok asset) :
    asset ∈ registry.assets ∧ Asset.normalize code = .ok asset.code := by
  obtain ⟨normalized, hn, h⟩ := except_bind_eq_ok.1 h
  split at h
  · cases h
  · rename_i b hf
    cases h
    have hcode := List.find?_some hf
    rw [decide_eq_true_eq] at hcode
    exact ⟨List.mem_of_find?_eq_some hf, by rw [hn, hcode]⟩

/-! ### Decimals -/

/-- The absolute value of a decimal: a nonnegative number with finitely many decimals. -/
abbrev Magnitude := { q : ℚ // 0 ≤ q ∧ ∃ s, IsFixed s q }

/-- The number of a literal, which is finite in decimal notation. -/
def Scientific.magnitude (d : Scientific) : Magnitude :=
  ⟨d.value, d.value_nonneg, d.isFixed⟩

/-- A value of `decimal.js`. -/
inductive Decimal where
  | nan
  | infinity (negative : Bool)
  | finite (negative : Bool) (magnitude : Magnitude)
  deriving DecidableEq

namespace Decimal

/-- The significant digits arithmetic is rounded to. -/
def precision : ℕ := 40

/-- The largest exponent of a decimal, and up to its sign the smallest. -/
def maxE : ℕ := 9 * 10 ^ 15

/-- The largest number of decimals that a method of the library takes as its argument. -/
def MAX_DIGITS : ℕ := 10 ^ 9

/-- A number whose exponent a decimal can hold. Zero has the exponent 0. -/
def InRange (q : ℚ) : Prop := -(maxE : ℤ) ≤ Int.log 10 |q| ∧ Int.log 10 |q| ≤ maxE

instance (q : ℚ) : Decidable (InRange q) := inferInstanceAs (Decidable (_ ∧ _))

/-- A number that a decimal holds as it is, so that arithmetic that arrives at it is exact. -/
structure Holds (q : ℚ) : Prop where
  digits : HasDigits precision q
  inRange : InRange q

/-- What the library makes of a magnitude it has rounded: a value that is too large becomes
infinite, a value that is too small becomes zero. -/
def finalise (m : Magnitude) : Decimal :=
  if maxE < Int.log 10 m.1 then .infinity false
  else if Int.log 10 m.1 < -maxE then .finite false ⟨0, le_rfl, 0, IsFixed.zero 0⟩
  else .finite false m

/-- A magnitude in range is kept. -/
theorem finalise_of_inRange {m : Magnitude} (h : InRange m.1) : finalise m = .finite false m := by
  rw [InRange, abs_of_nonneg m.2.1] at h
  rw [finalise, if_neg (not_lt.2 h.2), if_neg (not_lt.2 h.1)]

/-- A multiple of the last decimal is not too small. -/
theorem neg_le_log {s : ℕ} {q : ℚ} (h0 : 0 ≤ q) (hq : IsFixed s q) : -(s : ℤ) ≤ Int.log 10 q := by
  obtain ⟨n, rfl⟩ := hq.exists_nat h0
  rcases Nat.eq_zero_or_pos n with rfl | hn
  · simp
  · have hstep : (10 : ℚ) ^ (-(s : ℤ)) ≤ n / 10 ^ s := by
      rw [zpow_neg, zpow_natCast, inv_eq_one_div]
      gcongr
      exact_mod_cast hn
    exact (Int.zpow_le_iff_le_log (by norm_num) (by positivity)).1 (by exact_mod_cast hstep)

/-- A number with few decimals that is not too large is held as it is. -/
theorem holds_of_isFixed {s n : ℕ} {q : ℚ} (hq : IsFixed s q) (hlt : |q| < 10 ^ n)
    (hn : n + s ≤ precision) : Holds q := by
  have habs : IsFixed s |q| := by
    rcases abs_cases q with ⟨h, -⟩ | ⟨h, -⟩ <;> rw [h]
    · exact hq
    · exact hq.neg
  have hprecision : precision ≤ maxE := by decide
  have hlow := neg_le_log (abs_nonneg q) habs
  have hhigh : Int.log 10 |q| ≤ n := by
    rcases (abs_nonneg q).eq_or_lt with h0 | hpos
    · simp [← h0]
    · exact ((Int.lt_zpow_iff_log_lt (by norm_num) hpos).1 (by exact_mod_cast hlt)).le
  exact ⟨.of_isFixed hq hlt hn, by omega, by omega⟩

/-- Arithmetic is exact up to a relative error far below the last digit of any amount. -/
theorem roundSig_bounds {x : ℚ} (h : 0 < x) :
    x * (1 - 1 / 10 ^ 39) ≤ roundSig precision x ∧
      roundSig precision x ≤ x * (1 + 1 / 10 ^ 39) := by
  have hround := abs_le.1 (abs_roundSig_sub_le precision x)
  have hpos := lastPlace_pos precision x
  have hplace : lastPlace precision x ≤ x * (1 / 10 ^ 39) :=
    (lastPlace_le h).trans_eq (by norm_num [precision])
  constructor <;> linarith

/-- The number of decimals. -/
def decimalPlaces (m : Magnitude) : ℕ := decimals m.1

/-- The number of decimals is the least that is enough. -/
theorem decimalPlaces_le_iff {m : Magnitude} {s : ℕ} : decimalPlaces m ≤ s ↔ IsFixed s m.1 := by
  obtain ⟨t, ht⟩ := m.2.2
  exact decimals_le_iff ht

/-- All digits of a magnitude, without an exponent. -/
def plainText (m : Magnitude) : List Char :=
  fixedText (decimalPlaces m) (m.1 * 10 ^ decimalPlaces m).num.natAbs

/-- A magnitude with one digit before the point and an exponent. -/
def exponentialText (m : Magnitude) : List Char :=
  let e := Int.log 10 m.1
  let ds := (Nat.toDigits 10 (m.1 * 10 ^ decimalPlaces m).num.natAbs).rdropWhile (· = '0')
  ds.take 1 ++ (if ds.length ≤ 1 then [] else '.' :: ds.drop 1) ++
    'e' :: (if e < 0 then '-' else '+') :: Nat.toDigits 10 e.natAbs

/-- `decimal.toString()`, which writes an exponent outside the range `1e-60` to `1e60`. -/
def toString : Decimal → String
  | .nan => "NaN"
  | .infinity negative => if negative then "-Infinity" else "Infinity"
  | .finite negative m =>
    let text :=
      if m.1 = 0 then ['0']
      else if Int.log 10 m.1 ≤ -60 ∨ 60 ≤ Int.log 10 m.1 then exponentialText m
      else plainText m
    String.ofList (if negative ∧ m.1 ≠ 0 then '-' :: text else text)

/-- `a.equals(b)`. Zero equals negative zero, and `NaN` equals nothing. -/
def equals : Decimal → Decimal → Bool
  | .finite n₁ m₁, .finite n₂ m₂ => m₁.1 = m₂.1 ∧ (n₁ = n₂ ∨ m₁.1 = 0)
  | .infinity n₁, .infinity n₂ => n₁ = n₂
  | _, _ => false

end Decimal

/-- What `decimal.js` does with a text that is no decimal literal, after its sign was taken off. -/
structure DecimalJs where
  parseOther : Bool → List Char → Option Decimal

/-- `new Decimal(text)`. -/
def Decimal.ofText (js : DecimalJs) (text : String) : Except JsError Decimal :=
  let unsigned (negative : Bool) (cs : List Char) : Except JsError Decimal :=
    match literal cs with
    | some d => .ok (.finite negative (Scientific.magnitude d))
    | none =>
      match js.parseOther negative cs with
      | some d => .ok d
      | none => .error (.error s!"[DecimalError] Invalid argument: {String.ofList cs}")
  match text.toList with
  | '-' :: cs => unsigned true cs
  | '+' :: cs => unsigned false cs
  | cs => unsigned false cs

/-- A literal after an optional sign is read as the number it denotes. -/
theorem Decimal.ofText_of_denotesSigned (js : DecimalJs) {text : String} {q : ℚ}
    (h : DenotesSigned text.toList q) :
    ∃ (negative : Bool) (m : Magnitude), signedValue negative m.1 = q ∧
      Decimal.ofText js text = .ok (.finite negative m) := by
  obtain ⟨⟨negative, d⟩, hd, rfl⟩ := h
  refine ⟨negative, Scientific.magnitude d, rfl, ?_⟩
  unfold Decimal.ofText
  split
  · rename_i cs hcs
    rw [hcs] at hd
    obtain ⟨d', hliteral, heq⟩ := Option.map_eq_some_iff.1 hd
    cases heq
    simp only [hliteral]
  · rename_i cs hcs
    rw [hcs] at hd
    obtain ⟨d', hliteral, heq⟩ := Option.map_eq_some_iff.1 hd
    cases heq
    simp only [hliteral]
  · rename_i hminus hplus
    unfold signedLiteral at hd
    split at hd
    · exact absurd ‹_› (hminus _)
    · exact absurd ‹_› (hplus _)
    · obtain ⟨d', hliteral, heq⟩ := Option.map_eq_some_iff.1 hd
      cases heq
      simp only [hliteral]

/-- A decimal literal is read as the number it denotes. -/
theorem Decimal.ofText_of_denotes (js : DecimalJs) {text : String} {q : ℚ}
    (h : Denotes text.toList q) :
    ∃ m : Magnitude, m.1 = q ∧ Decimal.ofText js text = .ok (.finite false m) := by
  obtain ⟨d, hd, rfl⟩ := h
  refine ⟨Scientific.magnitude d, rfl, ?_⟩
  unfold Decimal.ofText
  split
  · rename_i cs hcs
    rw [hcs, literal_sign (.inl rfl)] at hd
    cases hd
  · rename_i cs hcs
    rw [hcs, literal_sign (.inr rfl)] at hd
    cases hd
  · simp only [hd]

/-- Two finite decimals are equal when they denote one number. -/
theorem Decimal.equals_finite (n₁ n₂ : Bool) (m₁ m₂ : Magnitude) :
    Decimal.equals (.finite n₁ m₁) (.finite n₂ m₂) =
      decide (signedValue n₁ m₁.1 = signedValue n₂ m₂.1) := by
  have h₁ := m₁.2.1
  have h₂ := m₂.2.1
  rw [Decimal.equals, decide_eq_decide]
  -- of opposite signs, only zeros are equal
  cases n₁ <;> cases n₂ <;> simp only [signedValue, Bool.false_eq_true, if_false, if_true]
  · simp
  · constructor
    · rintro ⟨heq, hzero⟩
      have hzero : m₁.1 = 0 := by simpa using hzero
      linarith
    · intro heq
      exact ⟨by linarith, .inr (by linarith)⟩
  · constructor
    · rintro ⟨heq, hzero⟩
      have hzero : m₁.1 = 0 := by simpa using hzero
      linarith
    · intro heq
      exact ⟨by linarith, .inr (by linarith)⟩
  · simp

/-! ### Money -/

/-- An exact amount of an asset. -/
@[ext] structure Money where
  asset : Asset
  amount : ℚ
  nonneg : 0 ≤ amount
  fixed : IsFixed asset.scale amount
  deriving DecidableEq

namespace Money

/-- Nothing of an asset. -/
def zero (asset : Asset) : Money := ⟨asset, 0, le_rfl, IsFixed.zero _⟩

/-- `Money.of` on a decimal that was constructed already. -/
def ofDecimal (decimal : Decimal) (asset : Asset) : Except JsError Money :=
  match decimal with
  | .nan | .infinity _ =>
    .error (.error s!"Money amount must be finite, got \"{decimal.toString}\"")
  | .finite negative m =>
    if negative then
      .error (.error s!"Money amount must not be negative, got \"{decimal.toString}\"")
    else if h : Decimal.decimalPlaces m > asset.scale then
      .error (.error (s!"Amount \"{decimal.toString}\" exceeds {asset.code} scale of " ++
        s!"{asset.scale} decimal places"))
    else .ok ⟨asset, m.1, m.2.1, Decimal.decimalPlaces_le_iff.1 (Nat.le_of_not_lt h)⟩

/-- `Money.of(text, asset)`. -/
def of (js : DecimalJs) (text : String) (asset : Asset) : Except JsError Money := do
  let decimal ← Decimal.ofText js text
  ofDecimal decimal asset

/-- An amount has the asset it was read for. -/
theorem ofDecimal_asset {decimal : Decimal} {asset : Asset} {m : Money}
    (h : ofDecimal decimal asset = .ok m) : m.asset = asset := by
  unfold ofDecimal at h
  split at h
  · cases h
  · cases h
  · split_ifs at h
    cases h
    rfl

theorem of_asset {js : DecimalJs} {text : String} {asset : Asset} {m : Money}
    (h : of js text asset = .ok m) : m.asset = asset := by
  obtain ⟨decimal, -, hm⟩ := except_bind_eq_ok.1 h
  exact ofDecimal_asset hm

/-- A text that denotes an amount of the asset is read as that amount. -/
theorem of_denotes (js : DecimalJs) {text : String} {m : Money}
    (h : Denotes text.toList m.amount) : of js text m.asset = .ok m := by
  obtain ⟨d, hd, htext⟩ := Decimal.ofText_of_denotes js h
  have hplaces : ¬ Decimal.decimalPlaces d > m.asset.scale :=
    not_lt.2 (Decimal.decimalPlaces_le_iff.2 (hd ▸ m.fixed))
  rw [of, htext]
  simp only [bind, Except.bind, ofDecimal, Bool.false_eq_true, if_false, dif_neg hplaces]
  exact congrArg Except.ok (Money.ext rfl hd)

/-- `m.toDecimal()`. An amount that has overflown is infinite. -/
def toDecimal (m : Money) : Decimal := Decimal.finalise ⟨m.amount, m.nonneg, _, m.fixed⟩

/-- An amount with a number of decimals that the library can round to has not overflown exactly when
its exponent is not too large. -/
theorem toDecimal_eq_finite_iff {m : Money} (hscale : m.asset.scale ≤ Decimal.MAX_DIGITS)
    {q : Magnitude} :
    m.toDecimal = .finite false q ↔ m.amount = q.1 ∧ Int.log 10 m.amount ≤ Decimal.maxE := by
  have hlow : ¬ Int.log 10 m.amount < -Decimal.maxE := by
    have hlog := Decimal.neg_le_log m.nonneg m.fixed
    have hdigits : Decimal.MAX_DIGITS ≤ Decimal.maxE := by decide
    omega
  rw [toDecimal, Decimal.finalise]
  split_ifs with hhigh
  · exact ⟨fun h ↦ (by cases h), fun h ↦ absurd h.2 (not_le.2 hhigh)⟩
  · rw [Decimal.finite.injEq, Subtype.ext_iff]
    exact ⟨fun h ↦ ⟨h.2, not_lt.1 hhigh⟩, fun h ↦ ⟨rfl, h.1⟩⟩

/-- The amount has not overflown. -/
def IsFinite (m : Money) : Prop := m.toDecimal = .finite false ⟨m.amount, m.nonneg, _, m.fixed⟩

/-- An amount in range has not overflown. -/
theorem isFinite_of_inRange {m : Money} (h : Decimal.InRange m.amount) : m.IsFinite :=
  Decimal.finalise_of_inRange h

theorem isFinite_zero (asset : Asset) : (zero asset).IsFinite :=
  isFinite_of_inRange (by simp [zero, Decimal.InRange])

/-- The amounts are never negative, so what is not zero is positive. -/
def isZero (m : Money) : Bool := m.amount = 0

/-- The amount counted in the last decimal of the asset. -/
def units (m : Money) : ℕ := (m.amount * 10 ^ m.asset.scale).num.natAbs

/-- An amount is a whole number of units. -/
theorem amount_eq_units (m : Money) : m.amount = m.units / 10 ^ m.asset.scale := by
  obtain ⟨n, hn⟩ := m.fixed.exists_nat m.nonneg
  have hunits : m.amount * 10 ^ m.asset.scale = (n : ℕ) := by
    rw [hn, div_mul_cancel₀ _ (by positivity)]
  rw [units, hunits, Rat.num_natCast, Int.natAbs_natCast]
  exact hn

/-- `m.toString()`: all decimals of the asset. -/
def toString (m : Money) : String := String.ofList (fixedText m.asset.scale m.units)

/-- Thrown when two amounts of different assets meet. -/
def differentAssets (m other : Money) (operation : String) : JsError :=
  .error (s!"Cannot {operation} Money of different assets: " ++
    s!"{m.asset.code} and {other.asset.code}")

/-- `m.add(other)`. -/
def add (m other : Money) : Except JsError Money :=
  if h : m.asset = other.asset then
    .ok ⟨m.asset, roundSig Decimal.precision (m.amount + other.amount),
      roundSig_nonneg _ (add_nonneg m.nonneg other.nonneg),
      (m.fixed.add (h ▸ other.fixed)).roundSig _⟩
  else .error (m.differentAssets other "add")

/-- `m.subtract(other)`. Throws if the result would be negative. -/
def subtract (m other : Money) : Except JsError Money :=
  if h : m.asset = other.asset then
    let result := roundSig Decimal.precision (m.amount - other.amount)
    if hneg : result < 0 then
      .error (.error (s!"Subtracting {other.toString} from {m.toString} would produce a " ++
        s!"negative {m.asset.code} amount"))
    else .ok ⟨m.asset, result, not_lt.1 hneg, (m.fixed.sub (h ▸ other.fixed)).roundSig _⟩
  else .error (m.differentAssets other "subtract")

/-- `≥` within one asset; amounts of different assets throw. -/
def isGreaterThanOrEqual (m other : Money) : Except JsError Bool :=
  if m.asset = other.asset then .ok (other.amount ≤ m.amount)
  else .error (m.differentAssets other "compare")

/-- `<` within one asset; amounts of different assets throw. -/
def isLessThan (m other : Money) : Except JsError Bool :=
  if m.asset = other.asset then .ok (m.amount < other.amount)
  else .error (m.differentAssets other "compare")

/-- The same asset and the same amount. It never throws. -/
def equals (m other : Money) : Bool := m.asset = other.asset ∧ m.amount = other.amount

/-- Thrown for a rate that is no finite positive number. -/
def invalidRate (rate : Decimal) : JsError :=
  .error s!"Exchange rate must be a finite positive number, got \"{rate.toString}\""

/-- Thrown by `decimal.toDecimalPlaces(scale)`. -/
def invalidScale (scale : ℕ) : JsError := .error s!"[DecimalError] Invalid argument: {scale}"

/-- `m.convert(rate, targetAsset)`: the rounded product, cut off to the decimals of the target.
Where the product has overflown, so has the amount. -/
def convert (m : Money) (rate : Decimal) (targetAsset : Asset) : Except JsError Money :=
  match rate with
  | .finite negative r =>
    if negative ∨ r.1 = 0 then .error (invalidRate rate)
    else if Decimal.MAX_DIGITS < targetAsset.scale then .error (invalidScale targetAsset.scale)
    else
      let product := roundSig Decimal.precision (m.amount * r.1)
      .ok ⟨targetAsset, ⌊product * 10 ^ targetAsset.scale⌋ / 10 ^ targetAsset.scale,
        div_nonneg (Int.cast_nonneg (Int.floor_nonneg.2 (mul_nonneg
          (roundSig_nonneg _ (mul_nonneg m.nonneg r.2.1)) (by positivity)))) (by positivity),
        ⟨_, rfl⟩⟩
  | _ => .error (invalidRate rate)

/-- **Everything a conversion that does not throw has computed.** -/
theorem convert_eq_ok {m result : Money} {rate : Decimal} {target : Asset}
    (h : m.convert rate target = .ok result) :
    ∃ r : Magnitude, rate = .finite false r ∧ r.1 ≠ 0 ∧ target.scale ≤ Decimal.MAX_DIGITS ∧
      result.asset = target ∧ result.amount =
        ⌊roundSig Decimal.precision (m.amount * r.1) * 10 ^ target.scale⌋ / 10 ^ target.scale := by
  unfold convert at h
  split at h
  · rename_i negative r
    split at h
    · cases h
    · rename_i hvalid
      split at h
      · cases h
      · rename_i hscale
        cases h
        rw [not_or, Bool.not_eq_true] at hvalid
        exact ⟨r, by rw [hvalid.1], hvalid.2, not_lt.1 hscale, rfl, rfl⟩
  · cases h

/-! ### Texts of money -/

/-- The text of an amount denotes it. -/
theorem denotes_toString (m : Money) : Denotes m.toString.toList m.amount := by
  rw [toString, String.toList_ofList, m.amount_eq_units]
  exact denotes_fixedText _ _

/-- **What `toString` writes, `of` reads.** -/
theorem of_toString (js : DecimalJs) (m : Money) : of js m.toString m.asset = .ok m :=
  of_denotes js m.denotes_toString

end Money

/-- `decimal.replace(/\.?0+$/, '')` on a text with a point. -/
def trimTrailingZeros (decimal : String) : String :=
  String.ofList (dropTrailingZeros decimal.toList)

namespace Money

/-- So does the shortened text. -/
theorem denotes_trimTrailingZeros (m : Money) :
    Denotes (trimTrailingZeros m.toString).toList m.amount := by
  rw [trimTrailingZeros, toString, String.toList_ofList, String.toList_ofList, m.amount_eq_units]
  exact denotes_dropTrailingZeros _ _

/-- **The shortened text is read as the same money.** -/
theorem of_trimTrailingZeros (js : DecimalJs) (m : Money) :
    of js (trimTrailingZeros m.toString) m.asset = .ok m :=
  of_denotes js m.denotes_trimTrailingZeros

/-! ### Exactness

A sum or difference with at most 40 significant digits is exact. -/

section Exact

variable {m other : Money} {n : ℕ}

/-- What an addition that does not throw has computed. -/
theorem add_eq_ok {result : Money} (h : m.add other = .ok result) :
    m.asset = other.asset ∧ result.asset = m.asset ∧
      result.amount = roundSig Decimal.precision (m.amount + other.amount) := by
  unfold add at h
  split at h
  · rename_i hasset
    cases h
    exact ⟨hasset, rfl, rfl⟩
  · cases h

theorem add_of_roundSig (hasset : m.asset = other.asset)
    (hround : roundSig Decimal.precision (m.amount + other.amount) = m.amount + other.amount) :
    m.add other = .ok ⟨m.asset, m.amount + other.amount, add_nonneg m.nonneg other.nonneg,
      m.fixed.add (hasset ▸ other.fixed)⟩ := by
  rw [add, dif_pos hasset]
  exact congrArg Except.ok (Money.ext rfl hround)

/-- Sums below a power of ten are exact. -/
theorem add_exact (hasset : m.asset = other.asset) (hlt : m.amount + other.amount < 10 ^ n)
    (hn : n + m.asset.scale ≤ Decimal.precision) :
    m.add other = .ok ⟨m.asset, m.amount + other.amount, add_nonneg m.nonneg other.nonneg,
      m.fixed.add (hasset ▸ other.fixed)⟩ :=
  add_of_roundSig hasset (roundSig_eq_self_of_isFixed (m.fixed.add (hasset ▸ other.fixed))
    (by rwa [abs_of_nonneg (add_nonneg m.nonneg other.nonneg)]) hn)

theorem subtract_of_roundSig (hasset : m.asset = other.asset) (hle : other.amount ≤ m.amount)
    (hround : roundSig Decimal.precision (m.amount - other.amount) = m.amount - other.amount) :
    m.subtract other = .ok ⟨m.asset, m.amount - other.amount, sub_nonneg.2 hle,
      m.fixed.sub (hasset ▸ other.fixed)⟩ := by
  have hneg : ¬ roundSig Decimal.precision (m.amount - other.amount) < 0 := by
    rw [hround]
    exact not_lt.2 (sub_nonneg.2 hle)
  rw [subtract, dif_pos hasset]
  simp only [dif_neg hneg]
  exact congrArg Except.ok (Money.ext rfl hround)

theorem isGreaterThanOrEqual_eq (hasset : m.asset = other.asset) :
    m.isGreaterThanOrEqual other = .ok (decide (other.amount ≤ m.amount)) := by
  rw [isGreaterThanOrEqual, if_pos hasset]

/-- Two amounts are equal when asset and number are. -/
@[simp] theorem equals_iff : m.equals other = true ↔ m = other := by
  rw [equals, decide_eq_true_eq, Money.ext_iff]

end Exact

end Money

end WalletConversion
