import Mathlib.Algebra.Ring.Int.Parity
import Mathlib.Data.Int.Log
import Mathlib.Data.Rat.Floor
import Mathlib.Data.List.DropRight
import Mathlib.Tactic.FieldSimp
import Mathlib.Tactic.Linarith
import Mathlib.Tactic.NormNum
import Mathlib.Tactic.Positivity
import Mathlib.Tactic.Ring

/-!
# Decimal numbers and their notation

Exact arithmetic on decimal numbers is arithmetic in `ℚ`. What a decimal library adds is *digits*:
how many decimals a number has, how it is rounded to a number of decimals or of significant digits,
and how it is written and read. This file develops these over `ℚ` and `List Char`.

* `IsFixed s q` — `q` has at most `s` decimals. Closed under sums and differences, monotone in `s`.
* `decimals q` — the number of decimals, by search; `decimals_le_iff` says that for a decimal number
  it is the least `s` with `IsFixed s q`.
* `roundHalfEven`, `roundHalfAway`, `roundSig` — the rounding rules; each is the identity on numbers
  that already fit (`roundSig_eq_self` needs only the leading digit's position).
* `floor_roundSig_iff` — rounding to significant digits and then down to decimals is rounding down
  at once, exactly when no step of the decimals is crossed (`KeepsStep`).
* `RoundedDown.log_le_iff` — rounding down does not change which power of ten a number reaches.
* `literal` — the reader for `digits[.digits][e[±]digits]`, and `fixedText`, the writer with a fixed
  number of decimals. `literal_fixedText` and `denotes_dropTrailingZeros` are the two round trips.
-/

namespace DecimalNotation

/-! ### Numbers with a bounded number of decimals -/

/-- `q` has at most `s` decimals. -/
def IsFixed (s : ℕ) (q : ℚ) : Prop := ∃ n : ℤ, q = n / 10 ^ s

/-- Zero has no decimals. -/
theorem IsFixed.zero (s : ℕ) : IsFixed s 0 := ⟨0, by simp⟩

/-- A whole number has no decimals. -/
theorem IsFixed.intCast (s : ℕ) (n : ℤ) : IsFixed s n :=
  ⟨n * 10 ^ s, by push_cast; field_simp⟩

/-- A sum has no more decimals than its terms. -/
theorem IsFixed.add {s : ℕ} {p q : ℚ} (hp : IsFixed s p) (hq : IsFixed s q) :
    IsFixed s (p + q) := by
  obtain ⟨m, rfl⟩ := hp
  obtain ⟨n, rfl⟩ := hq
  exact ⟨m + n, by push_cast; ring⟩

theorem IsFixed.neg {s : ℕ} {q : ℚ} (hq : IsFixed s q) : IsFixed s (-q) := by
  obtain ⟨n, rfl⟩ := hq
  exact ⟨-n, by push_cast; ring⟩

theorem IsFixed.sub {s : ℕ} {p q : ℚ} (hp : IsFixed s p) (hq : IsFixed s q) :
    IsFixed s (p - q) := by
  rw [sub_eq_add_neg]
  exact hp.add hq.neg

/-- More decimals are allowed. -/
theorem IsFixed.mono {s t : ℕ} (hst : s ≤ t) {q : ℚ} (hq : IsFixed s q) : IsFixed t q := by
  obtain ⟨n, rfl⟩ := hq
  obtain ⟨k, rfl⟩ := Nat.exists_eq_add_of_le hst
  exact ⟨n * 10 ^ k, by push_cast; rw [pow_add]; field_simp⟩

/-- One decimal less after a multiplication by ten. -/
theorem isFixed_succ_iff {s : ℕ} {q : ℚ} : IsFixed (s + 1) q ↔ IsFixed s (q * 10) := by
  constructor
  · rintro ⟨n, rfl⟩
    exact ⟨n, by rw [pow_succ]; field_simp⟩
  · rintro ⟨n, hn⟩
    refine ⟨n, ?_⟩
    rw [pow_succ, ← div_div, ← hn]
    field_simp

/-- A number without decimals is whole. -/
theorem isFixed_zero_iff {q : ℚ} : IsFixed 0 q ↔ q.den = 1 := by
  constructor
  · rintro ⟨n, rfl⟩
    simp
  · intro h
    exact ⟨q.num, by rw [pow_zero, div_one]; exact ((Rat.den_eq_one_iff q).1 h).symm⟩

/-- The units of a nonnegative number with `s` decimals. -/
theorem IsFixed.exists_nat {s : ℕ} {q : ℚ} (hq : IsFixed s q) (h0 : 0 ≤ q) :
    ∃ n : ℕ, q = n / 10 ^ s := by
  obtain ⟨n, rfl⟩ := hq
  have hn : (0 : ℚ) ≤ n := by
    have := mul_nonneg h0 (show (0 : ℚ) ≤ 10 ^ s by positivity)
    rwa [div_mul_cancel₀ _ (by positivity)] at this
  obtain ⟨m, rfl⟩ := Int.eq_ofNat_of_zero_le (Int.cast_nonneg_iff.1 hn)
  exact ⟨m, by simp⟩

/-! ### The number of decimals -/

/-- Multiply by ten until the number is whole, at most `fuel` times. -/
def decimalsAux : ℕ → ℚ → ℕ
  | 0, _ => 0
  | fuel + 1, q => if q.den = 1 then 0 else decimalsAux fuel (q * 10) + 1

/-- The number of decimals of `q`. The denominator of a decimal number shrinks at every
multiplication, so it bounds the search. -/
def decimals (q : ℚ) : ℕ := decimalsAux q.den q

/-- The search for the decimals stops at a number of decimals that is enough. -/
theorem decimalsAux_le {s : ℕ} {q : ℚ} (fuel : ℕ) (h : IsFixed s q) : decimalsAux fuel q ≤ s := by
  induction fuel generalizing s q with
  | zero => exact Nat.zero_le _
  | succ fuel ih =>
    rw [decimalsAux]
    split
    · exact Nat.zero_le _
    · rename_i hden
      cases s with
      | zero => exact absurd (isFixed_zero_iff.1 h) hden
      | succ s => exact Nat.succ_le_succ (ih (isFixed_succ_iff.1 h))

/-- The denominator of a number with `s` decimals divides `10 ^ s`. -/
theorem IsFixed.den_dvd {s : ℕ} {q : ℚ} (h : IsFixed s q) : q.den ∣ 10 ^ s := by
  obtain ⟨n, hn⟩ := h
  have hval : q = Rat.divInt n (10 ^ s) := by
    rw [hn, Rat.divInt_eq_div]
    push_cast
    rfl
  have hdvd := Rat.den_dvd n (10 ^ s)
  rw [← hval] at hdvd
  exact_mod_cast hdvd

/-- Multiplying a decimal number that is not whole by ten shrinks its denominator. -/
theorem den_mul_ten_lt {s : ℕ} {q : ℚ} (h : IsFixed s q) (hq : q.den ≠ 1) :
    (q * 10).den < q.den := by
  have hdvd : (q * 10).den ∣ q.den := by
    have := Rat.mul_den_dvd q 10
    simpa using this
  refine lt_of_le_of_ne (Nat.le_of_dvd q.den_pos hdvd) fun heq ↦ hq ?_
  -- with equal denominators ten would be coprime to the denominator, which divides a power of ten
  have hnum : (q * 10).num = 10 * q.num := by
    have h1 : (q * 10) * q.den = (q * 10).num := by
      rw [← heq]
      exact Rat.mul_den_eq_num _
    have h2 : q * q.den = q.num := Rat.mul_den_eq_num q
    have h3 : ((q * 10).num : ℚ) = 10 * q.num := by
      rw [← h1, ← h2]
      ring
    exact_mod_cast h3
  have hred := (q * 10).reduced
  rw [heq, hnum, Int.natAbs_mul] at hred
  have hcop : Nat.Coprime q.den 10 := (Nat.Coprime.coprime_mul_right hred).symm
  exact Nat.Coprime.eq_one_of_dvd (hcop.pow_right s) h.den_dvd

/-- The search finds enough decimals where it starts with enough fuel. -/
theorem isFixed_decimalsAux {s : ℕ} {q : ℚ} {fuel : ℕ} (h : IsFixed s q) (hf : q.den ≤ fuel) :
    IsFixed (decimalsAux fuel q) q := by
  induction fuel generalizing s q with
  | zero => exact absurd q.den_pos (by omega)
  | succ fuel ih =>
    rw [decimalsAux]
    split
    · rename_i hden
      exact isFixed_zero_iff.2 hden
    · rename_i hden
      have hlt := den_mul_ten_lt h hden
      have hten : IsFixed s (q * 10) := by
        obtain ⟨n, rfl⟩ := h
        exact ⟨n * 10, by push_cast; ring⟩
      exact isFixed_succ_iff.2 (ih hten (by omega))

/-- **The number of decimals**: for a decimal number it is the least bound on its decimals. -/
theorem decimals_le_iff {s t : ℕ} {q : ℚ} (h : IsFixed t q) : decimals q ≤ s ↔ IsFixed s q :=
  ⟨fun hle ↦ (isFixed_decimalsAux h le_rfl).mono hle, decimalsAux_le _⟩

/-! ### Rounding -/

/-- Round to the nearest integer, ties to the even one. -/
def roundHalfEven (q : ℚ) : ℤ :=
  if q - ⌊q⌋ < 1 / 2 then ⌊q⌋
  else if 1 / 2 < q - ⌊q⌋ then ⌊q⌋ + 1
  else if ⌊q⌋ % 2 = 0 then ⌊q⌋ else ⌊q⌋ + 1

@[simp] theorem roundHalfEven_intCast (n : ℤ) : roundHalfEven n = n := by
  simp [roundHalfEven]

/-- Round to the nearest integer, ties away from zero. -/
def roundHalfAway (q : ℚ) : ℤ :=
  if 0 ≤ q then ⌊q + 1 / 2⌋ else ⌈q - 1 / 2⌉

@[simp] theorem roundHalfAway_intCast (n : ℤ) : roundHalfAway n = n := by
  have hfloor : ⌊(n : ℚ) + 1 / 2⌋ = n := by
    rw [Int.floor_eq_iff]
    constructor <;> linarith
  have hceil : ⌈(n : ℚ) - 1 / 2⌉ = n := by
    rw [Int.ceil_eq_iff]
    constructor <;> linarith
  rw [roundHalfAway, hfloor, hceil, ite_self]

/-- Round to `p` significant digits, ties to even. -/
def roundSig (p : ℕ) (q : ℚ) : ℚ :=
  if q = 0 then 0
  else
    let unit : ℚ := 10 ^ (Int.log 10 |q| + 1 - p)
    roundHalfEven (q / unit) * unit

@[simp] theorem roundSig_zero (p : ℕ) : roundSig p 0 = 0 := by simp [roundSig]

/-- **A number that fits is not rounded**: a multiple of `10 ^ k` whose leading digit is less than
`p` places above is its own rounding to `p` significant digits. -/
theorem roundSig_eq_self {p : ℕ} {q : ℚ} {m k : ℤ} (hq : q = m * 10 ^ k)
    (hlead : |q| < 10 ^ (k + p)) : roundSig p q = q := by
  by_cases h0 : q = 0
  · rw [h0, roundSig_zero]
  · have hpos : 0 < |q| := abs_pos.2 h0
    have hlog : Int.log 10 |q| < k + p :=
      (Int.lt_zpow_iff_log_lt (by norm_num) hpos).1 (by exact_mod_cast hlead)
    obtain ⟨j, hj⟩ := Int.eq_ofNat_of_zero_le
      (show 0 ≤ k - (Int.log 10 |q| + 1 - p) by omega)
    have hunit : (10 : ℚ) ^ (Int.log 10 |q| + 1 - p) ≠ 0 := zpow_ne_zero _ (by norm_num)
    have hdiv : q / 10 ^ (Int.log 10 |q| + 1 - p) = ((m * 10 ^ j : ℤ) : ℚ) := by
      rw [div_eq_iff hunit]
      nth_rewrite 1 [hq]
      push_cast
      rw [mul_assoc, ← zpow_natCast (10 : ℚ) j, ← zpow_add₀ (by norm_num : (10 : ℚ) ≠ 0)]
      congr 2
      omega
    rw [roundSig, if_neg h0]
    simp only
    rw [hdiv, roundHalfEven_intCast, ← hdiv, div_mul_cancel₀ _ hunit]

/-- `q` has at most `p` significant digits. -/
def HasDigits (p : ℕ) (q : ℚ) : Prop := ∃ n k : ℤ, q = n * 10 ^ k ∧ |n| < 10 ^ p

/-- A number with few digits is not rounded. -/
theorem HasDigits.roundSig {p : ℕ} {q : ℚ} (h : HasDigits p q) : roundSig p q = q := by
  obtain ⟨n, k, hq, hlt⟩ := h
  refine roundSig_eq_self hq ?_
  have hpow : (0 : ℚ) < 10 ^ k := zpow_pos (by norm_num) _
  have hlt' : |(n : ℚ)| < 10 ^ p := by exact_mod_cast hlt
  rw [hq, abs_mul, abs_of_pos hpow, add_comm, zpow_add₀ (by norm_num), zpow_natCast]
  exact mul_lt_mul_of_pos_right hlt' hpow

/-- A number with `s` decimals below `10 ^ (p - s)` has at most `p` significant digits. -/
theorem HasDigits.of_isFixed {p s n : ℕ} {q : ℚ} (hq : IsFixed s q) (hlt : |q| < 10 ^ n)
    (hp : n + s ≤ p) : HasDigits p q := by
  obtain ⟨m, rfl⟩ := hq
  have hpos : (0 : ℚ) < 10 ^ s := by positivity
  refine ⟨m, -s, by rw [zpow_neg, zpow_natCast]; rfl, ?_⟩
  rw [abs_div, abs_of_pos hpos, div_lt_iff₀ hpos, ← pow_add] at hlt
  exact_mod_cast hlt.trans_le (pow_le_pow_right₀ (by norm_num) hp)

/-- A number with few decimals that is not too large is not rounded. -/
theorem roundSig_eq_self_of_isFixed {p s n : ℕ} {q : ℚ} (hq : IsFixed s q) (hlt : |q| < 10 ^ n)
    (hp : n + s ≤ p) : roundSig p q = q :=
  (HasDigits.of_isFixed hq hlt hp).roundSig

theorem roundHalfEven_nonneg {q : ℚ} (h : 0 ≤ q) : 0 ≤ roundHalfEven q := by
  have hfloor : 0 ≤ ⌊q⌋ := Int.floor_nonneg.2 h
  unfold roundHalfEven
  split_ifs <;> omega

theorem roundSig_nonneg (p : ℕ) {q : ℚ} (h : 0 ≤ q) : 0 ≤ roundSig p q := by
  unfold roundSig
  split
  · exact le_rfl
  · have hunit : (0 : ℚ) ≤ 10 ^ (Int.log 10 |q| + 1 - p) := zpow_nonneg (by norm_num) _
    exact mul_nonneg (Int.cast_nonneg (roundHalfEven_nonneg (div_nonneg h hunit))) hunit

/-- Rounding to significant digits adds no decimals. -/
theorem IsFixed.roundSig {s : ℕ} {q : ℚ} (p : ℕ) (h : IsFixed s q) : IsFixed s (roundSig p q) := by
  by_cases h0 : q = 0
  · rw [h0, roundSig_zero]
    exact IsFixed.zero s
  rcases Int.le_total (-s) (Int.log 10 |q| + 1 - p) with hk | hk
  · -- the unit of the last digit kept is a multiple of the last decimal
    obtain ⟨j, hj⟩ := Int.eq_ofNat_of_zero_le (show 0 ≤ Int.log 10 |q| + 1 - p + s by omega)
    refine ⟨roundHalfEven (q / 10 ^ (Int.log 10 |q| + 1 - p)) * 10 ^ j, ?_⟩
    have hunit : (10 : ℚ) ^ (Int.log 10 |q| + 1 - p) = 10 ^ j / 10 ^ s := by
      rw [eq_div_iff (by positivity), ← zpow_natCast, ← zpow_natCast,
        ← zpow_add₀ (by norm_num : (10 : ℚ) ≠ 0), hj]
    rw [DecimalNotation.roundSig, if_neg h0]
    simp only
    rw [hunit]
    push_cast
    ring
  · -- every decimal is kept
    obtain ⟨m, hm⟩ := h
    have hself : DecimalNotation.roundSig p q = q := by
      refine roundSig_eq_self (m := m) (k := -s) (by rw [hm, zpow_neg, zpow_natCast]; rfl) ?_
      have hlog : |q| < ((10 : ℕ) : ℚ) ^ (Int.log 10 |q| + 1) :=
        Int.lt_zpow_succ_log_self (by norm_num) _
      refine lt_of_lt_of_le hlog ?_
      exact_mod_cast zpow_le_zpow_right₀ (by norm_num : (1 : ℚ) ≤ 10) (by omega)
    rw [hself]
    exact ⟨m, hm⟩

/-! ### Two roundings in a row -/

/-- The place value of the `p`th significant digit. -/
def lastPlace (p : ℕ) (q : ℚ) : ℚ := 10 ^ (Int.log 10 |q| + 1 - p)

/-- `r` is `q` rounded down to `s` decimals, as far as its value tells. -/
def RoundedDown (s : ℕ) (q r : ℚ) : Prop := r ≤ q ∧ q - r < 1 / 10 ^ s

instance (s : ℕ) (q r : ℚ) : Decidable (RoundedDown s q r) :=
  inferInstanceAs (Decidable (_ ∧ _))

/-- Rounding `q` to `p` significant digits does not change what it is rounded down to: where the
last digit kept is behind the `s`th decimal, `q` stays clear of the next step of `s` decimals;
elsewhere the digits cut off are worth less than a step. -/
def KeepsStep (p s : ℕ) (q : ℚ) : Prop :=
  if lastPlace p q ≤ 1 / 10 ^ s then
    q + lastPlace p q / 2 < (⌊q * 10 ^ s⌋ + 1) / 10 ^ s ∨
      (lastPlace p q = 1 / 10 ^ s ∧ q + lastPlace p q / 2 = (⌊q * 10 ^ s⌋ + 1) / 10 ^ s ∧
        Even ⌊q * 10 ^ s⌋)
  else q - ⌊q / lastPlace p q⌋ * lastPlace p q < 1 / 10 ^ s

instance (p s : ℕ) (q : ℚ) : Decidable (KeepsStep p s q) :=
  show Decidable (if lastPlace p q ≤ 1 / 10 ^ s then _ else _) from inferInstance

theorem lastPlace_pos (p : ℕ) (q : ℚ) : 0 < lastPlace p q := zpow_pos (by norm_num) _

/-- Rounding to significant digits is rounding to a whole number of last places. -/
theorem roundSig_eq (p : ℕ) (q : ℚ) :
    roundSig p q = roundHalfEven (q / lastPlace p q) * lastPlace p q := by
  by_cases h : q = 0
  · rw [h, roundSig_zero, zero_div, show (0 : ℚ) = ((0 : ℤ) : ℚ) by norm_num,
      roundHalfEven_intCast]
    simp
  · rw [roundSig, if_neg h, lastPlace]

/-- A value is rounded down exactly when it has the steps of the number. -/
theorem roundedDown_iff (s : ℕ) (q : ℚ) (n : ℤ) :
    RoundedDown s q (n / 10 ^ s) ↔ n = ⌊q * 10 ^ s⌋ := by
  have hpos : (0 : ℚ) < 10 ^ s := by positivity
  rw [RoundedDown, eq_comm, Int.floor_eq_iff, div_le_iff₀ hpos, sub_lt_iff_lt_add, ← add_div,
    lt_div_iff₀ hpos, add_comm (1 : ℚ)]

/-- Rounding down does not change how large a number is, where the steps are finer than the digit
before the point: powers of ten are multiples of a step. -/
theorem RoundedDown.log_le_iff {s e : ℕ} {q : ℚ} {n : ℤ} (h : RoundedDown s q (n / 10 ^ s))
    (hn : 0 ≤ n) : Int.log 10 (n / 10 ^ s : ℚ) ≤ e ↔ Int.log 10 q ≤ e := by
  have hpos : (0 : ℚ) < 10 ^ s := by positivity
  have hnonneg : (0 : ℚ) ≤ n / 10 ^ s := by positivity
  constructor
  · intro hlog
    rcases (hnonneg.trans h.1).eq_or_lt with h0 | hq
    · simp [← h0]
    -- the next step is no further than the next power of ten
    have hlt : (n / 10 ^ s : ℚ) < 10 ^ (e + 1) := by
      have hself := Int.lt_zpow_succ_log_self (R := ℚ) (b := 10) (by norm_num) (n / 10 ^ s)
      calc (n / 10 ^ s : ℚ) < 10 ^ (Int.log 10 (n / 10 ^ s : ℚ) + 1) := by exact_mod_cast hself
        _ ≤ 10 ^ ((e + 1 : ℕ) : ℤ) := zpow_le_zpow_right₀ (by norm_num) (by push_cast; omega)
        _ = 10 ^ (e + 1) := zpow_natCast _ _
    rw [div_lt_iff₀ hpos, ← pow_add] at hlt
    have hnext : n + 1 ≤ 10 ^ (e + 1 + s) := Int.add_one_le_iff.2 (by exact_mod_cast hlt)
    have hq' : q < 10 ^ (e + 1) := by
      calc q < n / 10 ^ s + 1 / 10 ^ s := by linarith [h.2]
        _ = (n + 1) / 10 ^ s := by ring
        _ ≤ 10 ^ (e + 1) := by
          rw [div_le_iff₀ hpos, ← pow_add]
          exact_mod_cast hnext
    have := (Int.lt_zpow_iff_log_lt (b := 10) (x := ((e + 1 : ℕ) : ℤ)) (by norm_num) hq).1
      (by rw [zpow_natCast]; exact_mod_cast hq')
    push_cast at this
    omega
  · intro hlog
    rcases hnonneg.eq_or_lt with h0 | hpos'
    · simp [← h0]
    · exact (Int.log_mono_right hpos' h.1).trans hlog

/-- Cutting off decimals makes no number larger. -/
theorem floor_div_le (s : ℕ) (q : ℚ) : (⌊q * 10 ^ s⌋ : ℚ) / 10 ^ s ≤ q := by
  rw [div_le_iff₀ (by positivity)]
  exact Int.floor_le _

/-- What is rounded half to even is the floor or the next whole number, and which of them. -/
theorem roundHalfEven_cases (q : ℚ) :
    (roundHalfEven q = ⌊q⌋ ∧ (q < ⌊q⌋ + 1 / 2 ∨ (q = ⌊q⌋ + 1 / 2 ∧ Even ⌊q⌋))) ∨
    (roundHalfEven q = ⌊q⌋ + 1 ∧ (⌊q⌋ + 1 / 2 < q ∨ (q = ⌊q⌋ + 1 / 2 ∧ ¬ Even ⌊q⌋))) := by
  unfold roundHalfEven
  rw [Int.even_iff]
  split_ifs with h₁ h₂ h₃
  · exact Or.inl ⟨rfl, Or.inl (by linarith)⟩
  · exact Or.inr ⟨rfl, Or.inl (by linarith)⟩
  · exact Or.inl ⟨rfl, Or.inr ⟨by linarith, h₃⟩⟩
  · exact Or.inr ⟨rfl, Or.inr ⟨by linarith, h₃⟩⟩

/-- Rounding half to even moves a number by at most one half. -/
theorem abs_roundHalfEven_sub_le (q : ℚ) : |(roundHalfEven q : ℚ) - q| ≤ 1 / 2 := by
  have hlow := Int.floor_le q
  have hhigh := Int.lt_floor_add_one q
  rw [abs_le]
  rcases roundHalfEven_cases q with ⟨h, hlt | ⟨heq, -⟩⟩ | ⟨h, hlt | ⟨heq, -⟩⟩ <;> rw [h] <;>
    push_cast <;> constructor <;> linarith

/-- Rounding to significant digits moves a number by half a unit of the last digit at most. -/
theorem abs_roundSig_sub_le (p : ℕ) (q : ℚ) : |roundSig p q - q| ≤ lastPlace p q / 2 := by
  have hpos := lastPlace_pos p q
  have hfactor : roundSig p q - q =
      (roundHalfEven (q / lastPlace p q) - q / lastPlace p q) * lastPlace p q := by
    rw [roundSig_eq, sub_mul, div_mul_cancel₀ _ hpos.ne']
  rw [hfactor, abs_mul, abs_of_pos hpos]
  calc |(roundHalfEven (q / lastPlace p q) : ℚ) - q / lastPlace p q| * lastPlace p q
      ≤ 1 / 2 * lastPlace p q := mul_le_mul_of_nonneg_right (abs_roundHalfEven_sub_le _) hpos.le
    _ = lastPlace p q / 2 := by ring

/-- The last place is small relative to the number. -/
theorem lastPlace_le {p : ℕ} {q : ℚ} (h : 0 < q) : lastPlace p q ≤ q * 10 ^ (1 - (p : ℤ)) := by
  have hlog : (10 : ℚ) ^ Int.log 10 |q| ≤ |q| := by
    exact_mod_cast Int.zpow_log_le_self (by norm_num) (abs_pos.2 h.ne')
  rw [abs_of_pos h] at hlog
  rw [lastPlace, abs_of_pos h, add_sub_assoc, zpow_add₀ (by norm_num)]
  exact mul_le_mul_of_nonneg_right hlog (zpow_nonneg (by norm_num) _)

/-- Where the last digit kept is behind the step, only reaching the next step does harm. -/
theorem floor_roundHalfEven_div {y : ℚ} {d : ℕ} (hd : 0 < d) (hodd : Odd d → d = 1) :
    ⌊(roundHalfEven y : ℚ) / d⌋ = ⌊y / d⌋ ↔
      y + 1 / 2 < (⌊y / d⌋ + 1) * d ∨ (d = 1 ∧ y + 1 / 2 = (⌊y / d⌋ + 1) * d ∧ Even ⌊y / d⌋) := by
  have hd' : (0 : ℚ) < d := by exact_mod_cast hd
  set n := ⌊y / d⌋ with hn
  have hlow : (n : ℚ) * d ≤ y := (le_div_iff₀ hd').1 (Int.floor_le _)
  have hhigh : y < (n + 1) * d := (div_lt_iff₀ hd').1 (Int.lt_floor_add_one _)
  have hfloor : n * d ≤ ⌊y⌋ := Int.le_floor.2 (by exact_mod_cast hlow)
  have hnext : ⌊y⌋ + 1 ≤ (n + 1) * d :=
    Int.add_one_le_iff.2 (Int.floor_lt.2 (by exact_mod_cast hhigh))
  -- the rounded value is at least the step, so the question is whether it reaches the next one
  have hiff : ⌊(roundHalfEven y : ℚ) / d⌋ = n ↔ roundHalfEven y < (n + 1) * d := by
    rw [Int.floor_eq_iff, le_div_iff₀ hd', div_lt_iff₀ hd']
    have hge : n * d ≤ roundHalfEven y := by
      rcases roundHalfEven_cases y with ⟨h, -⟩ | ⟨h, -⟩ <;> omega
    constructor
    · rintro ⟨-, h⟩
      exact_mod_cast h
    · intro h
      exact ⟨by exact_mod_cast hge, by exact_mod_cast h⟩
  rw [hiff]
  have hyfloor := Int.floor_le y
  have hylt := Int.lt_floor_add_one y
  have hnext' : (⌊y⌋ : ℚ) + 1 ≤ (n + 1) * d := by exact_mod_cast hnext
  rcases roundHalfEven_cases y with ⟨hround, hcase⟩ | ⟨hround, hcase⟩
  · rw [hround]
    refine ⟨fun _ ↦ ?_, fun _ ↦ by omega⟩
    rcases hcase with hlt | ⟨htie, heven⟩
    · exact Or.inl (by linarith)
    · rcases hnext'.lt_or_eq with hlt | heq
      · exact Or.inl (by linarith)
      · -- a tie below the next step: the step is odd, so it is a single unit
        have hstep : ⌊y⌋ + 1 = (n + 1) * d := by exact_mod_cast heq
        have hodd' : Odd ((n + 1) * (d : ℤ)) := hstep ▸ heven.add_one
        have hd1 : d = 1 := hodd (by exact_mod_cast (Int.odd_mul.1 hodd').2)
        refine Or.inr ⟨hd1, by linarith, ?_⟩
        subst hd1
        have : n = ⌊y⌋ := by push_cast at hstep; omega
        rwa [this]
  · rw [hround]
    constructor
    · intro hlt
      have hlt' : (⌊y⌋ : ℚ) + 1 + 1 ≤ (n + 1) * d := by exact_mod_cast Int.add_one_le_iff.2 hlt
      exact Or.inl (by linarith)
    · rintro (hlt | ⟨rfl, htie, heven⟩)
      · refine lt_of_le_of_ne hnext fun heq ↦ ?_
        have heq' : (⌊y⌋ : ℚ) + 1 = (n + 1) * d := by exact_mod_cast heq
        rcases hcase with h | ⟨h, -⟩ <;> linarith
      · push_cast at htie hnext hfloor ⊢
        have hn' : n = ⌊y⌋ := by
          have h1 : y = n + 1 / 2 := by linarith
          have : ⌊y⌋ = n := by
            rw [Int.floor_eq_iff]
            constructor <;> linarith
          exact this.symm
        rcases hcase with h | ⟨-, h⟩
        · rw [← hn'] at h
          linarith
        · exact absurd (hn' ▸ heven) h

/-- Where the step is behind the last digit kept, rounding up does harm, and so does cutting off a
step or more. -/
theorem roundHalfEven_mul_eq {y : ℚ} {d : ℕ} (hd : 2 ≤ d) :
    roundHalfEven y * d = ⌊y * d⌋ ↔ y - ⌊y⌋ < 1 / d := by
  have hd' : (2 : ℚ) ≤ d := by exact_mod_cast hd
  have hpos : (0 : ℚ) < d := by linarith
  have hhalf : (1 : ℚ) / d ≤ 1 / 2 := one_div_le_one_div_of_le (by norm_num) hd'
  have hyfloor := Int.floor_le y
  have hylt := Int.lt_floor_add_one y
  rw [eq_comm, Int.floor_eq_iff]
  push_cast
  constructor
  · rintro ⟨hle, hlt⟩
    have hround : (roundHalfEven y : ℚ) ≤ y := le_of_mul_le_mul_right hle hpos
    have hfloor : roundHalfEven y = ⌊y⌋ := by
      rcases roundHalfEven_cases y with ⟨h, -⟩ | ⟨h, -⟩
      · exact h
      · rw [h] at hround
        push_cast at hround
        linarith
    rw [hfloor] at hlt
    rw [lt_div_iff₀ hpos]
    linarith
  · intro hlt
    have hfloor : roundHalfEven y = ⌊y⌋ := by
      rcases roundHalfEven_cases y with ⟨h, -⟩ | ⟨-, h | ⟨h, -⟩⟩
      · exact h
      · linarith
      · linarith
    rw [lt_div_iff₀ hpos] at hlt
    rw [hfloor]
    exact ⟨mul_le_mul_of_nonneg_right hyfloor hpos.le, by linarith⟩

/-- **Two roundings are one, exactly when no step is crossed.** -/
theorem floor_roundSig_iff (p s : ℕ) (q : ℚ) :
    ⌊roundSig p q * 10 ^ s⌋ = ⌊q * 10 ^ s⌋ ↔ KeepsStep p s q := by
  have hu := lastPlace_pos p q
  have hs : (0 : ℚ) < 10 ^ s := by positivity
  set u := lastPlace p q with hudef
  rw [roundSig_eq, ← hudef]
  have hq : q = q / u * u := (div_mul_cancel₀ _ hu.ne').symm
  unfold KeepsStep
  rw [← hudef]
  have hulog : u = (10 : ℚ) ^ (Int.log 10 |q| + 1 - p) := rfl
  split_ifs with hle
  · -- a step is a power of ten of the last digit
    obtain ⟨i, hi⟩ : ∃ i : ℕ, u * 10 ^ s = 1 / (10 ^ i : ℕ) := by
      have hexp : Int.log 10 |q| + 1 - p ≤ -s := by
        rw [hulog, one_div, ← zpow_natCast, ← zpow_neg] at hle
        exact (zpow_le_zpow_iff_right₀ (by norm_num)).1 hle
      obtain ⟨i, hi⟩ := Int.eq_ofNat_of_zero_le (show 0 ≤ -s - (Int.log 10 |q| + 1 - p) by omega)
      refine ⟨i, ?_⟩
      rw [hulog, one_div, Nat.cast_pow, ← zpow_natCast, ← zpow_natCast, ← zpow_neg, ← zpow_add₀
        (by norm_num : (10 : ℚ) ≠ 0)]
      congr 1
      omega
    have hd : 0 < 10 ^ i := by positivity
    have hodd : Odd (10 ^ i) → 10 ^ i = 1 := by
      intro hodd
      rcases Nat.eq_zero_or_pos i with rfl | hpos
      · rfl
      · exact absurd hodd (Nat.not_odd_iff_even.2 (Even.pow_of_ne_zero (by decide) hpos.ne'))
    have hdq : (0 : ℚ) < (10 ^ i : ℕ) := by exact_mod_cast hd
    have hmul : ∀ z : ℚ, z * u * 10 ^ s = z / (10 ^ i : ℕ) := fun z ↦ by
      rw [mul_assoc, hi, mul_one_div]
    have hqs : q * 10 ^ s = q / u / (10 ^ i : ℕ) := by
      conv_lhs => rw [hq]
      exact hmul _
    have hstep : (1 : ℚ) / 10 ^ s = u * (10 ^ i : ℕ) := by
      rw [div_eq_iff hs.ne']
      have := hi
      field_simp at this ⊢
      linarith
    rw [hmul, hqs, floor_roundHalfEven_div hd hodd]
    set n := ⌊q / u / (10 ^ i : ℕ)⌋
    have hnext : ((n : ℚ) + 1) / 10 ^ s = (n + 1) * (10 ^ i : ℕ) * u := by
      rw [← mul_one_div, hstep]
      ring
    have hsum : q + u / 2 = (q / u + 1 / 2) * u := by
      rw [add_mul, div_mul_cancel₀ _ hu.ne']
      ring
    rw [hnext, hsum, mul_lt_mul_iff_of_pos_right hu, mul_left_inj' hu.ne', hstep]
    have hone : 10 ^ i = 1 ↔ u = u * (10 ^ i : ℕ) := by
      rw [eq_comm (a := u), mul_eq_left₀ hu.ne', Nat.cast_eq_one]
    rw [hone]
  · -- the last digit is worth a power of ten of steps
    obtain ⟨i, hipos, hi⟩ : ∃ i : ℕ, 0 < i ∧ u * 10 ^ s = (10 ^ i : ℕ) := by
      have hexp : -(s : ℤ) < Int.log 10 |q| + 1 - p := by
        rw [hulog, not_le, one_div, ← zpow_natCast, ← zpow_neg] at hle
        exact (zpow_lt_zpow_iff_right₀ (by norm_num)).1 hle
      obtain ⟨i, hi⟩ := Int.eq_ofNat_of_zero_le (show 0 ≤ Int.log 10 |q| + 1 - p + s by omega)
      refine ⟨i, by omega, ?_⟩
      rw [hulog, Nat.cast_pow, ← zpow_natCast, ← zpow_natCast, ← zpow_add₀
        (by norm_num : (10 : ℚ) ≠ 0)]
      congr 1
    have hd : 2 ≤ 10 ^ i := le_trans (by norm_num) (Nat.pow_le_pow_right (by norm_num) hipos)
    have hmul : ∀ z : ℚ, z * u * 10 ^ s = z * (10 ^ i : ℕ) := fun z ↦ by rw [mul_assoc, hi]
    have hqs : q * 10 ^ s = q / u * (10 ^ i : ℕ) := by
      conv_lhs => rw [hq]
      exact hmul _
    have hstep : (1 : ℚ) / 10 ^ s = 1 / (10 ^ i : ℕ) * u := by
      rw [← hi]
      field_simp
    have hrest : q - ⌊q / u⌋ * u = (q / u - ⌊q / u⌋) * u := by
      rw [sub_mul, div_mul_cancel₀ _ hu.ne']
    rw [hmul, hqs, hrest, hstep, mul_lt_mul_iff_of_pos_right hu, ← roundHalfEven_mul_eq hd]
    have hcast : ((roundHalfEven (q / u) : ℤ) : ℚ) * ((10 ^ i : ℕ) : ℚ) =
        ((roundHalfEven (q / u) * (10 ^ i : ℕ) : ℤ) : ℚ) := by push_cast; ring
    rw [hcast, Int.floor_intCast]

/-! ### Reading -/

/-- What a literal says: a coefficient and a power of ten. -/
structure Scientific where
  coefficient : ℕ
  exponent : ℤ
  deriving DecidableEq

/-- The number a literal stands for. -/
def Scientific.value (d : Scientific) : ℚ := d.coefficient * 10 ^ d.exponent

theorem Scientific.value_nonneg (d : Scientific) : 0 ≤ d.value :=
  mul_nonneg (Nat.cast_nonneg _) (zpow_nonneg (by norm_num) _)

/-- A literal has finitely many decimals. -/
theorem Scientific.isFixed (d : Scientific) : ∃ s, IsFixed s d.value := by
  rcases Int.le_total 0 d.exponent with h | h
  · obtain ⟨k, hk⟩ := Int.eq_ofNat_of_zero_le h
    refine ⟨0, (d.coefficient * 10 ^ k : ℕ), ?_⟩
    rw [Scientific.value, hk]
    push_cast
    rw [zpow_natCast, pow_zero, div_one]
  · obtain ⟨k, hk⟩ := Int.exists_eq_neg_ofNat h
    refine ⟨k, d.coefficient, ?_⟩
    rw [Scientific.value, hk, zpow_neg, zpow_natCast]
    rfl

/-- A non-empty run of digits. -/
def digits? (cs : List Char) : Option ℕ :=
  if cs ≠ [] ∧ cs.all Char.isDigit then some (Nat.ofDigitChars 10 cs 0) else none

/-- The optional exponent that ends a literal. -/
def exponent? : List Char → Option ℤ
  | [] => some 0
  | c :: cs =>
    if c = 'e' ∨ c = 'E' then
      match cs with
      | '+' :: ds => (digits? ds).map Int.ofNat
      | '-' :: ds => (digits? ds).map fun n ↦ -(n : ℤ)
      | ds => (digits? ds).map Int.ofNat
    else none

/-- The digits before and after the point, and the exponent after them. -/
def scientific (ip fp : List Char) (e : ℤ) : Scientific where
  coefficient := Nat.ofDigitChars 10 (ip ++ fp) 0
  exponent := e - fp.length

/-- An unsigned decimal literal: digits, optionally with a point, optionally with an exponent. There
must be a digit before or after the point. -/
def literal (cs : List Char) : Option Scientific :=
  let ip := cs.takeWhile Char.isDigit
  match cs.dropWhile Char.isDigit with
  | '.' :: rest =>
    let fp := rest.takeWhile Char.isDigit
    if ip = [] ∧ fp = [] then none
    else (exponent? (rest.dropWhile Char.isDigit)).map (scientific ip fp)
  | rest =>
    if ip = [] then none
    else (exponent? rest).map (scientific ip [])

/-- The text is a literal for the number. -/
def Denotes (cs : List Char) (q : ℚ) : Prop := ∃ d, literal cs = some d ∧ d.value = q

/-- A literal after an optional sign, and whether the sign is a minus. -/
def signedLiteral (cs : List Char) : Option (Bool × Scientific) :=
  match cs with
  | '-' :: ds => (literal ds).map (true, ·)
  | '+' :: ds => (literal ds).map (false, ·)
  | ds => (literal ds).map (false, ·)

/-- The number with its sign. -/
def signedValue (negative : Bool) (q : ℚ) : ℚ := if negative then -q else q

/-- The text is a literal for the number, perhaps after a sign. -/
def DenotesSigned (cs : List Char) (q : ℚ) : Prop :=
  ∃ d, signedLiteral cs = some d ∧ signedValue d.1 d.2.value = q

/-- A text denotes one number. -/
theorem DenotesSigned.unique {cs : List Char} {q r : ℚ} (hq : DenotesSigned cs q)
    (hr : DenotesSigned cs r) : q = r := by
  obtain ⟨d, hd, rfl⟩ := hq
  obtain ⟨d', hd', rfl⟩ := hr
  rw [hd] at hd'
  cases hd'
  rfl

/-- A literal has no sign of its own. -/
theorem literal_sign {c : Char} (hc : c = '-' ∨ c = '+') (cs : List Char) :
    literal (c :: cs) = none := by
  rcases hc with rfl | rfl <;> simp [literal]

/-- A literal needs no sign. -/
theorem signedLiteral_of_literal {cs : List Char} {d : Scientific} (h : literal cs = some d) :
    signedLiteral cs = some (false, d) := by
  unfold signedLiteral
  split
  · rw [literal_sign (.inl rfl)] at h
    cases h
  · rw [literal_sign (.inr rfl)] at h
    cases h
  · rw [h]
    rfl

/-- A text without a sign denotes the same number when signs are read. -/
theorem Denotes.signed {cs : List Char} {q : ℚ} (h : Denotes cs q) : DenotesSigned cs q := by
  obtain ⟨d, hd, rfl⟩ := h
  exact ⟨(false, d), signedLiteral_of_literal hd, rfl⟩

/-- A minus sign negates. -/
theorem Denotes.negated {cs : List Char} {q : ℚ} (h : Denotes cs q) :
    DenotesSigned ('-' :: cs) (-q) := by
  obtain ⟨d, hd, rfl⟩ := h
  exact ⟨(true, d), by rw [signedLiteral, hd]; rfl, rfl⟩

/-- A text of digits is a literal. -/
theorem literal_digits {ip : List Char} (hip : ∀ c ∈ ip, c.isDigit = true) (hne : ip ≠ []) :
    literal ip = some (scientific ip [] 0) := by
  have htake : ip.takeWhile Char.isDigit = ip := List.takeWhile_eq_self_iff.2 hip
  have hdrop : ip.dropWhile Char.isDigit = [] := List.dropWhile_eq_nil_iff.2 hip
  simp [literal, htake, hdrop, hne, exponent?]

/-- Digits around a point are a literal. -/
theorem literal_point {ip fp : List Char} (hip : ∀ c ∈ ip, c.isDigit = true) (hne : ip ≠ [])
    (hfp : ∀ c ∈ fp, c.isDigit = true) :
    literal (ip ++ '.' :: fp) = some (scientific ip fp 0) := by
  have hdot : ¬ ('.' : Char).isDigit = true := by decide
  have htake : (ip ++ '.' :: fp).takeWhile Char.isDigit = ip := by
    rw [List.takeWhile_append_of_pos hip, List.takeWhile_cons_of_neg hdot, List.append_nil]
  have hdrop : (ip ++ '.' :: fp).dropWhile Char.isDigit = '.' :: fp := by
    rw [List.dropWhile_append_of_pos hip, List.dropWhile_cons_of_neg hdot]
  have htake' : fp.takeWhile Char.isDigit = fp := List.takeWhile_eq_self_iff.2 hfp
  have hdrop' : fp.dropWhile Char.isDigit = [] := List.dropWhile_eq_nil_iff.2 hfp
  simp [literal, htake, hdrop, htake', hdrop', hne, exponent?]

/-- Digits, perhaps with a point and digits after it. -/
def plain (ip fp : List Char) : List Char := ip ++ if fp = [] then [] else '.' :: fp

/-- A plain text is a literal. -/
theorem literal_plain {ip fp : List Char} (hip : ∀ c ∈ ip, c.isDigit = true) (hne : ip ≠ [])
    (hfp : ∀ c ∈ fp, c.isDigit = true) : literal (plain ip fp) = some (scientific ip fp 0) := by
  unfold plain
  split_ifs with hnil
  · rw [List.append_nil, hnil, literal_digits hip hne]
  · exact literal_point hip hne hfp

/-- A text of `n` digits is a number below `10 ^ n`. -/
theorem ofDigitChars_lt {cs : List Char} (h : ∀ c ∈ cs, c.isDigit = true) :
    Nat.ofDigitChars 10 cs 0 < 10 ^ cs.length := by
  induction cs with
  | nil => simp
  | cons c cs ih =>
    have hc : c.toNat - '0'.toNat ≤ 9 := by
      have hdigit := (Char.isDigit_iff_toNat.1 (h c List.mem_cons_self)).2
      have h0 : '0'.toNat = 48 := rfl
      have h9 : '9'.toNat = 57 := rfl
      omega
    have htail := ih fun d hd ↦ h d (List.mem_cons_of_mem _ hd)
    rw [Nat.ofDigitChars_cons, Nat.ofDigitChars_eq_ofDigitChars_zero, List.length_cons, pow_succ]
    have := Nat.mul_le_mul_left (10 ^ cs.length) hc
    rw [Nat.mul_zero, Nat.zero_add]
    omega

/-- A plain text stands for zero when all its digits are zeros. -/
theorem ofDigitChars_eq_zero {cs : List Char} (h : ∀ c ∈ cs, c.isDigit = true) :
    Nat.ofDigitChars 10 cs 0 = 0 ↔ ∀ c ∈ cs, c = '0' := by
  induction cs with
  | nil => simp
  | cons c cs ih =>
    have hc : c.toNat - '0'.toNat = 0 ↔ c = '0' := by
      have hdigit := Char.isDigit_iff_toNat.1 (h c List.mem_cons_self)
      have h0 : '0'.toNat = 48 := rfl
      rw [← Char.toNat_inj]
      omega
    rw [Nat.ofDigitChars_cons, Nat.ofDigitChars_eq_ofDigitChars_zero, Nat.add_eq_zero_iff,
      ih fun d hd ↦ h d (List.mem_cons_of_mem _ hd), List.forall_mem_cons, ← hc]
    simp

/-- The digits before the point bound a plain text. -/
theorem value_scientific_lt {ip fp : List Char} (hip : ∀ c ∈ ip, c.isDigit = true)
    (hfp : ∀ c ∈ fp, c.isDigit = true) : (scientific ip fp 0).value < 10 ^ ip.length := by
  have hdigits : ∀ c ∈ ip ++ fp, c.isDigit = true := fun c hc ↦
    (List.mem_append.1 hc).elim (hip c) (hfp c)
  have hlt := ofDigitChars_lt hdigits
  rw [List.length_append, pow_add] at hlt
  rw [scientific, Scientific.value, zero_sub, zpow_neg, zpow_natCast, ← div_eq_mul_inv,
    div_lt_iff₀ (by positivity)]
  exact_mod_cast hlt

/-- A literal without exponent has as many decimals as digits behind its point. -/
theorem isFixed_value_scientific (ip fp : List Char) :
    IsFixed fp.length (scientific ip fp 0).value :=
  ⟨Nat.ofDigitChars 10 (ip ++ fp) 0, by
    rw [scientific, Scientific.value, zero_sub, zpow_neg, zpow_natCast, ← div_eq_mul_inv]
    rfl⟩

/-- Zeros at the end of the fraction do not count. -/
theorem value_scientific_append_zeros (ip fp : List Char) (k : ℕ) :
    (scientific ip (fp ++ List.replicate k '0') 0).value = (scientific ip fp 0).value := by
  simp only [scientific, Scientific.value, ← List.append_assoc]
  rw [Nat.ofDigitChars_append, Nat.ofDigitChars_replicate_zero, List.length_append,
    List.length_replicate, zero_sub, zero_sub, zpow_neg, zpow_neg, zpow_natCast, zpow_natCast,
    pow_add]
  push_cast
  field_simp

/-! ### Writing -/

/-- The digits of `n`, padded with zeros in front to at least `w` digits. -/
def paddedDigits (w n : ℕ) : List Char :=
  List.replicate (w - (Nat.toDigits 10 n).length) '0' ++ Nat.toDigits 10 n

theorem isDigit_of_mem_toDigits {n : ℕ} : ∀ c ∈ Nat.toDigits 10 n, c.isDigit = true :=
  fun _ hc ↦ Nat.isDigit_of_mem_toDigits (by decide) (by decide) hc

theorem isDigit_of_mem_paddedDigits {w n : ℕ} : ∀ c ∈ paddedDigits w n, c.isDigit = true := by
  intro c h
  rcases List.mem_append.1 h with h | h
  · rw [List.eq_of_mem_replicate h]
    decide
  · exact isDigit_of_mem_toDigits c h

/-- Padding yields the width it is asked for. -/
theorem length_paddedDigits {w n : ℕ} (hw : 0 < w) (hn : n < 10 ^ w) :
    (paddedDigits w n).length = w := by
  have hlen := (Nat.length_toDigits_le_iff (n := n) (k := w) (by decide : 1 < 10) hw).2 hn
  rw [paddedDigits, List.length_append, List.length_replicate]
  omega

/-- Padding does not change the number. -/
theorem ofDigitChars_paddedDigits (w n : ℕ) : Nat.ofDigitChars 10 (paddedDigits w n) 0 = n := by
  rw [paddedDigits, Nat.ofDigitChars_append, Nat.ofDigitChars_replicate_zero, Nat.mul_zero,
    Nat.ofDigitChars_ten_toDigits]

/-- The number `n / 10 ^ s` written with exactly `s` decimals. -/
def fixedText (s n : ℕ) : List Char :=
  if s = 0 then Nat.toDigits 10 n
  else Nat.toDigits 10 (n / 10 ^ s) ++ '.' :: paddedDigits s (n % 10 ^ s)

/-- The digits before and behind the point are the units again. -/
theorem scientific_fixed {s n : ℕ} (hs : 0 < s) :
    scientific (Nat.toDigits 10 (n / 10 ^ s)) (paddedDigits s (n % 10 ^ s)) 0 = ⟨n, -s⟩ := by
  have hlen : (paddedDigits s (n % 10 ^ s)).length = s :=
    length_paddedDigits hs (Nat.mod_lt _ (by positivity))
  have hcoeff : Nat.ofDigitChars 10 (Nat.toDigits 10 (n / 10 ^ s) ++ paddedDigits s (n % 10 ^ s)) 0
      = n := by
    rw [Nat.ofDigitChars_append, Nat.ofDigitChars_ten_toDigits,
      Nat.ofDigitChars_eq_ofDigitChars_zero, ofDigitChars_paddedDigits, hlen, Nat.div_add_mod]
  rw [scientific, hcoeff, hlen, zero_sub]

/-- **What is written is read back**, digit for digit. -/
theorem literal_fixedText (s n : ℕ) : literal (fixedText s n) = some ⟨n, -s⟩ := by
  rw [fixedText]
  split
  · rename_i h0
    rw [literal_digits isDigit_of_mem_toDigits Nat.toDigits_ne_nil, scientific, List.append_nil,
      Nat.ofDigitChars_ten_toDigits, h0]
    rfl
  · rename_i h0
    rw [literal_point isDigit_of_mem_toDigits Nat.toDigits_ne_nil isDigit_of_mem_paddedDigits,
      scientific_fixed (Nat.pos_of_ne_zero h0)]

/-- **The fixed text of a number of units denotes that many units.** -/
theorem denotes_fixedText (s n : ℕ) : Denotes (fixedText s n) (n / 10 ^ s) :=
  ⟨_, literal_fixedText s n, by rw [Scientific.value, zpow_neg, zpow_natCast]; rfl⟩

/-- Drop the zeros that end a text with a point, and the point when nothing is left after it. A text
without a point, or without a zero at its end, is left alone. -/
def dropTrailingZeros (cs : List Char) : List Char :=
  if '.' ∈ cs then
    let kept := cs.rdropWhile (· = '0')
    if kept.length = cs.length then cs
    else if kept.getLast? = some '.' then kept.dropLast else kept
  else cs

/-- A list is what is left of it without its final zeros, and those zeros. -/
theorem exists_eq_rdropWhile_append_zeros (fp : List Char) :
    ∃ k, fp = fp.rdropWhile (· = '0') ++ List.replicate k '0' := by
  refine ⟨(fp.rtakeWhile (· = '0')).length, ?_⟩
  have hrep : fp.rtakeWhile (· = '0') =
      List.replicate (fp.rtakeWhile (· = '0')).length '0' := by
    refine List.eq_replicate_of_mem fun c hc ↦ ?_
    simpa using List.mem_rtakeWhile_imp hc
  rw [← hrep]
  exact List.rdropWhile_append_rtakeWhile.symm

/-- Final zeros are taken from behind the point only. -/
theorem rdropWhile_point (ip fp : List Char) :
    (ip ++ '.' :: fp).rdropWhile (· = '0') = ip ++ '.' :: fp.rdropWhile (· = '0') := by
  induction fp using List.reverseRecOn with
  | nil => rw [List.rdropWhile_concat_neg _ _ _ (by decide)]; rfl
  | append_singleton fp c ih =>
    have hassoc : ip ++ '.' :: (fp ++ [c]) = (ip ++ '.' :: fp) ++ [c] := by simp
    by_cases hc : c = '0'
    · rw [hassoc, List.rdropWhile_concat_pos _ _ _ (by simpa using hc), ih,
        List.rdropWhile_concat_pos _ _ _ (by simpa using hc)]
    · rw [hassoc, List.rdropWhile_concat_neg _ _ _ (by simpa using hc),
        List.rdropWhile_concat_neg _ _ _ (by simpa using hc), hassoc]

/-- Dropping the zeros of a written fraction leaves the digits before them, with the point if there
are any. -/
theorem dropTrailingZeros_point {ip fp : List Char} (hne : fp ≠ []) (hfp : ∀ c ∈ fp, c ≠ '.') :
    dropTrailingZeros (ip ++ '.' :: fp) = plain ip (fp.rdropWhile (· = '0')) := by
  have hstart := List.rdropWhile_prefix (· = '0') fp
  rw [dropTrailingZeros, if_pos (by simp)]
  simp only [rdropWhile_point]
  split
  · rename_i hlength
    -- there are no zeros to drop
    have hsame : fp.rdropWhile (· = '0') = fp := by
      refine hstart.eq_of_length ?_
      simpa using hlength
    rw [hsame, plain, if_neg hne]
  · split
    · rename_i hlast
      -- the point is last: nothing of the fraction is left
      have hnil : fp.rdropWhile (· = '0') = [] := by
        by_contra hkept
        have hmem := hstart.subset (List.getLast_mem hkept)
        rw [List.getLast?_append, List.getLast?_cons_of_ne_nil hkept,
          List.getLast?_eq_getLast_of_ne_nil hkept] at hlast
        exact hfp _ hmem (Option.some.inj hlast)
      rw [hnil, List.dropLast_append_of_ne_nil (by simp), plain, if_pos rfl]
      simp
    · rename_i hlast
      have hkept : fp.rdropWhile (· = '0') ≠ [] := by
        rintro hnil
        rw [hnil] at hlast
        simp at hlast
      rw [plain, if_neg hkept]

/-- The digits of `n / 10 ^ s` behind the point. -/
def fractionDigits (s n : ℕ) : List Char := if s = 0 then [] else paddedDigits s (n % 10 ^ s)

theorem isDigit_of_mem_fractionDigits {s n : ℕ} : ∀ c ∈ fractionDigits s n, c.isDigit = true := by
  intro c h
  unfold fractionDigits at h
  split at h
  · cases h
  · exact isDigit_of_mem_paddedDigits c h

/-- There is a digit for every decimal. -/
theorem length_fractionDigits (s n : ℕ) : (fractionDigits s n).length = s := by
  unfold fractionDigits
  split
  · rename_i h0
    exact h0.symm
  · rename_i h0
    exact length_paddedDigits (Nat.pos_of_ne_zero h0) (Nat.mod_lt _ (by positivity))

/-- **The shortened text of a number**: all digits before the point, and those behind it up to the
last that is no zero. -/
theorem dropTrailingZeros_fixedText (s n : ℕ) : dropTrailingZeros (fixedText s n) =
    plain (Nat.toDigits 10 (n / 10 ^ s)) ((fractionDigits s n).rdropWhile (· = '0')) := by
  by_cases hs : s = 0
  · have hdot : '.' ∉ Nat.toDigits 10 n := fun h ↦
      absurd (isDigit_of_mem_toDigits _ h) (by decide)
    rw [fixedText, if_pos hs, dropTrailingZeros, if_neg hdot, fractionDigits, if_pos hs, hs]
    simp [plain]
  · have hlength := length_fractionDigits s n
    rw [fractionDigits, if_neg hs] at hlength
    rw [fixedText, if_neg hs, fractionDigits, if_neg hs]
    refine dropTrailingZeros_point (List.ne_nil_of_length_pos (by omega)) fun c hc he ↦ ?_
    have hdigit := isDigit_of_mem_paddedDigits c hc
    rw [he] at hdigit
    exact absurd hdigit (by decide)

/-- Zeros at the end of the fraction do not change the value. -/
theorem value_scientific_rdropWhile (ip fp : List Char) :
    (scientific ip (fp.rdropWhile (· = '0')) 0).value = (scientific ip fp 0).value := by
  obtain ⟨k, hk⟩ := exists_eq_rdropWhile_append_zeros fp
  conv_rhs => rw [hk]
  exact (value_scientific_append_zeros _ _ _).symm

/-- A text without a point keeps its zeros. -/
theorem denotes_dropTrailingZeros (s n : ℕ) :
    Denotes (dropTrailingZeros (fixedText s n)) (n / 10 ^ s) := by
  have hkept : ∀ c ∈ (fractionDigits s n).rdropWhile (· = '0'), c.isDigit = true := fun c hc ↦
    isDigit_of_mem_fractionDigits c ((List.rdropWhile_prefix _ _).subset hc)
  rw [dropTrailingZeros_fixedText]
  refine ⟨_, literal_plain isDigit_of_mem_toDigits Nat.toDigits_ne_nil hkept, ?_⟩
  have hvalue : (⟨n, -s⟩ : Scientific).value = n / 10 ^ s := by
    rw [Scientific.value, zpow_neg, zpow_natCast]
    rfl
  rw [value_scientific_rdropWhile, ← hvalue, fractionDigits]
  split
  · rename_i h0
    rw [h0, scientific, List.append_nil, pow_zero, Nat.div_one, Nat.ofDigitChars_ten_toDigits]
    rfl
  · rename_i h0
    rw [scientific_fixed (Nat.pos_of_ne_zero h0)]

/-- **How many decimals a plain text has**: as many digits as its fraction without its final
zeros. -/
theorem isFixed_value_scientific_iff {ip fp : List Char}
    (hfp : ∀ c ∈ fp, c.isDigit = true) {s : ℕ} :
    IsFixed s (scientific ip fp 0).value ↔ (fp.rdropWhile (· = '0')).length ≤ s := by
  rw [← value_scientific_rdropWhile]
  refine ⟨fun h ↦ ?_, fun h ↦ (isFixed_value_scientific _ _).mono h⟩
  by_contra hlong
  rw [not_le] at hlong
  -- the last digit that is kept is no zero, so one decimal less is not enough
  have hne : fp.rdropWhile (· = '0') ≠ [] := List.ne_nil_of_length_pos (by omega)
  have hlast := List.rdropWhile_last_not (· = '0') fp hne
  have hmem : (fp.rdropWhile (· = '0')).getLast hne ∈ fp :=
    (List.rdropWhile_prefix _ _).subset (List.getLast_mem hne)
  generalize hc : (fp.rdropWhile (· = '0')).getLast hne = c at hlast hmem
  obtain ⟨gs, hgs⟩ : ∃ gs, fp.rdropWhile (· = '0') = gs ++ [c] :=
    ⟨_, by rw [← hc, List.dropLast_append_getLast]⟩
  rw [hgs] at h hlong
  rw [List.length_append, List.length_singleton] at hlong
  obtain ⟨n, hn⟩ := h.mono (Nat.lt_succ_iff.1 hlong)
  have hcoeff : Nat.ofDigitChars 10 (ip ++ (gs ++ [c])) 0 =
      10 * Nat.ofDigitChars 10 (ip ++ gs) 0 + (c.toNat - '0'.toNat) := by
    rw [← List.append_assoc, Nat.ofDigitChars_append, Nat.ofDigitChars_cons, Nat.ofDigitChars_nil]
  have hint : (Nat.ofDigitChars 10 (ip ++ (gs ++ [c])) 0 : ℤ) = 10 * n := by
    rw [scientific, Scientific.value, zero_sub, zpow_neg, zpow_natCast, ← div_eq_mul_inv,
      List.length_append, List.length_singleton, pow_succ, div_eq_div_iff (by positivity)
      (by positivity)] at hn
    have hpow : (10 : ℚ) ^ gs.length ≠ 0 := by positivity
    have hcancel : (Nat.ofDigitChars 10 (ip ++ (gs ++ [c])) 0 : ℚ) = 10 * n := by
      refine mul_right_cancel₀ hpow ?_
      rw [hn]
      ring
    exact_mod_cast hcancel
  have hdigit := Char.isDigit_iff_toNat.1 (hfp c hmem)
  have h0 : '0'.toNat = 48 := rfl
  have h9 : '9'.toNat = 57 := rfl
  have hzero : c.toNat ≠ 48 := fun he ↦ hlast (by
    rw [decide_eq_true_eq, ← Char.toNat_inj]
    exact he)
  rw [hcoeff] at hint
  omega

end DecimalNotation
