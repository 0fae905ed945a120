import WalletConversion.Application.Reference

/-!
# Conversion of amounts

`Money.convert` rounds twice: the product to 40 significant digits, half to even, and the result
down to the decimals of the target asset. `convert_roundedDown_iff` says for which products the two
are the exact product rounded down: the bound on the exponent and `KeepsStep` look at the exact
product only. A product of 41 nines behind the point is the smallest kind for which they are not
(`convert_fabricates`), and a product of `10 ^ (9·10¹⁵ + 1)` becomes `Infinity`.
-/

namespace WalletConversion

open DecimalNotation

namespace Money

variable {m result : Money} {rate : Decimal} {target : Asset}

/-- **When a conversion is the exact product rounded down**: exactly when the product is no larger
than a decimal can be and rounding it to 40 significant digits crosses no step of the target asset.
There is an exact product where the amount has not overflown before; `Money.of` reads no other
amounts. -/
theorem convert_roundedDown_iff (h : m.convert rate target = .ok result) :
    ∃ r : Magnitude, rate = .finite false r ∧
      ((m.IsFinite ∧ ∃ q : Magnitude, result.toDecimal = .finite false q ∧
          RoundedDown target.scale (m.amount * r.1) q.1) ↔
        m.IsFinite ∧ Int.log 10 (m.amount * r.1) ≤ Decimal.maxE ∧
          KeepsStep Decimal.precision target.scale (m.amount * r.1)) := by
  obtain ⟨r, hr, -, hscale, hasset, hamount⟩ := convert_eq_ok h
  refine ⟨r, hr, and_congr_right fun _ ↦ ?_⟩
  simp only [toDecimal_eq_finite_iff (hasset ▸ hscale)]
  rw [← floor_roundSig_iff, ← roundedDown_iff, ← hamount]
  -- the number rounded down overflows exactly when the product does
  have hfloor : 0 ≤ ⌊roundSig Decimal.precision (m.amount * r.1) * 10 ^ target.scale⌋ :=
    Int.floor_nonneg.2 (mul_nonneg (roundSig_nonneg _ (mul_nonneg m.nonneg r.2.1)) (by positivity))
  have hlog (hdown : RoundedDown target.scale (m.amount * r.1) result.amount) :
      Int.log 10 result.amount ≤ Decimal.maxE ↔ Int.log 10 (m.amount * r.1) ≤ Decimal.maxE := by
    rw [hamount] at hdown ⊢
    exact hdown.log_le_iff hfloor
  constructor
  · rintro ⟨q, ⟨hq, hfits⟩, hdown⟩
    rw [← hq] at hdown
    exact ⟨(hlog hdown).1 hfits, hdown⟩
  · rintro ⟨hfits, hdown⟩
    exact ⟨⟨result.amount, result.nonneg, _, result.fixed⟩, ⟨rfl, (hlog hdown).2 hfits⟩, hdown⟩

/-- One USDT at the rate of the rate table. -/
theorem convert_roundedDown_sample : ∃ (result : Money) (r q : Magnitude),
    (one USDT).convert (.finite false r) BTC = .ok result ∧ r.1 = 161 / 10 ^ 7 ∧
      result.toDecimal = .finite false q ∧ RoundedDown 8 ((one USDT).amount * r.1) q.1 := by
  let r := Scientific.magnitude ⟨161, -7⟩
  have hconvert : (one USDT).convert (.finite false r) BTC =
      .ok ⟨BTC, 161 / 10 ^ 7, by norm_num, ⟨1610, by norm_num [BTC]⟩⟩ := by decide +kernel
  obtain ⟨r', hr, hiff⟩ := convert_roundedDown_iff hconvert
  cases hr
  have hfinite : (one USDT).IsFinite :=
    isFinite_of_inRange (by simp [one, Decimal.InRange])
  obtain ⟨-, q, hq⟩ := hiff.2 ⟨hfinite, by decide +kernel⟩
  exact ⟨_, r, q, hconvert, by norm_num [r, Scientific.magnitude, Scientific.value], hq⟩

/-- **A conversion that fabricates value**: one USDT at a rate of 41 nines behind the point becomes
one BTC, which is more than the exact product. -/
theorem convert_fabricates : ∃ m result r,
    of Platform.reference.toDecimalJs "1" USDT = .ok m ∧
      Decimal.ofText Platform.reference.toDecimalJs
        "0.99999999999999999999999999999999999999999" = .ok (.finite false r) ∧
      m.convert (.finite false r) BTC = .ok result ∧ m.amount * r.1 < result.amount :=
  ⟨one USDT, one BTC, Scientific.magnitude ⟨99999999999999999999999999999999999999999, -41⟩,
    by decide +kernel, by decide +kernel, by decide +kernel, by decide +kernel⟩

end Money

end WalletConversion
