import WalletConversion.Guarantees.Value
import WalletConversion.Presentation.CreateQuoteDto

/-!
# Admitted quotes and their columns

`CreateQuoteDto` bounds the source amount by the digits of its column. The target amount has a
column of the same width, and 62111.8 times as much may be quoted in it. `admitted_stored_iff` finds
the largest amount of BTC for which the bound of the request is enough (`largestBtc`); of USDT every
admitted amount is. Beyond it the database refuses the quote (`admitted_overflows`). The request
also admits a user id with a `NUL`, and of such a user the database refuses every quote.

**How it is proved.** The price of an amount up to the bound is an exact product of at most 40
digits, so the rounding of the library plays no part; one satoshi beyond the bound the rounded price
is out of range already.
-/

namespace WalletConversion

open DecimalNotation

namespace Ledger

variable {env : Platform} {body : CreateQuoteDto} {generatedId : Uuid} {now : Date} {q : Quote}

/-- At most 20 digits before the point and at most 18 behind it. -/
def FitsColumn (x : ℚ) : Prop := |x| < 10 ^ 20 ∧ IsFixed 18 x

/-- A quote whose three numbers fit their columns, and which is then stored with just these numbers
wherever its id is new. -/
structure StoredExactly (env : Platform) (body : CreateQuoteDto) (generatedId : Uuid) (now : Date)
    (q : Quote) : Prop where
  source : FitsColumn q.sourceAmount.amount
  target : FitsColumn q.targetAmount.amount
  rate : FitsColumn q.rate.rate.1
  /-- All that is left of the call is to save the quote. -/
  statement : CreateQuoteUseCase.execute env body.command generatedId now =
    .call (.upsertQuote (PrismaQuoteRepository.data q)) fun _ ↦ .ret q
  stored : ∀ (db : Db) (locked : LockKey → Bool), db.quotes.lookup generatedId.value = none →
    ∃ row, exec (.upsertQuote (PrismaQuoteRepository.data q)) locked db =
        .ok ((), [.putQuote generatedId.value row]) ∧
      row.sourceAmount.1 = q.sourceAmount.amount ∧ row.targetAmount.1 = q.targetAmount.amount ∧
      row.rate.1 = q.rate.rate.1

/-- The largest amount of BTC whose price in USDT has 20 digits before the point. -/
def largestBtc : ℚ := 1610000000000000644 / 1000

/-- The amount of the request, if it is of BTC, is not too large. -/
def PriceFits (body : CreateQuoteDto) : Prop :=
  Asset.normalize body.sourceAsset = .ok "BTC" →
    ∃ x, Denotes body.sourceAmount.toList x ∧ x ≤ largestBtc

/-! ### The amounts of an admitted quote -/

/-- The amount that is read is the amount the text denotes. -/
theorem amount_of_denotes {js : DecimalJs} {text : String} {asset : Asset} {m : Money} {x : ℚ}
    (h : Money.of js text asset = .ok m) (hx : Denotes text.toList x) : m.amount = x := by
  obtain ⟨d, rfl, htext⟩ := Decimal.ofText_of_denotes js hx
  rw [Money.of, htext] at h
  simp only [bind, Except.bind, Money.ofDecimal, Bool.false_eq_true, if_false] at h
  split_ifs at h
  cases h
  rfl

/-- A conversion of BTC stays in range exactly up to the largest amount. -/
theorem converted_lt_iff {m result : Money} {r : Magnitude} (hasset : m.asset = BTC)
    (hr : r.1 = 62111801242236 / 10 ^ 9)
    (h : m.convert (.finite false r) USDT = .ok result) :
    result.amount < 10 ^ 20 ↔ m.amount ≤ largestBtc := by
  obtain ⟨r', hr', -, -, -, hamount⟩ := Money.convert_eq_ok h
  cases hr'
  obtain ⟨n, hn⟩ := m.fixed
  have hfloor : result.amount < 10 ^ 20 ↔
      roundSig Decimal.precision (m.amount * r.1) < 10 ^ 20 := by
    have hpow : (10 : ℚ) ^ 20 * 10 ^ USDT.scale = ((10 ^ 26 : ℤ) : ℚ) := by norm_num [USDT]
    rw [hamount, div_lt_iff₀ (by positivity), hpow, Int.cast_lt, Int.floor_lt, ← hpow,
      mul_lt_mul_iff_of_pos_right (by positivity)]
  rw [hfloor]
  constructor
  · -- one satoshi more is already out of range, and rounding does not bring it back
    intro hround
    by_contra hlarge
    have hunits : (161000000000000064400000 : ℤ) + 1 ≤ n := by
      refine Int.add_one_le_iff.2 ?_
      rw [hn, hasset, largestBtc, not_le, lt_div_iff₀ (by positivity)] at hlarge
      norm_num [BTC] at hlarge
      exact_mod_cast (by linarith : (161000000000000064400000 : ℚ) < n)
    have hnext : (161000000000000064400001 : ℚ) / 10 ^ 8 ≤ m.amount := by
      rw [hn, hasset]
      exact div_le_div_of_nonneg_right (by exact_mod_cast hunits) (by positivity)
    have hpos : 0 < m.amount * r.1 := by
      rw [hr]
      have : (0 : ℚ) < m.amount := lt_of_lt_of_le (by norm_num) hnext
      positivity
    have hbound := (Decimal.roundSig_bounds hpos).1
    rw [hr] at hbound hround
    norm_num at hbound hround hnext
    linarith
  · intro hle
    have hfixed : IsFixed 17 (m.amount * r.1) := by
      refine ⟨n * 62111801242236, ?_⟩
      rw [hn, hr, hasset]
      norm_num [BTC]
      ring
    have hprice : m.amount * r.1 < 10 ^ 20 := by
      rw [largestBtc] at hle
      rw [hr]
      norm_num at hle ⊢
      linarith
    have hround : roundSig Decimal.precision (m.amount * r.1) = m.amount * r.1 :=
      roundSig_eq_self_of_isFixed hfixed
        (by rwa [abs_of_nonneg (mul_nonneg m.nonneg r.2.1)]) (by decide)
    rwa [hround]

/-- The target amount of an admitted quote is in range when the condition on the request holds. -/
theorem target_lt_iff (hassets : env.registry = .wellKnown) (hadmits : body.admits = true)
    (hbuild : CreateQuoteUseCase.build env body.command generatedId now = .ok q) :
    q.targetAmount.amount < 10 ^ 20 ↔ PriceFits body := by
  obtain ⟨-, -, -, hsource, htarget, hamount, hrate, hconverted, -⟩ := build_eq_ok hbuild
  obtain ⟨hsmem, hscode⟩ := Asset.of_eq_ok hsource
  obtain ⟨htmem, -⟩ := Asset.of_eq_ok htarget
  obtain ⟨x, hx, hpos, hlt, -⟩ := CreateQuoteDto.denotes_sourceAmount hadmits
  have hqx : q.sourceAmount.amount = x := amount_of_denotes hamount hx
  rcases pair_of_rate hassets hsmem htmem hrate with ⟨hs, ht, hr⟩ | ⟨hs, ht, hr⟩
  · rw [ht] at hconverted
    have hle := converted_forth hs (hqx ▸ hlt) hr hconverted
    have hsmall : q.targetAmount.amount < 10 ^ 20 := by
      refine lt_of_le_of_lt hle ?_
      rw [hqx, usdtPrice]
      linarith
    refine iff_of_true hsmall fun hbtc ↦ ?_
    rw [CreateQuoteDto.command] at hscode
    rw [hscode, hs] at hbtc
    exact absurd hbtc (by decide)
  · rw [ht] at hconverted
    rw [converted_lt_iff hs hr hconverted, hqx]
    constructor
    · exact fun hle _ ↦ ⟨x, hx, hle⟩
    · intro h
      obtain ⟨y, hy, hle⟩ := h (by
        rw [CreateQuoteDto.command] at hscode
        rw [hscode, hs]
        rfl)
      rwa [← hqx, amount_of_denotes hamount hy]

/-- The codes of the assets hold no `NUL`, so only the user id may. -/
theorem storable_built_iff (hassets : env.registry = .wellKnown)
    (hbuild : CreateQuoteUseCase.build env body.command generatedId now = .ok q) :
    q.Storable ↔ storable body.userId = true := by
  have hcodes : ∀ asset ∈ env.registry.assets, storable asset.code = true := by
    rw [hassets]
    decide
  obtain ⟨-, -, -, hsource, htarget, -⟩ := build_eq_ok hbuild
  obtain ⟨hsmem, hscode⟩ := Asset.of_eq_ok hsource
  obtain ⟨htmem, htcode⟩ := Asset.of_eq_ok htarget
  rw [storable_of_build hbuild]
  constructor
  · exact fun h ↦ h.user
  · exact fun huser ↦ ⟨huser, (Asset.storable_normalize hscode).symm.trans (hcodes _ hsmem),
      (Asset.storable_normalize htcode).symm.trans (hcodes _ htmem)⟩

/-- **When an admitted quote fits its columns**: exactly when it takes USDT, or no more BTC than
`largestBtc`, and its user id holds no `NUL`. -/
theorem admitted_stored_iff (hassets : env.registry = .wellKnown) (hadmits : body.admits = true)
    (hbuild : CreateQuoteUseCase.build env body.command generatedId now = .ok q) :
    StoredExactly env body generatedId now q ↔ PriceFits body ∧ storable body.userId = true := by
  rw [← target_lt_iff hassets hadmits hbuild, ← storable_built_iff hassets hbuild]
  have hbuilt := built_of_build hbuild
  obtain ⟨-, -, -, -, -, hamount, -⟩ := build_eq_ok hbuild
  obtain ⟨x, hx, hpos, hlt, -⟩ := CreateQuoteDto.denotes_sourceAmount hadmits
  have hsource : q.sourceAmount.amount < 10 ^ 20 := amount_of_denotes hamount hx ▸ hlt
  obtain ⟨hfixed, hratelt⟩ := FakePricingProvider.rate_fits hbuilt.rate
  have hfits : ∀ m : Money, m.asset ∈ env.registry.assets → m.amount < 10 ^ 20 →
      FitsColumn m.amount := fun m hmem hm ↦
    ⟨by rwa [abs_of_nonneg m.nonneg], m.fixed.mono (env.registry.scale_le _ hmem)⟩
  constructor
  · intro h
    have htarget := h.target.1
    rw [abs_of_nonneg q.targetAmount.nonneg] at htarget
    refine ⟨htarget, by_contra fun hnul ↦ ?_⟩
    obtain ⟨row, hexec, -⟩ := h.stored (Db.ofWallets ∅) (fun _ ↦ false) rfl
    cases (refused_of_not_storable hnul _ _).symm.trans hexec
  · rintro ⟨htarget, hstorable⟩
    exact
      { source := hfits _ hbuilt.source hsource
        target := hfits _ hbuilt.target htarget
        rate := ⟨by rwa [abs_of_nonneg q.rate.rate.2.1], hfixed⟩
        statement := by
          simp only [CreateQuoteUseCase.execute, hbuild]
          rfl
        stored := by
          intro db locked hnew
          obtain ⟨row, hrow, -, -, hexec⟩ := hbuilt.saved_of_lt hstorable hnew hsource htarget
          exact ⟨row, hexec locked, hrow.source.amount_eq, hrow.target.amount_eq, hrow.rate_eq⟩ }

/-- A request to change an amount of BTC. -/
def btcRequest (sourceAmount : String) : CreateQuoteDto := ⟨"u-1", "BTC", "USDT", sourceAmount⟩

/-- The largest amount is stored. -/
theorem admitted_stored_sample : ∃ q,
    CreateQuoteUseCase.build .reference (btcRequest "1610000000000000.644").command (.ofText "q-1")
      sampleTime = .ok q ∧
    StoredExactly .reference (btcRequest "1610000000000000.644") (.ofText "q-1") sampleTime q := by
  have hbuilds : ∃ q, CreateQuoteUseCase.build .reference
      (btcRequest "1610000000000000.644").command (.ofText "q-1") sampleTime = .ok q ∧
      q.sourceAmount.asset = BTC := exists_ok_of_any (by decide +kernel)
  obtain ⟨q, hbuild, -⟩ := hbuilds
  refine ⟨q, hbuild, (admitted_stored_iff rfl (by decide +kernel) hbuild).2 ⟨fun _ ↦ ?_, by decide⟩⟩
  exact ⟨_, ⟨⟨1610000000000000644, -3⟩, by decide +kernel, rfl⟩,
    by norm_num [Scientific.value, largestBtc]⟩

/-- **An admitted quote that is refused**: 99999999999999999999 BTC are priced at more USDT than the
column holds, and the database answers with an error. -/
theorem admitted_overflows : (btcRequest "99999999999999999999").admits = true ∧ ∃ q,
    CreateQuoteUseCase.build .reference (btcRequest "99999999999999999999").command (.ofText "q-1")
      sampleTime = .ok q ∧
    ¬ FitsColumn q.targetAmount.amount ∧
    ∀ locked, exec (.upsertQuote (PrismaQuoteRepository.data q)) locked
      (Db.ofWallets sampleWallets) =
      .error .numericOverflow := by
  have hbuilds : ∃ q, CreateQuoteUseCase.build .reference
      (btcRequest "99999999999999999999").command (.ofText "q-1") sampleTime = .ok q ∧
      10 ^ 20 ≤ q.targetAmount.amount := exists_ok_of_any (by decide +kernel)
  obtain ⟨q, hbuild, hlarge⟩ := hbuilds
  have hstorable : q.Storable := (storable_built_iff rfl hbuild).2 (by decide)
  refine ⟨by decide +kernel, q, hbuild, fun h ↦ ?_,
    (built_of_build hbuild).refused hstorable rfl ?_⟩
  · exact absurd (le_abs_self q.targetAmount.amount) (not_le.2 (h.1.trans_le hlarge))
  · exact fun h ↦ not_le.2 h.2 hlarge

end Ledger

end WalletConversion
