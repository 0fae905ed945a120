import WalletConversion.Guarantees.Admission
import WalletConversion.Presentation.Controllers

/-!
# What a request for a quote is answered

`POST /quotes` reads four texts and computes with numbers. `QuoteAnswer` says in numbers what the
client is answered: which of the eight answers it gets depends on the assets that the codes name and
on the number that the amount denotes, compared with the decimals of the asset and with two bounds,
the smallest amount of USDT that is worth a unit of BTC and the largest amount of BTC that is
quoted. The user id is free text, and the database stores every text but one with a `NUL`.

`quote_answered` proves it for every body that the decorators admit and for all tables. The call
issues one statement, so nothing comes between.
-/

namespace WalletConversion

open DecimalNotation Transactional

/-! ### The rates -/

/-- 0.0000161 BTC for a USDT. -/
def forthRate : ExchangeRate :=
  ⟨USDT, BTC, Scientific.magnitude ⟨161, -7⟩, by decide +kernel, by decide⟩

/-- 62111.801242236 USDT for a BTC. -/
def backRate : ExchangeRate :=
  ⟨BTC, USDT, Scientific.magnitude ⟨62111801242236, -9⟩, by decide +kernel, by decide⟩

theorem forthRate_eq : forthRate.rate.1 = 161 / 10 ^ 7 := by decide +kernel

theorem backRate_eq : backRate.rate.1 = 62111801242236 / 10 ^ 9 := by decide +kernel

/-- The rates that are configured. -/
inductive Listed : ExchangeRate → Prop
  | forth : Listed forthRate
  | back : Listed backRate

/-- A rate of the table is the rate of its pair. -/
theorem Listed.getRate {r : ExchangeRate} (h : Listed r) (js : DecimalJs) :
    FakePricingProvider.getRate js r.sourceAsset r.targetAsset = .ok r := by
  cases h with
  | forth => exact ExchangeRate.of_denotes js ⟨⟨161, -7⟩, by decide +kernel, rfl⟩
  | back => exact ExchangeRate.of_denotes js ⟨⟨62111801242236, -9⟩, by decide +kernel, rfl⟩

/-- The price of an amount: the units of the target that it is worth, cut off. -/
def ExchangeRate.price (r : ExchangeRate) (x : ℚ) : ℚ :=
  ⌊x * r.rate.1 * 10 ^ r.targetAsset.scale⌋ / 10 ^ r.targetAsset.scale

/-- The smallest amount of USDT that is worth a unit of BTC. -/
def leastUsdt : ℚ := 622 / 10 ^ 6

/-! ### Reading the request -/

/-- A text that is not blank is not empty when it is trimmed. -/
theorem trim_ne_empty {text : String} {c : Char} (hc : c ∈ text.toList)
    (hwhite : isWhiteSpace c = false) : trim text ≠ "" := by
  intro h
  have hmem := mem_trim hc hwhite
  rw [h] at hmem
  cases hmem

/-- Nothing is trimmed off an alphanumeric code. -/
theorem isWhiteSpace_of_alphanumeric {c : Char} (h : CreateQuoteDto.alphanumeric c = true) :
    isWhiteSpace c = false := by
  have hrange : (48 ≤ c.toNat ∧ c.toNat ≤ 57) ∨ (65 ≤ c.toNat ∧ c.toNat ≤ 90) ∨
      (97 ≤ c.toNat ∧ c.toNat ≤ 122) := by
    have hletter : (c.isUpper = true ∨ c.isLower = true) ∨ c.isDigit = true := by
      rw [← Bool.or_eq_true, ← Bool.or_eq_true]
      exact h
    rcases hletter with (hupper | hlower) | hdigit
    · exact .inr (.inl (of_decide_eq_true hupper))
    · obtain ⟨h₁, h₂⟩ := (Bool.and_eq_true _ _).mp hlower
      exact .inr (.inr ⟨of_decide_eq_true h₁, of_decide_eq_true h₂⟩)
    · obtain ⟨h₁, h₂⟩ := (Bool.and_eq_true _ _).mp hdigit
      exact .inl ⟨of_decide_eq_true h₁, of_decide_eq_true h₂⟩
  simp only [isWhiteSpace, Bool.or_eq_false_iff, Bool.and_eq_false_iff, decide_eq_false_iff_not,
    beq_eq_false_iff_ne, not_le]
  omega

/-- The code names the asset. -/
def Names (code : String) (asset : Asset) : Prop :=
  asset ∈ Registry.wellKnown.assets ∧ Asset.normalize code = .ok asset.code

/-- What the client is told of a code that names no asset. -/
def unknownAsset (code : String) : String :=
  s!"Unknown asset code: \"{code}\". Register it via Asset.register() before use."

/-- A code that names an asset finds it. -/
theorem Names.of_eq {code : String} {asset : Asset} (h : Names code asset) :
    Asset.of .wellKnown code = .ok asset := by
  obtain ⟨hmem, hcode⟩ := h
  rw [Asset.of, hcode]
  rcases List.mem_pair.1 hmem with rfl | rfl <;> rfl

/-- A code that names no asset is unknown. -/
theorem of_eq_unknown {code normalized : String} (hcode : Asset.normalize code = .ok normalized)
    (h : ∀ asset, ¬ Names code asset) :
    Asset.of .wellKnown code = .error (.error (unknownAsset code)) := by
  have hfind : Registry.wellKnown.assets.find? (fun a ↦ a.code = normalized) = none :=
    List.find?_eq_none.2 fun a ha hname ↦ h a ⟨ha, by rw [hcode, of_decide_eq_true hname]⟩
  rw [Asset.of, hcode]
  simp only [bind, Except.bind, hfind]
  rfl

/-- What the client is told of an amount with too many decimals. -/
def tooManyDecimals (x : Magnitude) (asset : Asset) : String :=
  s!"Amount \"{(Decimal.finite false x).toString}\" exceeds {asset.code} scale of " ++
    s!"{asset.scale} decimal places"

/-- An amount with too many decimals is refused. -/
theorem Money.of_eq_tooManyDecimals {js : DecimalJs} {text : String} {x : Magnitude} {asset : Asset}
    (h : Denotes text.toList x.1) (hx : ¬ IsFixed asset.scale x.1) :
    Money.of js text asset = .error (.error (tooManyDecimals x asset)) := by
  obtain ⟨d, hd, htext⟩ := Decimal.ofText_of_denotes js h
  obtain rfl : d = x := Subtype.ext hd
  have hplaces : Decimal.decimalPlaces d > asset.scale :=
    not_le.1 (mt Decimal.decimalPlaces_le_iff.1 hx)
  rw [Money.of, htext]
  simp only [bind, Except.bind, Money.ofDecimal, Bool.false_eq_true, if_false, dif_pos hplaces]
  rfl

/-- What the parts of an admitted body are read as. -/
structure Readable (body : CreateQuoteDto) (user : UserId) (x : Magnitude) : Prop where
  user : UserId.of body.userId = .ok user
  source : ∃ normalized, Asset.normalize body.sourceAsset = .ok normalized
  target : ∃ normalized, Asset.normalize body.targetAsset = .ok normalized
  amount : Denotes body.sourceAmount.toList x.1
  positive : 0 < x.1
  small : x.1 < 10 ^ 20

/-- A code that passes the pattern can be normalized. -/
theorem normalize_of_test {code : String} (h : CreateQuoteDto.assetPattern.test code = true) :
    ∃ normalized, Asset.normalize code = .ok normalized := by
  rw [Pattern.test_iff] at h
  simp only [CreateQuoteDto.assetPattern, Pattern.mem_rests_seq, Pattern.mem_rests_chars,
    Pattern.mem_rests_ending] at h
  obtain ⟨_, _, ⟨run, hcode, hrun, hleast, -⟩, rfl, -⟩ := h
  obtain ⟨c, hc⟩ := List.exists_mem_of_length_pos hleast
  have htrim : trim code ≠ "" :=
    trim_ne_empty (c := c) (by rw [hcode, List.append_nil]; exact hc)
      (isWhiteSpace_of_alphanumeric (hrun c hc))
  have hne : String.ofList ((trim code).toList.map Char.toUpper) ≠ "" := by
    intro h
    have hnil := congrArg String.toList h
    rw [String.toList_ofList] at hnil
    exact htrim (String.toList_inj.1 (List.map_eq_nil_iff.1 hnil))
  exact ⟨_, by rw [Asset.normalize]; exact if_neg hne⟩

/-- A body that is admitted can be read. -/
theorem readable_of_admits {body : CreateQuoteDto} (h : body.admits = true) :
    ∃ user x, Readable body user x := by
  obtain ⟨x, hx, hpos, hlt, hfixed⟩ := CreateQuoteDto.denotes_sourceAmount h
  simp only [CreateQuoteDto.admits, Bool.and_eq_true] at h
  obtain ⟨⟨⟨⟨⟨⟨⟨⟨⟨⟨⟨-, -⟩, huser⟩, -⟩, -⟩, hsource⟩, -⟩, -⟩, htarget⟩, -⟩, -⟩, -⟩ := h
  obtain ⟨c, hc, hwhite⟩ := Pattern.search_one_iff.1 huser
  have hne := trim_ne_empty hc (by simpa using hwhite)
  exact ⟨⟨trim body.userId, trim_trim _, hne⟩, ⟨x, hpos.le, 18, hfixed⟩,
    { user := dif_neg hne
      source := normalize_of_test hsource
      target := normalize_of_test htarget
      amount := hx
      positive := hpos
      small := hlt }⟩

/-! ### Pricing -/

/-- A listed rate converts every amount. -/
theorem Listed.convert_total {r : ExchangeRate} (h : Listed r) (m : Money) :
    ∃ target, m.convert r.toDecimal r.targetAsset = .ok target := by
  have hvalid : ¬ (false = true ∨ r.rate.1 = 0) := by simp [r.positive]
  have hscale : r.targetAsset.scale ≤ Decimal.MAX_DIGITS := by cases h <;> decide
  exact ⟨_, (if_neg hvalid).trans (if_neg (not_lt.2 hscale))⟩

/-- A product of at most 40 digits is not rounded. -/
theorem amount_of_convert {m target : Money} {r : ExchangeRate} {s : ℕ}
    (h : m.convert r.toDecimal r.targetAsset = .ok target)
    (hfixed : IsFixed s (m.amount * r.rate.1)) (hlt : m.amount * r.rate.1 < 10 ^ 20) (hs : s ≤ 20) :
    target.amount = r.price m.amount := by
  obtain ⟨r', hr', -, -, -, hamount⟩ := Money.convert_eq_ok h
  cases hr'
  have hexact : roundSig Decimal.precision (m.amount * r.rate.1) = m.amount * r.rate.1 :=
    roundSig_eq_self_of_isFixed hfixed
      (by rwa [abs_of_nonneg (mul_nonneg m.nonneg r.rate.2.1)]) (by rw [Decimal.precision]; omega)
  rw [hamount, hexact]
  rfl

/-- USDT are priced exactly. -/
theorem convert_forth {m target : Money} (hasset : m.asset = USDT) (hlt : m.amount < 10 ^ 20)
    (h : m.convert forthRate.toDecimal BTC = .ok target) :
    target.amount = forthRate.price m.amount := by
  have hfixed : IsFixed 13 (m.amount * forthRate.rate.1) := by
    obtain ⟨n, hn⟩ := m.fixed
    rw [hasset] at hn
    refine ⟨n * 161, ?_⟩
    rw [hn, forthRate_eq]
    norm_num [USDT]
    ring
  refine amount_of_convert h hfixed ?_ (by decide)
  rw [forthRate_eq]
  linarith [m.nonneg]

/-- BTC are priced exactly as far as their price fits its column. -/
theorem convert_back {m target : Money} (hasset : m.asset = BTC)
    (hle : m.amount ≤ Ledger.largestBtc)
    (h : m.convert backRate.toDecimal USDT = .ok target) :
    target.amount = backRate.price m.amount := by
  have hfixed : IsFixed 17 (m.amount * backRate.rate.1) := by
    obtain ⟨n, hn⟩ := m.fixed
    rw [hasset] at hn
    refine ⟨n * 62111801242236, ?_⟩
    rw [hn, backRate_eq]
    norm_num [BTC]
    ring
  refine amount_of_convert h hfixed ?_ (by decide)
  rw [Ledger.largestBtc] at hle
  rw [backRate_eq]
  norm_num at hle ⊢
  linarith

/-- **The smallest amount that is worth something.** -/
theorem price_forth_eq_zero_iff {m : Money} (hasset : m.asset = USDT) :
    forthRate.price m.amount = 0 ↔ m.amount < leastUsdt := by
  obtain ⟨n, hn⟩ := m.fixed
  have hpos := m.nonneg
  rw [hasset] at hn
  have hscale : m.amount * forthRate.rate.1 * 10 ^ forthRate.targetAsset.scale =
      n * 161 / 10 ^ 5 := by
    rw [hn, forthRate_eq]
    norm_num [forthRate, USDT, BTC]
    ring
  rw [ExchangeRate.price, div_eq_zero_iff, or_iff_left (by positivity), Int.cast_eq_zero,
    Int.floor_eq_zero_iff, Set.mem_Ico, hscale, leastUsdt]
  rw [hn] at hpos ⊢
  norm_num [USDT] at hpos ⊢
  constructor
  · rintro ⟨-, h⟩
    have hunits : n < 622 := by
      by_contra hlarge
      have : (622 : ℚ) ≤ n := by exact_mod_cast not_lt.1 hlarge
      linarith
    have : (n : ℚ) ≤ 621 := by exact_mod_cast Int.le_of_lt_add_one hunits
    linarith
  · intro h
    have hunits : n < 622 := by
      by_contra hlarge
      have : (622 : ℚ) ≤ n := by exact_mod_cast not_lt.1 hlarge
      linarith
    have hle : (n : ℚ) ≤ 621 := by exact_mod_cast Int.le_of_lt_add_one hunits
    constructor <;> linarith

/-- Every amount of BTC is worth something. -/
theorem price_back_ne_zero {m : Money} (hasset : m.asset = BTC) (hpos : 0 < m.amount) :
    backRate.price m.amount ≠ 0 := by
  obtain ⟨n, hn⟩ := m.fixed
  rw [hasset] at hn
  have hunits : 1 ≤ n := by
    by_contra hsmall
    have : (n : ℚ) ≤ 0 := by exact_mod_cast Int.lt_add_one_iff.1 (not_le.1 hsmall)
    rw [hn] at hpos
    norm_num [BTC] at hpos
    exact absurd hpos (by exact_mod_cast not_lt.2 this)
  have hone : (1 : ℚ) ≤ n := by exact_mod_cast hunits
  have hscale : m.amount * backRate.rate.1 * 10 ^ backRate.targetAsset.scale =
      n * 62111801242236 / 10 ^ 11 := by
    rw [hn, backRate_eq]
    norm_num [backRate, USDT, BTC]
    ring
  rw [ExchangeRate.price, Ne, div_eq_zero_iff, or_iff_left (by positivity), Int.cast_eq_zero,
    Int.floor_eq_zero_iff, Set.mem_Ico, hscale, not_and, not_lt]
  intro
  norm_num
  linarith

/-! ### Creating the quote -/

/-- What the client is told of an amount that is worth nothing. -/
def worthless (source : Money) (rate : ExchangeRate) : String :=
  s!"Quoted target amount rounds to zero for {source.toString} at rate " ++ rate.toString

/-- A quote for what was asked, at a rate. -/
structure QuotedAt (user : UserId) (rate : ExchangeRate) (generatedId : Uuid) (now : Date)
    (q : Quote) : Prop where
  id_eq : q.id.value = generatedId.value
  user_eq : q.userId = user
  rate_eq : q.rate = rate
  source : q.sourceAmount.asset = rate.sourceAsset
  target : q.targetAmount.asset = rate.targetAsset
  createdAt : q.createdAt = now
  expiresAt : q.expiresAt.getTime = now.getTime + 20000
  active : q.status = .ACTIVE

section Create

variable {id : QuoteId} {user : UserId} {source target : Money} {rate : ExchangeRate} {now : Date}

/-- What becomes of a quote when the amount was converted. -/
theorem create_eq (hasset : source.asset = rate.sourceAsset) (hpos : 0 < source.amount)
    (hconvert : source.convert rate.toDecimal rate.targetAsset = .ok target) :
    Quote.create id user source rate now none =
      if target.isZero = true then .error (Quote.invalid (worthless source rate))
      else match Date.ofTime? (now.getTime + 20000) with
        | none => .error (.error "Invalid time value")
        | some expiresAt => Quote.new id user source target rate now expiresAt .ACTIVE none := by
  have hsource : source.isZero = false := decide_eq_false hpos.ne'
  have hcode : ¬ source.asset.code ≠ rate.sourceAsset.code := not_not_intro (by rw [hasset])
  have httl : ¬ (20 : ℤ) ≤ 0 := by decide
  unfold Quote.create
  simp only [Option.getD_none, QUOTE_TTL_SECONDS, if_neg httl, if_neg hcode, hsource,
    if_neg Bool.false_ne_true, hconvert, bind, Except.bind]
  split_ifs <;> rfl

/-- A quote that would be worth nothing is refused. -/
theorem create_worthless (hasset : source.asset = rate.sourceAsset) (hpos : 0 < source.amount)
    (hconvert : source.convert rate.toDecimal rate.targetAsset = .ok target)
    (hzero : target.amount = 0) :
    Quote.create id user source rate now none =
      .error (Quote.invalid (worthless source rate)) := by
  have htarget : target.isZero = true := decide_eq_true hzero
  rw [create_eq hasset hpos hconvert, if_pos htarget]

/-- A quote that is worth something is created. -/
theorem create_priced (hasset : source.asset = rate.sourceAsset) (hpos : 0 < source.amount)
    (hconvert : source.convert rate.toDecimal rate.targetAsset = .ok target)
    (hzero : target.amount ≠ 0) {generatedId : Uuid}
    (hid : id.value = generatedId.value) (hexpiry : |now.getTime + 20000| ≤ 8640000000000000) :
    ∃ q, Quote.create id user source rate now none = .ok q ∧ q.sourceAmount = source ∧
      q.targetAmount = target ∧ QuotedAt user rate generatedId now q := by
  have htarget : target.isZero = false := decide_eq_false hzero
  have hdate : Date.ofTime? (now.getTime + 20000) = some ⟨now.getTime + 20000, hexpiry⟩ :=
    dif_pos hexpiry
  have htasset := Money.convert_asset hconvert
  have hpair : ¬ (source.asset.code ≠ rate.sourceAsset.code ∨
      target.asset.code ≠ rate.targetAsset.code) := by
    rw [hasset, htasset]
    simp
  have hsource : ¬ source.isZero = true := by simpa [Money.isZero] using hpos.ne'
  have hlater : ¬ now.getTime + 20000 ≤ now.getTime := by omega
  rw [create_eq hasset hpos hconvert, htarget, if_neg Bool.false_ne_true, hdate]
  dsimp only
  rw [Quote.new, dif_neg (by decide), dif_neg (by decide), dif_neg (by simp), dif_neg hpair,
    dif_neg hsource, dif_neg hlater]
  exact ⟨_, rfl, rfl, rfl, ⟨hid, rfl, rfl, hasset, htasset, rfl, rfl, rfl⟩⟩

end Create

namespace Ledger

variable {env : Platform} {body : CreateQuoteDto} {generatedId : Uuid} {now : Date} {db : Db}

/-! ### The answers -/

/-- A request that is refused, with what the client is told. -/
def refusedQuote (message : String) : Handled QuoteResponse :=
  ⟨[], .error (.http (.badRequest (errorBody "INVALID_QUOTE_REQUEST" message)))⟩

/-- **What a request for a quote is answered**, and the tables it leaves. -/
inductive QuoteAnswer (env : Platform) (body : CreateQuoteDto) (generatedId : Uuid) (now : Date)
    (db : Db) : Ending DbError Thrown (Handled QuoteResponse) × Db → Prop where
  | unknownSource (source : ∀ asset, ¬ Names body.sourceAsset asset) :
      QuoteAnswer env body generatedId now db
        (.returned (refusedQuote (unknownAsset body.sourceAsset)), db)
  | unknownTarget {asset : Asset} (source : Names body.sourceAsset asset)
      (target : ∀ asset, ¬ Names body.targetAsset asset) :
      QuoteAnswer env body generatedId now db
        (.returned (refusedQuote (unknownAsset body.targetAsset)), db)
  | tooManyDecimals {asset asset' : Asset} {x : Magnitude} (source : Names body.sourceAsset asset)
      (target : Names body.targetAsset asset') (amount : Denotes body.sourceAmount.toList x.1)
      (decimals : ¬ IsFixed asset.scale x.1) :
      QuoteAnswer env body generatedId now db
        (.returned (refusedQuote (WalletConversion.tooManyDecimals x asset)), db)
  | samePair {asset : Asset} {x : Magnitude} (source : Names body.sourceAsset asset)
      (target : Names body.targetAsset asset) (amount : Denotes body.sourceAmount.toList x.1)
      (decimals : IsFixed asset.scale x.1) :
      QuoteAnswer env body generatedId now db (.returned (refusedQuote
        s!"No deterministic rate configured for {asset.code} -> {asset.code}"), db)
  | worthless {m : Money} (source : Names body.sourceAsset USDT)
      (target : Names body.targetAsset BTC)
      (asset : m.asset = USDT) (amount : Denotes body.sourceAmount.toList m.amount)
      (least : m.amount < leastUsdt) :
      QuoteAnswer env body generatedId now db
        (.returned (refusedQuote (WalletConversion.worthless m forthRate)), db)
  | nul {rate : ExchangeRate} {m : Money} (listed : Listed rate)
      (source : Names body.sourceAsset rate.sourceAsset)
      (target : Names body.targetAsset rate.targetAsset) (asset : m.asset = rate.sourceAsset)
      (amount : Denotes body.sourceAmount.toList m.amount)
      (least : rate = forthRate → leastUsdt ≤ m.amount) (user : ¬ storable body.userId = true) :
      QuoteAnswer env body generatedId now db (.refused .invalidText, db)
  | tooLarge {m : Money} (source : Names body.sourceAsset BTC)
      (target : Names body.targetAsset USDT)
      (asset : m.asset = BTC) (amount : Denotes body.sourceAmount.toList m.amount)
      (user : storable body.userId = true) (most : largestBtc < m.amount) :
      QuoteAnswer env body generatedId now db (.refused .numericOverflow, db)
  | quoted {rate : ExchangeRate} {user : UserId} {q : Quote} {row : QuoteRow} (listed : Listed rate)
      (source : Names body.sourceAsset rate.sourceAsset)
      (target : Names body.targetAsset rate.targetAsset)
      (amount : Denotes body.sourceAmount.toList q.sourceAmount.amount)
      (least : rate = forthRate → leastUsdt ≤ q.sourceAmount.amount)
      (most : rate = backRate → q.sourceAmount.amount ≤ largestBtc)
      (text : storable body.userId = true)
      (named : user.value = trim body.userId) (quotedAt : QuotedAt user rate generatedId now q)
      (price : q.targetAmount.amount = rate.price q.sourceAmount.amount)
      (stored : q.StoredAs env generatedId.value row)
      (shown : (QuotesController.toResponse q).status = "ACTIVE") :
      QuoteAnswer env body generatedId now db
        (.returned ⟨[.quoteCreatedTotal], .ok (QuotesController.toResponse q)⟩,
          { db with quotes := db.quotes.insert generatedId.value row })

/-- A request whose quote is not built. -/
theorem create_of_error {e : JsError}
    (h : CreateQuoteUseCase.build env body.command generatedId now = .error e) :
    (QuotesController.create env body generatedId now).solo postgres none db =
      (.returned (refusedQuote e.message), db) := by
  simp only [QuotesController.create, CreateQuoteUseCase.execute, h]
  rfl

/-- A request whose quote is saved. -/
theorem create_of_ok {q : Quote}
    (h : CreateQuoteUseCase.build env body.command generatedId now = .ok q) :
    QuotesController.create env body generatedId now =
      .call (.upsertQuote (PrismaQuoteRepository.data q)) fun _ ↦
        .ret ⟨[.quoteCreatedTotal], .ok (QuotesController.toResponse q)⟩ := by
  simp only [QuotesController.create, CreateQuoteUseCase.execute, h]
  rfl

/-- The two registered assets are priced in each other, and in nothing else. -/
theorem listed_or_eq {source target : Asset} (hsource : source ∈ Registry.wellKnown.assets)
    (htarget : target ∈ Registry.wellKnown.assets) :
    source = target ∨ ∃ rate, Listed rate ∧ rate.sourceAsset = source ∧
      rate.targetAsset = target := by
  rcases List.mem_pair.1 hsource with rfl | rfl <;> rcases List.mem_pair.1 htarget with rfl | rfl
  · exact .inl rfl
  · exact .inr ⟨forthRate, .forth, rfl, rfl⟩
  · exact .inr ⟨backRate, .back, rfl, rfl⟩
  · exact .inl rfl

/-- No asset is exchanged for itself. -/
theorem getRate_self {asset : Asset} (h : asset ∈ Registry.wellKnown.assets) (js : DecimalJs) :
    FakePricingProvider.getRate js asset asset = .error ⟨.UnsupportedAssetPairError,
      s!"No deterministic rate configured for {asset.code} -> {asset.code}"⟩ := by
  rcases List.mem_pair.1 h with rfl | rfl <;> rfl

section Build

variable {user : UserId} {x : Magnitude} {source target : Asset}

/-- What is left of the request once its user is read. -/
theorem build_eq (hassets : env.registry = .wellKnown) (h : Readable body user x) :
    CreateQuoteUseCase.build env body.command generatedId now =
      (Asset.of .wellKnown body.sourceAsset).bind fun source ↦
        (Asset.of .wellKnown body.targetAsset).bind fun target ↦
          (Money.of env.toDecimalJs body.sourceAmount source).bind fun amount ↦
            (FakePricingProvider.getRate env.toDecimalJs source target).bind fun rate ↦
              Quote.create generatedId user amount rate now none := by
  simp only [CreateQuoteUseCase.build, CreateQuoteDto.command, h.user, hassets,
    QuoteId.of_value, bind,
    Except.bind]

/-- What is left of it once its assets are known. -/
theorem build_of_names (hassets : env.registry = .wellKnown) (h : Readable body user x)
    (hsource : Names body.sourceAsset source) (htarget : Names body.targetAsset target) :
    CreateQuoteUseCase.build env body.command generatedId now =
      (Money.of env.toDecimalJs body.sourceAmount source).bind fun amount ↦
        (FakePricingProvider.getRate env.toDecimalJs source target).bind fun rate ↦
          Quote.create generatedId user amount rate now none := by
  rw [build_eq hassets h, hsource.of_eq, htarget.of_eq]
  rfl

/-- What is left of it once its rate is found. -/
theorem build_of_listed (hassets : env.registry = .wellKnown) (h : Readable body user x)
    {rate : ExchangeRate} (hlisted : Listed rate)
    (hsource : Names body.sourceAsset rate.sourceAsset)
    (htarget : Names body.targetAsset rate.targetAsset) {m : Money}
    (hm : m.asset = rate.sourceAsset)
    (hx : m.amount = x.1) :
    CreateQuoteUseCase.build env body.command generatedId now =
      Quote.create generatedId user m rate now none := by
  have hamount : Money.of env.toDecimalJs body.sourceAmount rate.sourceAsset = .ok m := by
    rw [← hm]
    refine Money.of_denotes _ ?_
    rw [hx]
    exact h.amount
  rw [build_of_names hassets h hsource htarget, hamount, hlisted.getRate]
  rfl

end Build

/-- A new quote is shown as active. -/
theorem shown_active {q : Quote} (h : q.status = .ACTIVE) :
    (QuotesController.toResponse q).status = "ACTIVE" := by
  have hexpired : ¬ q.isExpired q.createdAt = true := by
    have hexpiry := q.expiry
    simp only [Quote.isExpired, decide_eq_true_eq, not_and, not_lt]
    omega
  simp only [QuotesController.toResponse, Quote.statusAt, h, if_neg hexpired]
  rfl

/-- Of the amounts of BTC, the large ones are priced out of range. -/
theorem lt_or_price_back {m t : Money} (hm : m.asset = BTC)
    (h : m.convert backRate.toDecimal USDT = .ok t) :
    (largestBtc < m.amount ∧ 10 ^ 20 ≤ t.amount) ∨
      (m.amount ≤ largestBtc ∧ t.amount < 10 ^ 20 ∧ t.amount = backRate.price m.amount) := by
  have hlt := converted_lt_iff hm backRate_eq h
  rcases lt_or_ge largestBtc m.amount with hlarge | hle
  · exact .inl ⟨hlarge, not_lt.1 (mt hlt.1 (not_le.2 hlarge))⟩
  · exact .inr ⟨hle, hlt.2 hle, convert_back hm hle h⟩

/-- The answer to a request between the two assets. -/
theorem listed_answered (hassets : env.registry = .wellKnown) {user : UserId} {x : Magnitude}
    (h : Readable body user x) (hfresh : db.quotes.lookup generatedId.value = none)
    (hexpiry : |now.getTime + 20000| ≤ 8640000000000000) {rate : ExchangeRate}
    (hlisted : Listed rate)
    (hsource : Names body.sourceAsset rate.sourceAsset)
    (htarget : Names body.targetAsset rate.targetAsset) {m : Money}
    (hm : m.asset = rate.sourceAsset)
    (hx : m.amount = x.1) :
    QuoteAnswer env body generatedId now db
      ((QuotesController.create env body generatedId now).solo postgres none db) := by
  have hbuild : CreateQuoteUseCase.build env body.command generatedId now =
      Quote.create generatedId user m rate now none :=
    build_of_listed hassets h hlisted hsource htarget hm hx
  have hamount := h.amount
  have hpos := h.positive
  have hsmall := h.small
  rw [← hx] at hamount hpos hsmall
  obtain ⟨t, hconvert⟩ := hlisted.convert_total m
  -- what is worth nothing
  by_cases hzero : t.amount = 0
  · rw [create_worthless hm hpos hconvert hzero] at hbuild
    rw [create_of_error hbuild]
    cases hlisted with
    | forth =>
      rw [convert_forth hm hsmall hconvert, price_forth_eq_zero_iff hm] at hzero
      exact .worthless hsource htarget hm hamount hzero
    | back =>
      rcases lt_or_price_back hm hconvert with ⟨-, hlarge⟩ | ⟨-, -, hprice⟩
      · rw [hzero] at hlarge
        norm_num at hlarge
      · exact absurd (hprice.symm.trans hzero) (price_back_ne_zero hm hpos)
  obtain ⟨q, hcreate, rfl, rfl, hquoted⟩ := create_priced hm hpos hconvert hzero rfl hexpiry
  rw [hcreate] at hbuild
  have hbuilt := built_of_build hbuild
  have hleast : rate = forthRate → leastUsdt ≤ q.sourceAmount.amount := by
    rintro rfl
    rw [convert_forth hm hsmall hconvert] at hzero
    exact not_lt.1 (mt (price_forth_eq_zero_iff hm).2 hzero)
  -- no text with a `NUL` is saved
  by_cases htext : storable body.userId = true
  swap
  · have hnul : ¬ q.Storable := mt (storable_built_iff hassets hbuild).1 htext
    rw [create_of_ok hbuild, Prog.solo_call_error (refused_of_not_storable hnul db fun _ ↦ false)]
    exact .nul hlisted hsource htarget hm hamount hleast htext
  have hstorable : q.Storable := (storable_built_iff hassets hbuild).2 htext
  -- what is in range is saved
  have hsaved : ∀ (hlt : q.targetAmount.amount < 10 ^ 20)
      (_ : q.targetAmount.amount = rate.price q.sourceAmount.amount)
      (_ : rate = backRate → q.sourceAmount.amount ≤ largestBtc),
      QuoteAnswer env body generatedId now db
        ((QuotesController.create env body generatedId now).solo postgres none db) := by
    intro hlt hprice hmost
    obtain ⟨row, hstored, -, -, hexec⟩ := hbuilt.saved_of_lt hstorable hfresh hsmall hlt
    rw [create_of_ok hbuild, Prog.solo_call_none (hexec fun _ ↦ false)]
    exact .quoted hlisted hsource htarget hamount hleast hmost htext
      (Identifier.of_eq_ok h.user) hquoted
      hprice hstored (shown_active hquoted.active)
  cases hlisted with
  | forth =>
    have hprice := convert_forth hm hsmall hconvert
    refine hsaved ?_ hprice fun hne ↦ absurd (congrArg (·.sourceAsset) hne) (by decide)
    have hle := converted_forth hm hsmall forthRate_eq hconvert
    rw [usdtPrice] at hle
    linarith
  | back =>
    rcases lt_or_price_back hm hconvert with ⟨hmost, hlarge⟩ | ⟨hmost, hlt, hprice⟩
    · have hrefused :=
        hbuilt.refused hstorable hfresh (fun hin ↦ not_le.2 hin.2 hlarge) fun _ ↦ false
      rw [create_of_ok hbuild, Prog.solo_call_error hrefused]
      exact .tooLarge hsource htarget hm hamount htext hmost
    · exact hsaved hlt hprice fun _ ↦ hmost

/-- **The answer to every request that is admitted.** -/
theorem quote_answered (hassets : env.registry = .wellKnown) (hadmits : body.admits = true)
    (hfresh : db.quotes.lookup generatedId.value = none)
    (hexpiry : |now.getTime + 20000| ≤ 8640000000000000) :
    QuoteAnswer env body generatedId now db
      ((QuotesController.create env body generatedId now).solo postgres none db) := by
  obtain ⟨user, x, h⟩ := readable_of_admits hadmits
  have hunread : CreateQuoteUseCase.build env body.command generatedId now = _ := build_eq hassets h
  -- in the order of the checks of the use case
  by_cases hsource : ∃ asset, Names body.sourceAsset asset
  swap
  · rw [not_exists] at hsource
    obtain ⟨_, hnormalized⟩ := h.source
    rw [of_eq_unknown hnormalized hsource] at hunread
    rw [create_of_error hunread]
    exact .unknownSource hsource
  obtain ⟨source, hsource⟩ := hsource
  by_cases htarget : ∃ asset, Names body.targetAsset asset
  swap
  · rw [not_exists] at htarget
    obtain ⟨_, hnormalized⟩ := h.target
    rw [hsource.of_eq, of_eq_unknown hnormalized htarget] at hunread
    rw [create_of_error hunread]
    exact .unknownTarget hsource htarget
  obtain ⟨target, htarget⟩ := htarget
  have hknown : CreateQuoteUseCase.build env body.command generatedId now = _ :=
    build_of_names hassets h hsource htarget
  by_cases hfixed : IsFixed source.scale x.1
  swap
  · rw [Money.of_eq_tooManyDecimals h.amount hfixed] at hknown
    rw [create_of_error hknown]
    exact .tooManyDecimals hsource htarget h.amount hfixed
  rcases listed_or_eq hsource.1 htarget.1 with rfl | ⟨rate, hlisted, rfl, rfl⟩
  · have hamount : Money.of env.toDecimalJs body.sourceAmount source =
        .ok ⟨source, x.1, x.2.1, hfixed⟩ :=
          Money.of_denotes _ (m := ⟨source, x.1, x.2.1, hfixed⟩) h.amount
    rw [hamount, getRate_self hsource.1] at hknown
    rw [create_of_error hknown]
    exact .samePair hsource htarget h.amount hfixed
  · exact listed_answered hassets h hfresh hexpiry hlisted hsource htarget
      (m := ⟨rate.sourceAsset, x.1, x.2.1, hfixed⟩) rfl rfl

/-- One unit of BTC more than the largest amount is refused by the database. -/
theorem quote_answered_sample :
    QuoteAnswer .reference (btcRequest "1610000000000000.64400001") sampleQuoteId sampleTime
      (Db.ofWallets sampleWallets) (.refused .numericOverflow, Db.ofWallets sampleWallets) := by
  have hbuilds : ∃ q, CreateQuoteUseCase.build .reference
      (btcRequest "1610000000000000.64400001").command sampleQuoteId sampleTime = .ok q ∧
      10 ^ 20 ≤ q.targetAmount.amount := exists_ok_of_any (by decide +kernel)
  obtain ⟨q, hbuild, hlarge⟩ := hbuilds
  have hfresh : (Db.ofWallets sampleWallets).quotes.lookup sampleQuoteId.value = none := rfl
  have hstorable : q.Storable := (storable_built_iff rfl hbuild).2 (by decide)
  have hrefused :=
    (built_of_build hbuild).refused hstorable hfresh (fun h ↦ not_le.2 h.2 hlarge) fun _ ↦ false
  have hadmits : (btcRequest "1610000000000000.64400001").admits = true := by decide +kernel
  have hanswer := @quote_answered .reference _ sampleQuoteId sampleTime _ rfl hadmits hfresh
    (by decide)
  rwa [create_of_ok hbuild, Prog.solo_call_error hrefused] at hanswer

end Ledger

end WalletConversion
