import WalletConversion.Ledger.Contract

/-!
# Quote creation keeps the contract

`CreateQuoteUseCase.execute` issues one statement. What it saves was just computed from the request,
so the proof is about `CreateQuoteUseCase.build`: a quote it builds has registered assets, a rate of
the table and the generated id (`Built`). Its row meets every constraint of the table, unless it has
a number out of range, or a text of the request holds a `NUL` (`saved_of_build`).
-/

namespace WalletConversion

open DecimalNotation Transactional

/-! ### Built quotes -/

theorem Money.convert_asset {m m' : Money} {rate : Decimal} {asset : Asset}
    (h : m.convert rate asset = .ok m') : m'.asset = asset := by
  obtain ⟨-, -, -, -, hasset, -⟩ := Money.convert_eq_ok h
  exact hasset

/-- What the constructor of quotes keeps of its arguments. -/
theorem Quote.new_eq_ok {id : QuoteId} {userId : UserId} {source target : Money}
    {rate : ExchangeRate} {createdAt expiresAt : Date} {status : QuoteStatus}
    {acceptedAt : Option Date} {q : Quote}
    (h : Quote.new id userId source target rate createdAt expiresAt status acceptedAt = .ok q) :
    q.id = id ∧ q.userId = userId ∧ q.sourceAmount = source ∧ q.targetAmount = target ∧
      q.rate = rate ∧ q.status = status := by
  unfold Quote.new at h
  split_ifs at h
  cases h
  exact ⟨rfl, rfl, rfl, rfl, rfl, rfl⟩

/-- A quote that was just created: active, of its source amount and rate, worth something. -/
theorem Quote.create_eq_ok {id : QuoteId} {userId : UserId} {source : Money} {rate : ExchangeRate}
    {createdAt : Date} {ttlSeconds : Option ℤ} {q : Quote}
    (h : Quote.create id userId source rate createdAt ttlSeconds = .ok q) :
    q.id = id ∧ q.userId = userId ∧ q.sourceAmount = source ∧ q.rate = rate ∧
      q.status = .ACTIVE ∧ source.convert rate.toDecimal rate.targetAsset = .ok q.targetAmount ∧
      q.targetAmount.amount ≠ 0 := by
  unfold Quote.create at h
  simp only at h
  split at h
  · cases h
  split at h
  · cases h
  split at h
  · cases h
  obtain ⟨target, htarget, h⟩ := except_bind_eq_ok.1 h
  split at h
  · cases h
  rename_i hzero
  split at h
  · cases h
  · obtain ⟨h₁, hu, h₂, h₃, h₄, h₅⟩ := Quote.new_eq_ok h
    refine ⟨h₁, hu, h₂, h₄, h₅, ?_, ?_⟩
    · rw [h₃]
      exact htarget
    · rw [h₃]
      simpa [Money.isZero] using hzero

namespace Ledger

variable {env : Platform}

/-- What is known of a quote the use case has built. -/
structure Built (env : Platform) (generatedId : Uuid) (q : Quote) : Prop where
  id_eq : q.id.value = generatedId.value
  active : q.status = .ACTIVE
  source : q.sourceAmount.asset ∈ env.registry.assets
  target : q.targetAmount.asset ∈ env.registry.assets
  rateSource : q.rate.sourceAsset = q.sourceAmount.asset
  rateTarget : q.rate.targetAsset = q.targetAmount.asset
  rate : FakePricingProvider.getRate env.toDecimalJs q.sourceAmount.asset q.targetAmount.asset =
    .ok q.rate
  converted : q.sourceAmount.convert q.rate.toDecimal q.targetAmount.asset = .ok q.targetAmount
  positive : q.targetAmount.amount ≠ 0

/-- **Everything a built quote was computed from.** -/
theorem build_eq_ok {command : CreateQuoteCommand} {generatedId : Uuid}
    {now : Date} {q : Quote} (h : CreateQuoteUseCase.build env command generatedId now = .ok q) :
    q.id.value = generatedId.value ∧ q.status = .ACTIVE ∧ UserId.of command.userId = .ok q.userId ∧
      Asset.of env.registry command.sourceAsset = .ok q.sourceAmount.asset ∧
      Asset.of env.registry command.targetAsset = .ok q.targetAmount.asset ∧
      Money.of env.toDecimalJs command.sourceAmount q.sourceAmount.asset = .ok q.sourceAmount ∧
      FakePricingProvider.getRate env.toDecimalJs q.sourceAmount.asset q.targetAmount.asset =
        .ok q.rate ∧
      q.sourceAmount.convert q.rate.toDecimal q.targetAmount.asset = .ok q.targetAmount ∧
      q.targetAmount.amount ≠ 0 := by
  obtain ⟨userId, huser, h⟩ := except_bind_eq_ok.1 h
  obtain ⟨sourceAsset, hsource, h⟩ := except_bind_eq_ok.1 h
  obtain ⟨targetAsset, htarget, h⟩ := except_bind_eq_ok.1 h
  obtain ⟨sourceAmount, hamount, h⟩ := except_bind_eq_ok.1 h
  obtain ⟨rate, hrate, h⟩ := except_bind_eq_ok.1 h
  obtain ⟨id, hid, h⟩ := except_bind_eq_ok.1 h
  obtain ⟨hqid, hquser, hqsource, hqrate, hactive, hqtarget, hpos⟩ := Quote.create_eq_ok h
  obtain ⟨-, hrtarget, -⟩ := FakePricingProvider.getRate_eq_ok hrate
  have hmoney : sourceAmount.asset = sourceAsset := Money.of_asset hamount
  rw [hrtarget] at hqtarget
  have htasset : q.targetAmount.asset = targetAsset := Money.convert_asset hqtarget
  rw [QuoteId.of_value] at hid
  cases hid
  subst hquser hqsource hqrate hmoney htasset
  exact ⟨by rw [hqid], hactive, huser, hsource, htarget, hamount, hrate, hqtarget, hpos⟩

theorem built_of_build {command : CreateQuoteCommand} {generatedId : Uuid} {now : Date} {q : Quote}
    (h : CreateQuoteUseCase.build env command generatedId now = .ok q) :
    Built env generatedId q := by
  obtain ⟨hid, hactive, -, hsource, htarget, -, hrate, hconverted, hpos⟩ := build_eq_ok h
  obtain ⟨hrsource, hrtarget, -⟩ := FakePricingProvider.getRate_eq_ok hrate
  exact
    { id_eq := hid
      active := hactive
      source := (Asset.of_eq_ok hsource).1
      target := (Asset.of_eq_ok htarget).1
      rateSource := hrsource
      rateTarget := hrtarget
      rate := hrate
      converted := hconverted
      positive := hpos }

/-- A built quote holds a `NUL` exactly if the request does. -/
theorem storable_of_build {command : CreateQuoteCommand} {generatedId : Uuid}
    {now : Date} {q : Quote}
    (h : CreateQuoteUseCase.build env command generatedId now = .ok q) :
    q.Storable ↔ command.Storable := by
  obtain ⟨hid, -, huser, hsource, htarget, -⟩ := build_eq_ok h
  have huser' : storable q.userId.value = storable command.userId := by
    rw [Identifier.of_eq_ok huser, storable_trim]
  have hsource' := Asset.storable_normalize (Asset.of_eq_ok hsource).2
  have htarget' := Asset.storable_normalize (Asset.of_eq_ok htarget).2
  constructor
  · intro hq
    exact ⟨huser' ▸ hq.user, hsource' ▸ hq.source, htarget' ▸ hq.target⟩
  · intro hcommand
    exact ⟨hid ▸ generatedId.storable_value, huser' ▸ hcommand.user, hsource' ▸ hcommand.source,
      htarget' ▸ hcommand.target⟩

/-- The two pairs of the rate table. -/
theorem pair_of_rate (hassets : env.registry = .wellKnown)
    {source target : Asset} {r : ExchangeRate}
    (hsource : source ∈ env.registry.assets) (htarget : target ∈ env.registry.assets)
    (h : FakePricingProvider.getRate env.toDecimalJs source target = .ok r) :
    (source = USDT ∧ target = BTC ∧ r.rate.1 = 161 / 10 ^ 7) ∨
      (source = BTC ∧ target = USDT ∧ r.rate.1 = 62111801242236 / 10 ^ 9) := by
  obtain ⟨-, -, hrate⟩ := FakePricingProvider.getRate_eq_ok h
  have hmem : ∀ x ∈ env.registry.assets, x = USDT ∨ x = BTC := by
    rw [hassets]
    simp [Registry.wellKnown]
  rcases hmem _ hsource with rfl | rfl <;> rcases hmem _ htarget with rfl | rfl
  · exact absurd (hrate.imp And.left And.left) (by decide)
  · exact .inl ⟨rfl, rfl, (hrate.resolve_right (fun h ↦ absurd h.1 (by decide))).2⟩
  · exact .inr ⟨rfl, rfl, (hrate.resolve_left (fun h ↦ absurd h.1 (by decide))).2⟩
  · exact absurd (hrate.imp And.left And.left) (by decide)

/-- The row of a quote whose amounts are in range. -/
def quoteRow (q : Quote) (source target rate : Numeric) : QuoteRow where
  userId := q.userId.value
  sourceAsset := q.sourceAmount.asset.code
  targetAsset := q.targetAmount.asset.code
  sourceAmount := source
  targetAmount := target
  rate := rate
  status := q.status
  createdAt := q.createdAt
  expiresAt := q.expiresAt
  acceptedAt := q.acceptedAt

theorem Built.checks {generatedId : Uuid} {q : Quote} (h : Built env generatedId q)
    (hs18 : q.sourceAmount.asset.scale ≤ 18) (hs : q.sourceAmount.amount < 10 ^ 20)
    (ht18 : q.targetAmount.asset.scale ≤ 18) (ht : q.targetAmount.amount < 10 ^ 20)
    (hrate : |q.rate.rate.1| < 10 ^ 20) :
    (quoteRow q (q.sourceAmount.toColumn hs18 hs) (q.targetAmount.toColumn ht18 ht)
      ⟨q.rate.rate.1, (FakePricingProvider.rate_fits h.rate).1, hrate⟩).violated = none := by
  refine QuoteRow.violated_eq_none.2 ⟨⟨?_, ?_, q.rate.rate_pos⟩, ?_, ?_, q.expiry⟩
  · exact lt_of_le_of_ne q.sourceAmount.nonneg (Ne.symm q.positive)
  · exact lt_of_le_of_ne q.targetAmount.nonneg (Ne.symm h.positive)
  · show q.sourceAmount.asset.code ≠ q.targetAmount.asset.code
    rw [← h.rateSource, ← h.rateTarget]
    exact q.rate.distinct
  · show (q.status = .ACTIVE ∧ q.acceptedAt = none) ∨ _
    rcases q.lifecycle with hq | ⟨hq, -⟩
    · exact Or.inl hq
    · rw [h.active] at hq
      cases hq

/-- A built quote without a `NUL` whose amounts are in range is stored. -/
theorem Built.saved_of_lt {generatedId : Uuid} {q : Quote} (h : Built env generatedId q)
    (hstorable : q.Storable) {db : Db} (hnew : db.quotes.lookup generatedId.value = none)
    (hs : q.sourceAmount.amount < 10 ^ 20)
    (ht : q.targetAmount.amount < 10 ^ 20) :
    ∃ row, q.StoredAs env generatedId.value row ∧ row.violated = none ∧ row.status = .ACTIVE ∧
      ∀ locked, exec (.upsertQuote (PrismaQuoteRepository.data q)) locked db =
        .ok ((), [.putQuote generatedId.value row]) := by
  have hnew' : db.quotes.lookup q.id.value = none := by rwa [h.id_eq]
  have hs18 := env.registry.scale_le _ h.source
  have ht18 := env.registry.scale_le _ h.target
  obtain ⟨hfixed, hlt⟩ := FakePricingProvider.rate_fits h.rate
  have hrate : |q.rate.rate.1| < 10 ^ 20 := by rwa [abs_of_nonneg q.rate.rate.2.1]
  have hstored : q.StoredAs env generatedId.value
      (quoteRow q (q.sourceAmount.toColumn hs18 hs) (q.targetAmount.toColumn ht18 ht)
        ⟨q.rate.rate.1, hfixed, hrate⟩) :=
    { storable := hstorable
      id_eq := h.id_eq.symm
      user_eq := rfl
      source := ⟨h.source, rfl, rfl⟩
      target := ⟨h.target, rfl, rfl⟩
      rateSource := h.rateSource
      rateTarget := h.rateTarget
      rate_eq := rfl
      status_eq := rfl
      createdAt_eq := rfl
      expiresAt_eq := rfl
      acceptedAt_eq := rfl }
  have hchecks := h.checks hs18 hs ht18 ht hrate
  exact ⟨_, hstored, hchecks, h.active, exec_saveQuote_new hstored hchecks hnew⟩

/-- A quote with a `NUL` is refused. -/
theorem refused_of_not_storable {q : Quote} (hnul : ¬ q.Storable) (db : Db)
    (locked : LockKey → Bool) :
    exec (.upsertQuote (PrismaQuoteRepository.data q)) locked db = .error .invalidText := by
  simp only [exec, storing_of_ne (mt Quote.storing_eq_ok.1 hnul), bind, Except.bind]

/-- A built quote with an amount out of range is refused. -/
theorem Built.refused {generatedId : Uuid} {q : Quote} (h : Built env generatedId q)
    (hstorable : q.Storable) {db : Db} (hnew : db.quotes.lookup generatedId.value = none)
    (hlarge : ¬ (q.sourceAmount.amount < 10 ^ 20 ∧ q.targetAmount.amount < 10 ^ 20))
    (locked : LockKey → Bool) :
    exec (.upsertQuote (PrismaQuoteRepository.data q)) locked db = .error .numericOverflow := by
  have hnew' : db.quotes.lookup q.id.value = none := by rwa [h.id_eq]
  have hs18 := env.registry.scale_le _ h.source
  have ht18 := env.registry.scale_le _ h.target
  simp only [exec, Quote.storing_eq_ok.2 hstorable, bind, Except.bind]
  by_cases hs : q.sourceAmount.amount < 10 ^ 20
  · have hsource : column q.sourceAmount.toString = .ok (q.sourceAmount.toColumn hs18 hs) :=
      column_toString rfl
    have htarget := column_toString_overflow ht18 fun ht ↦ hlarge ⟨hs, ht⟩
    simp only [PrismaQuoteRepository.data, hnew', hsource, htarget]
  · have hsource := column_toString_overflow hs18 hs
    simp only [PrismaQuoteRepository.data, hnew', hsource]

/-- **A built quote is stored, or holds a `NUL`, or has a number out of range.** -/
theorem saved_of_build {command : CreateQuoteCommand} {generatedId : Uuid} {now : Date} {q : Quote}
    (hbuild : CreateQuoteUseCase.build env command generatedId now = .ok q) {db : Db}
    (hnew : db.quotes.lookup generatedId.value = none) :
    (∃ e, MayRefuse (.createQuote command generatedId now) db e ∧
      ∀ locked, exec (.upsertQuote (PrismaQuoteRepository.data q)) locked db = .error e) ∨
    ∃ row, q.StoredAs env generatedId.value row ∧ row.violated = none ∧ row.status = .ACTIVE ∧
      ∀ locked, exec (.upsertQuote (PrismaQuoteRepository.data q)) locked db =
        .ok ((), [.putQuote generatedId.value row]) := by
  have hbuilt := built_of_build hbuild
  by_cases hstorable : q.Storable
  · by_cases hrange : q.sourceAmount.amount < 10 ^ 20 ∧ q.targetAmount.amount < 10 ^ 20
    · exact .inr (hbuilt.saved_of_lt hstorable hnew hrange.1 hrange.2)
    · exact .inl ⟨_, .inl ⟨rfl, trivial⟩, hbuilt.refused hstorable hnew hrange⟩
  · exact .inl ⟨_, .inr ⟨rfl, mt (storable_of_build hbuild).2 hstorable⟩,
      refused_of_not_storable hstorable db⟩

/-- **Creating a quote keeps the contract.** -/
theorem createQuote_wp {opening : Table (String × String) WalletRow} {observed : Db → Db → Prop}
    {command : CreateQuoteCommand} {generatedId : Uuid} {now : Date} {db : Db}
    (hfresh : (Task.createQuote command generatedId now).Fresh db) :
    (ledger env opening observed).wp (.createQuote command generatedId now)
      ((Task.createQuote command generatedId now).program env) (fun _ o _ _ ↦ o = none) none []
      db := by
  rcases hbuild : CreateQuoteUseCase.build env command generatedId now with e | q
  · have hprogram : (Task.createQuote command generatedId now).program env =
        Prog.raise (.error ⟨.InvalidQuoteRequestError, e.message⟩) := by
      simp only [Task.program, CreateQuoteUseCase.execute, hbuild]
      rfl
    rw [hprogram]
    exact Contract.wp_raise fun _ _ _ ↦ rfl
  · have hprogram : (Task.createQuote command generatedId now).program env =
        .call (.upsertQuote (PrismaQuoteRepository.data q)) fun _ ↦ Prog.ret (.quote q) := by
      simp only [Task.program, CreateQuoteUseCase.execute, hbuild]
      rfl
    rw [hprogram]
    refine wp_autocommit_or_refused fun db' hr hi ↦ ?_
    have hnew : db'.quotes.lookup generatedId.value = none := fresh_of_rely hr hfresh
    refine (saved_of_build hbuild hnew).imp id ?_
    rintro ⟨row, hstored, hchecks, hactive, hexec⟩
    exact ⟨(), _, hexec, fun _ _ ↦ trivial, .quoteCreated hbuild hstored hchecks hactive hnew,
      fun _ ↦ Contract.wp_ret fun _ _ _ ↦ rfl⟩

end Ledger

end WalletConversion
