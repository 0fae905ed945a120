import WalletConversion.Application.System

/-!
# Domain objects and their rows

`StoredAs` relates a domain object to the row that stores it. It is what the repositories need to
rebuild the object: the assets are registered and the columns hold the exact numbers. The three
round trips say that `toDomain` then returns the object itself, and that the texts the repositories
send for an amount are stored as that amount.
-/

namespace WalletConversion

open DecimalNotation

/-! ### Amounts in columns -/

/-- The amount as it is stored in its column. -/
def Money.toColumn (m : Money) (hscale : m.asset.scale ≤ 18) (hlt : m.amount < 10 ^ 20) : Numeric :=
  ⟨m.amount, m.fixed.mono hscale, by rwa [abs_of_nonneg m.nonneg]⟩

/-- A text that denotes a number is that number in SQL. -/
theorem number_of_denotesSigned {text : String} {q : ℚ} (h : DenotesSigned text.toList q) :
    number text = .ok q := by
  obtain ⟨d, hd, rfl⟩ := h
  rw [number, hd]

/-- PostgreSQL reads the number a text denotes. -/
theorem number_of_denotes {text : String} {q : ℚ} (h : Denotes text.toList q) :
    number text = .ok q := number_of_denotesSigned h.signed

@[simp] theorem number_toString (m : Money) : number m.toString = .ok m.amount :=
  number_of_denotes m.denotes_toString

/-- Assigning a number with at most 18 decimals stores it exactly, or overflows. -/
theorem assign_of_isFixed {q : ℚ} (h : IsFixed 18 q) :
    assign q = if hlt : |q| < 10 ^ 20 then .ok ⟨q, h, hlt⟩ else .error .numericOverflow := by
  rw [assign, Numeric.store_of_isFixed h]
  by_cases hlt : |q| < 10 ^ 20
  · rw [dif_pos hlt, dif_pos hlt, Option.elim_some]
  · rw [dif_neg hlt, dif_neg hlt, Option.elim_none]

/-- What a column takes, it stores as it is. -/
theorem assign_eq_ok {q : ℚ} {n : Numeric} (h : IsFixed 18 q) (hn : assign q = .ok n) :
    n.1 = q := by
  rw [assign_of_isFixed h] at hn
  split at hn
  · cases hn
    rfl
  · cases hn

/-- An amount that was stored is stored exactly. -/
theorem column_toString_eq_ok {m : Money} {n : Numeric} (hscale : m.asset.scale ≤ 18)
    (h : column m.toString = .ok n) : n.1 = m.amount := by
  rw [column, number_toString] at h
  exact assign_eq_ok (m.fixed.mono hscale) h

/-- **A text stored in a column is stored exactly**, or overflows. -/
theorem column_of_denotes {text : String} {q : ℚ} (h : Denotes text.toList q)
    (hq : IsFixed 18 q) :
    column text = if hlt : |q| < 10 ^ 20 then .ok ⟨q, hq, hlt⟩ else .error .numericOverflow := by
  rw [column, number_of_denotes h]
  exact assign_of_isFixed hq

/-- An amount that is stored in a column is sent as a text for just that column. -/
theorem column_toString {m : Money} {n : Numeric} (h : n.1 = m.amount) :
    column m.toString = .ok n := by
  have hden := m.denotes_toString
  rw [← h] at hden
  rw [column_of_denotes hden n.2.1, dif_pos n.2.2]

/-! ### Stored objects -/

section Stored

variable (env : Platform)

/-- An amount of a registered asset and its two columns. -/
structure Money.StoredAs (m : Money) (code : String) (n : Numeric) : Prop where
  registered : m.asset ∈ env.registry.assets
  code_eq : code = m.asset.code
  amount_eq : n.1 = m.amount

/-- The asset of a stored amount is read back. -/
theorem Money.StoredAs.asset {env : Platform} {m : Money} {code : String} {n : Numeric}
    (h : m.StoredAs env code n) : Asset.of env.registry code = .ok m.asset := by
  rw [h.code_eq]
  exact Asset.of_code h.registered

/-- The text of a stored amount is read back as the amount. -/
theorem Money.StoredAs.of_numericText {env : Platform} {m : Money} {code : String} {n : Numeric}
    (h : m.StoredAs env code n) :
    Money.of env.toDecimalJs (env.numericText n) m.asset = .ok m := by
  have hden := env.denotes_numericText n (h.amount_eq ▸ m.nonneg)
  rw [h.amount_eq] at hden
  exact Money.of_denotes _ hden

/-- A stored amount has no more decimals than its column. -/
theorem Money.StoredAs.scale_le {env : Platform} {m : Money} {code : String} {n : Numeric}
    (h : m.StoredAs env code n) : m.asset.scale ≤ 18 :=
  env.registry.scale_le _ h.registered

/-- Writing a stored amount again stores the same. -/
theorem Money.StoredAs.column {env : Platform} {m : Money} {code : String} {n : Numeric}
    (h : m.StoredAs env code n) : WalletConversion.column m.toString = .ok n :=
  column_toString h.amount_eq

/-- No text of the quote holds a `NUL`. -/
structure Quote.Storable (q : Quote) : Prop where
  id : storable q.id.value = true
  user : storable q.userId.value = true
  source : storable q.sourceAmount.asset.code = true
  target : storable q.targetAmount.asset.code = true

/-- The texts of a quote are taken exactly when it is storable. -/
theorem Quote.storing_eq_ok {q : Quote} :
    storing (PrismaQuoteRepository.data q).texts = .ok () ↔ q.Storable := by
  rw [WalletConversion.storing_eq_ok]
  simp only [QuoteData.texts, PrismaQuoteRepository.data, List.forall_mem_cons,
    List.not_mem_nil, false_imp_iff, implies_true, and_true, Quote.sourceAsset, Quote.targetAsset]
  exact ⟨fun ⟨h₁, h₂, h₃, h₄⟩ ↦ ⟨h₁, h₂, h₃, h₄⟩, fun h ↦ ⟨h.id, h.user, h.source, h.target⟩⟩

/-- A quote and its row. -/
structure Quote.StoredAs (q : Quote) (id : String) (row : QuoteRow) : Prop where
  storable : q.Storable
  id_eq : id = q.id.value
  user_eq : row.userId = q.userId.value
  source : q.sourceAmount.StoredAs env row.sourceAsset row.sourceAmount
  target : q.targetAmount.StoredAs env row.targetAsset row.targetAmount
  rateSource : q.rate.sourceAsset = q.sourceAmount.asset
  rateTarget : q.rate.targetAsset = q.targetAmount.asset
  rate_eq : row.rate.1 = q.rate.rate.1
  status_eq : row.status = q.status
  createdAt_eq : row.createdAt = q.createdAt
  expiresAt_eq : row.expiresAt = q.expiresAt
  acceptedAt_eq : row.acceptedAt = q.acceptedAt

/-- **A stored quote is read back as itself.** -/
theorem Quote.StoredAs.toDomain {env : Platform} {q : Quote} {id : String} {row : QuoteRow}
    (h : q.StoredAs env id row) : PrismaQuoteRepository.toDomain env id row = .ok q := by
  have hstatus : ¬ q.status = .EXPIRED := by
    rcases q.lifecycle with ⟨hs, -⟩ | ⟨hs, -⟩ <;> simp [hs]
  have hrate : ExchangeRate.of env.toDecimalJs q.sourceAmount.asset q.targetAmount.asset
      (env.numericText row.rate) = .ok q.rate := by
    have hden := env.denotes_numericText row.rate (h.rate_eq ▸ q.rate.rate.2.1)
    rw [h.rate_eq] at hden
    rw [← h.rateSource, ← h.rateTarget]
    exact ExchangeRate.of_denotes _ hden
  simp only [PrismaQuoteRepository.toDomain, h.source.asset, h.target.asset, bind, Except.bind,
    h.id_eq, QuoteId.of_value, h.user_eq, UserId.of_value,
    h.source.of_numericText, h.target.of_numericText, hrate, h.createdAt_eq, h.expiresAt_eq,
    h.status_eq, h.acceptedAt_eq]
  rw [if_neg hstatus]
  exact q.reconstitute_self

/-- No text of the conversion holds a `NUL`. -/
structure Conversion.Storable (c : Conversion) : Prop where
  id : storable c.id.value = true
  quote : storable c.quoteId.value = true
  user : storable c.userId.value = true
  source : storable c.sourceAmount.asset.code = true
  target : storable c.targetAmount.asset.code = true
  execution : ∀ eventId ∈ c.exchangeExecutionId, storable eventId = true
  reason : ∀ reason ∈ c.failureReason, storable reason = true

/-- The texts of a conversion are taken exactly when it is storable. -/
theorem Conversion.storing_eq_ok {c : Conversion} :
    storing (PrismaConversionRepository.data c).texts = .ok () ↔ c.Storable := by
  rw [WalletConversion.storing_eq_ok]
  simp only [ConversionData.texts, PrismaConversionRepository.data, List.forall_mem_append,
    List.forall_mem_cons, List.not_mem_nil, false_imp_iff, implies_true, and_true,
    Option.mem_toList]
  exact ⟨fun ⟨⟨⟨h₁, h₂, h₃, h₄, h₅⟩, h₆⟩, h₇⟩ ↦ ⟨h₁, h₂, h₃, h₄, h₅, h₆, h₇⟩,
    fun h ↦ ⟨⟨⟨h.id, h.quote, h.user, h.source, h.target⟩, h.execution⟩, h.reason⟩⟩

/-- A conversion and its row. -/
structure Conversion.StoredAs (c : Conversion) (id : String) (row : ConversionRow) : Prop where
  storable : c.Storable
  id_eq : id = c.id.value
  quote_eq : row.quoteId = c.quoteId.value
  user_eq : row.userId = c.userId.value
  source : c.sourceAmount.StoredAs env row.sourceAsset row.sourceAmount
  target : c.targetAmount.StoredAs env row.targetAsset row.targetAmount
  status_eq : row.status = c.status
  execution_eq : row.exchangeExecutionId = c.exchangeExecutionId
  reason_eq : row.failureReason = c.failureReason
  createdAt_eq : row.createdAt = c.createdAt
  completedAt_eq : row.completedAt = c.completedAt

/-- **A stored conversion is read back as itself.** -/
theorem Conversion.StoredAs.toDomain {env : Platform} {c : Conversion} {id : String}
    {row : ConversionRow} (h : c.StoredAs env id row) :
    PrismaConversionRepository.toDomain env id row = .ok c := by
  simp only [PrismaConversionRepository.toDomain, h.source.asset, h.target.asset, bind,
    Except.bind, h.id_eq, ConversionId.of_value, h.quote_eq, QuoteId.of_value, h.user_eq,
    UserId.of_value, h.source.of_numericText, h.target.of_numericText, h.status_eq,
    h.execution_eq, h.reason_eq, h.createdAt_eq, h.completedAt_eq]
  rw [Conversion.new, dif_neg c.distinct]

/-- What a quote that was read back has of its row. -/
theorem PrismaQuoteRepository.toDomain_eq_ok {env : Platform} {id : String} {row : QuoteRow}
    {q : Quote} (h : PrismaQuoteRepository.toDomain env id row = .ok q) :
    q.id.value = trim id ∧ q.sourceAmount.asset ∈ env.registry.assets ∧
      q.targetAmount.asset ∈ env.registry.assets ∧ q.status = row.status ∧
      q.expiresAt = row.expiresAt ∧ q.acceptedAt = row.acceptedAt := by
  obtain ⟨sourceAsset, hsource, h⟩ := except_bind_eq_ok.1 h
  obtain ⟨targetAsset, htarget, h⟩ := except_bind_eq_ok.1 h
  split at h
  · cases h
  · rename_i hexpired
    obtain ⟨quoteId, hid, h⟩ := except_bind_eq_ok.1 h
    obtain ⟨userId, -, h⟩ := except_bind_eq_ok.1 h
    obtain ⟨source, hamount, h⟩ := except_bind_eq_ok.1 h
    obtain ⟨target, hamount', h⟩ := except_bind_eq_ok.1 h
    obtain ⟨rate, -, h⟩ := except_bind_eq_ok.1 h
    unfold Quote.reconstitute Quote.new at h
    rw [if_neg hexpired] at h
    split_ifs at h
    cases h
    refine ⟨Identifier.of_eq_ok hid, ?_, ?_, rfl, rfl, rfl⟩
    · rw [Money.of_asset hamount]
      exact (Asset.of_eq_ok hsource).1
    · rw [Money.of_asset hamount']
      exact (Asset.of_eq_ok htarget).1

/-- Reading a conversion back does not depend on its status, nor on when and why it ended. -/
theorem PrismaConversionRepository.toDomain_lifecycle {env : Platform} {id : String}
    {row : ConversionRow} {c : Conversion}
    (h : PrismaConversionRepository.toDomain env id row = .ok c) (status : ConversionStatus)
    (failureReason : Option String) (completedAt : Option Date) :
    PrismaConversionRepository.toDomain env id { row with status, failureReason, completedAt } =
      .ok { c with status, failureReason, completedAt } := by
  obtain ⟨sourceAsset, hsource, h⟩ := except_bind_eq_ok.1 h
  obtain ⟨targetAsset, htarget, h⟩ := except_bind_eq_ok.1 h
  obtain ⟨conversionId, hid, h⟩ := except_bind_eq_ok.1 h
  obtain ⟨quoteId, hquote, h⟩ := except_bind_eq_ok.1 h
  obtain ⟨userId, huser, h⟩ := except_bind_eq_ok.1 h
  obtain ⟨source, hamount, h⟩ := except_bind_eq_ok.1 h
  obtain ⟨target, hamount', h⟩ := except_bind_eq_ok.1 h
  unfold Conversion.new at h
  split at h
  · cases h
  · rename_i hdistinct
    cases h
    simp only [PrismaConversionRepository.toDomain, hsource, htarget, hid, hquote, huser, hamount,
      hamount', bind, Except.bind, Conversion.new]
    rw [dif_neg hdistinct]

/-- What a conversion that was read back has of its row. -/
theorem PrismaConversionRepository.toDomain_eq_ok {env : Platform} {id : String}
    {row : ConversionRow} {c : Conversion}
    (h : PrismaConversionRepository.toDomain env id row = .ok c) :
    c.id.value = trim id ∧ c.status = row.status ∧
      c.exchangeExecutionId = row.exchangeExecutionId := by
  obtain ⟨sourceAsset, -, h⟩ := except_bind_eq_ok.1 h
  obtain ⟨targetAsset, -, h⟩ := except_bind_eq_ok.1 h
  obtain ⟨conversionId, hid, h⟩ := except_bind_eq_ok.1 h
  obtain ⟨quoteId, -, h⟩ := except_bind_eq_ok.1 h
  obtain ⟨userId, -, h⟩ := except_bind_eq_ok.1 h
  obtain ⟨source, -, h⟩ := except_bind_eq_ok.1 h
  obtain ⟨target, -, h⟩ := except_bind_eq_ok.1 h
  unfold Conversion.new at h
  split at h
  · cases h
  · cases h
    exact ⟨Identifier.of_eq_ok hid, rfl, rfl⟩

end Stored

/-! ### Wallets -/

/-- No column of a valid wallet exceeds its balance, which fits its column. -/
theorem WalletRow.bounds {w : WalletRow} (h : w.violated = none) :
    0 ≤ w.available.1 ∧ 0 ≤ w.reserved.1 ∧ w.available.1 + w.reserved.1 = w.balance.1 ∧
      w.balance.1 < 10 ^ 20 := by
  obtain ⟨⟨-, havailable, hreserved⟩, hsum⟩ := WalletRow.violated_eq_none.1 h
  exact ⟨havailable, hreserved, hsum, lt_of_le_of_lt (le_abs_self _) w.balance.2.2⟩

/-- A wallet row that is read back as an aggregate: it meets its checks, and its columns have no
more decimals than the asset. -/
structure WalletRow.Readable (asset : Asset) (w : WalletRow) : Prop where
  checks : w.violated = none
  balance : IsFixed asset.scale w.balance.1
  available : IsFixed asset.scale w.available.1
  reserved : IsFixed asset.scale w.reserved.1

/-- The aggregate of a readable row. -/
def WalletRow.account (userId : UserId) {asset : Asset} {w : WalletRow} (h : w.Readable asset) :
    WalletAccount where
  id := w.id
  userId := userId
  asset := asset
  balance := ⟨asset, w.balance.1, (WalletRow.violated_eq_none.1 h.checks).1.1, h.balance⟩
  available := ⟨asset, w.available.1, (WalletRow.violated_eq_none.1 h.checks).1.2.1, h.available⟩
  reserved := ⟨asset, w.reserved.1, (WalletRow.violated_eq_none.1 h.checks).1.2.2, h.reserved⟩

/-- The invariant of the aggregate is the one of the row. -/
theorem WalletRow.assertInvariant_account {asset : Asset} {w : WalletRow} (h : w.Readable asset)
    (hscale : asset.scale ≤ 18) (userId : UserId) :
    (WalletRow.account userId h).assertInvariant = .ok () := by
  obtain ⟨-, -, hsum, hlt⟩ := WalletRow.bounds h.checks
  have hlt' : (WalletRow.account userId h).available.amount +
      (WalletRow.account userId h).reserved.amount < 10 ^ 20 := by
    show w.available.1 + w.reserved.1 < 10 ^ 20
    rwa [hsum]
  have hdigits : 20 + (WalletRow.account userId h).available.asset.scale ≤ Decimal.precision := by
    show 20 + asset.scale ≤ 40
    omega
  have hasset : (WalletRow.account userId h).available.asset =
      (WalletRow.account userId h).reserved.asset := rfl
  rw [WalletAccount.assertInvariant, if_pos ⟨rfl, rfl, rfl⟩, Money.add_exact hasset hlt' hdigits]
  simp only [bind, Except.bind]
  refine if_pos ?_
  rw [Money.equals_iff]
  exact Money.ext rfl hsum

/-- **A readable row is read back as its aggregate.** -/
theorem WalletRow.toDomain_of_readable {env : Platform} {asset : Asset} {w : WalletRow}
    (h : w.Readable asset) (hasset : asset ∈ env.registry.assets) (userId : UserId) :
    PrismaWalletRepository.toDomain env userId.value asset.code w =
      .ok (WalletRow.account userId h) := by
  have hbalance : (WalletRow.account userId h).balance.StoredAs env asset.code w.balance :=
    ⟨hasset, rfl, rfl⟩
  have havailable : (WalletRow.account userId h).available.StoredAs env asset.code w.available :=
    ⟨hasset, rfl, rfl⟩
  have hreserved : (WalletRow.account userId h).reserved.StoredAs env asset.code w.reserved :=
    ⟨hasset, rfl, rfl⟩
  have hinvariant := WalletRow.assertInvariant_account h (env.registry.scale_le _ hasset) userId
  have h₁ := hbalance.of_numericText
  have h₂ := havailable.of_numericText
  have h₃ := hreserved.of_numericText
  simp only [WalletRow.account] at h₁ h₂ h₃ hinvariant
  simp only [PrismaWalletRepository.toDomain, Asset.of_code hasset, UserId.of_value, h₁, h₂, h₃,
    bind, Except.bind, WalletAccount.reconstitute, WalletAccount.new, hinvariant, WalletRow.account]
  rfl

end WalletConversion
