import WalletConversion.Ledger.Evolution

/-!
# Every commit keeps the invariant

`Valid.of_commit` is the step lemma of the ledger: whatever a task commits, the tables stay valid.
A commit touches a few rows; the others stay valid because the tables evolve (`mono`), and a touched
conversion stays valid because it evolves itself (`ConversionValid.evolve`).
-/

namespace WalletConversion

open DecimalNotation Escrow

namespace Ledger

variable {env : Platform} {opening : Table (String × String) WalletRow} {a b : Db}

/-! ### Rows that are not touched -/

/-- A valid quote stays valid. -/
theorem QuoteValid.mono {id : String} {row : QuoteRow} (h : QuoteValid env a id row)
    (hev : Evolves a b) : QuoteValid env b id row where
  stored := h.stored
  checks := h.checks
  converted hacc := by
    obtain ⟨c, r, hr, hq⟩ := h.converted hacc
    obtain ⟨r', hr', he⟩ := hev.conversions c r hr
    exact ⟨c, r', hr', he.terms.1.trans hq⟩

/-- An event goes on announcing its conversion. -/
theorem Announces.of_evolves {e c : String} {o o' : OutboxRow} {r r' : ConversionRow}
    (h : Announces env e o c r) (ho : OutboxEvolves o o') (hr : ConversionEvolves r r') :
    Announces env e o' c r' := by
  obtain ⟨ho₁, ho₂, ho₃, -⟩ := ho.terms
  obtain ⟨-, h₁, h₂, h₃, h₄, h₅, -, -⟩ := hr.terms
  refine ⟨?_, ?_, ?_, ?_, ?_, ?_, ?_, ?_, ?_, ?_, ?_⟩
  · rw [ho₁, h.eventType]
  · rw [ho₂, h.aggregateId]
  · rw [ho₃, h.payloadEventId]
  · rw [ho₃, h.payloadEventType]
  · rw [ho₃, h.conversionId]
  · rw [ho₃, h₁, h.user]
  · rw [ho₃, h₂, h.sourceAsset]
  · rw [ho₃, h₃, h.targetAsset]
  · rw [ho₃, h₄]
    exact h.sourceAmount
  · rw [ho₃, h₅]
    exact h.targetAmount
  · rw [ho₃, h.occurredAt]

/-- A conversion that evolves obeys the lifecycle check. -/
theorem ConversionEvolves.checks {r r' : ConversionRow} (he : ConversionEvolves r r')
    (h : r.violated = none) : r'.violated = none := by
  obtain ⟨hpos, hne, hlife⟩ := ConversionRow.violated_eq_none.1 h
  obtain ⟨-, -, h₂, h₃, h₄, h₅, -, -⟩ := he.terms
  refine ConversionRow.violated_eq_none.2 ⟨by rwa [h₄, h₅], by rwa [h₂, h₃], ?_⟩
  rcases he with rfl | ⟨hs, rfl⟩ | ⟨hs, outcome, now, rfl⟩
  · exact hlife
  · simp_all [ConversionRow.lifecycle]
  · have hexec : r.exchangeExecutionId ≠ none ∧ r.completedAt = none := by
      rcases hs with hs | hs <;> simp_all [ConversionRow.lifecycle]
    cases outcome <;> simp [ConversionRow.lifecycle, settledRow, hexec.1, hexec.2]

/-- No conversion becomes `CREATED` again. -/
theorem ConversionEvolves.notCreated {r r' : ConversionRow} (he : ConversionEvolves r r')
    (h : r.status ≠ .CREATED) : r'.status ≠ .CREATED := by
  rcases he with rfl | ⟨-, rfl⟩ | ⟨-, outcome, now, rfl⟩
  · exact h
  · simp
  · cases outcome <;> simp [statusOf]

/-- The reasons of settlements are two texts. -/
theorem ConversionEvolves.storable_reason {r r' : ConversionRow} {k : Conversion}
    (he : ConversionEvolves r r') (h : k.Storable) (hreason : r.failureReason = k.failureReason) :
    ∀ reason ∈ r'.failureReason, storable reason = true := by
  rcases he with rfl | ⟨-, rfl⟩ | ⟨-, outcome, now, rfl⟩
  · exact hreason ▸ h.reason
  · exact hreason ▸ h.reason
  · cases outcome <;> simp only [settledRow] <;> rintro _ ⟨⟩ <;> decide

/-- The domain object of a conversion that evolves. -/
theorem ConversionEvolves.stored {c : String} {r r' : ConversionRow} (he : ConversionEvolves r r')
    (h : ∃ conversion : Conversion, conversion.StoredAs env c r) :
    ∃ conversion : Conversion, conversion.StoredAs env c r' := by
  obtain ⟨k, hk⟩ := h
  obtain ⟨h₀, h₁, h₂, h₃, h₄, h₅, h₆, h₇⟩ := he.terms
  exact ⟨{ k with
    status := r'.status, failureReason := r'.failureReason, completedAt := r'.completedAt },
    { storable :=
        { hk.storable with
          reason := fun reason hreason ↦
            he.storable_reason hk.storable hk.reason_eq reason hreason }
      id_eq := hk.id_eq
      quote_eq := h₀.trans hk.quote_eq
      user_eq := h₁.trans hk.user_eq
      source := by
        rw [h₂, h₄]
        exact hk.source
      target := by
        rw [h₃, h₅]
        exact hk.target
      status_eq := rfl
      execution_eq := h₆.trans hk.execution_eq
      reason_eq := rfl
      createdAt_eq := h₇.trans hk.createdAt_eq
      completedAt_eq := rfl }⟩

/-- **A conversion that evolves stays valid** when a settlement brings its records along. -/
theorem ConversionValid.evolve {c : String} {r r' : ConversionRow}
    (h : ConversionValid env a c r) (hev : Evolves a b) (he : ConversionEvolves r r')
    (hsettled : r'.status.isTerminal = true → r' = r ∨ ∃ e p outcome,
      r'.exchangeExecutionId = some e ∧ b.processed.lookup e = some p ∧ p.conversionId = c ∧
      p.outcome = outcome ∧ r'.status = statusOf outcome ∧
      b.exchange.lookup e = some (exchangeRow e c r' outcome)) :
    ConversionValid env b c r' where
  stored := he.stored h.stored
  checks := he.checks h.checks
  notCreated := he.notCreated h.notCreated
  quote := by
    obtain ⟨q, hq, hacc, hsame⟩ := h.quote
    obtain ⟨q', hq', hqe⟩ := hev.quotes _ q hq
    rw [hqe.eq_of_accepted hacc] at hq'
    obtain ⟨h₀, h₁, h₂, h₃, h₄, h₅, -, -⟩ := he.terms
    exact ⟨q, h₀ ▸ hq', hacc, h₁.trans hsame.user, h₂.trans hsame.sourceAsset,
      h₃.trans hsame.targetAsset, h₄.trans hsame.sourceAmount, h₅.trans hsame.targetAmount⟩
  event := by
    obtain ⟨e, o, hre, ho, hann⟩ := h.event
    obtain ⟨o', ho', hoe⟩ := hev.outbox e o ho
    exact ⟨e, o', he.terms.2.2.2.2.2.2.1.trans hre, ho', hann.of_evolves hoe he⟩
  settled ht := by
    rcases hsettled ht with rfl | hnew
    · obtain ⟨e, p, outcome, hre, hp, hpc, hpo, hs, hx⟩ := h.settled ht
      exact ⟨e, p, outcome, hre, hev.processed e p hp, hpc, hpo, hs, hev.exchange e _ hx⟩
    · exact hnew

/-- A valid conversion stays valid while its own row does not change. -/
theorem ConversionValid.mono {c : String} {r : ConversionRow} (h : ConversionValid env a c r)
    (hev : Evolves a b) : ConversionValid env b c r :=
  h.evolve hev (.refl r) fun _ ↦ Or.inl rfl

/-- A valid event stays valid, also when it is published. -/
theorem OutboxValid.mono {e : String} {o o' : OutboxRow} (h : OutboxValid a e o)
    (hev : Evolves a b) (ho : OutboxEvolves o o') : OutboxValid b e o' := by
  obtain ⟨r, hr, hre⟩ := h
  obtain ⟨r', hr', he⟩ := hev.conversions _ r hr
  exact ⟨r', ho.terms.2.1 ▸ hr', he.terms.2.2.2.2.2.2.1.trans hre⟩

/-- A valid settlement record stays valid. -/
theorem ProcessedValid.mono {e : String} {p : ProcessedRow} (h : ProcessedValid a e p)
    (hev : Evolves a b) : ProcessedValid b e p := by
  obtain ⟨r, hr, hre, hs⟩ := h
  obtain ⟨r', hr', he⟩ := hev.conversions _ r hr
  rw [he.eq_of_terminal (by rw [hs, statusOf_isTerminal])] at hr'
  exact ⟨r, hr', hre, hs⟩

/-- A valid order of the exchange stays valid. -/
theorem ExchangeValid.mono {e : String} {x : ExchangeRow} (h : ExchangeValid a e x)
    (hev : Evolves a b) : ExchangeValid b e x := by
  obtain ⟨r, hr, hre, hs, hx⟩ := h
  obtain ⟨r', hr', he⟩ := hev.conversions _ r hr
  exact ⟨r', hr', he.terms.2.2.2.2.2.2.1.trans hre, he.ne_fundsReserved hs,
    hx.trans (he.exchangeRow_eq _ _ _).symm⟩

/-- A valid idempotency record stays valid. -/
theorem RecordValid.mono {rec : IdempotencyRow} (h : RecordValid env a rec) (hev : Evolves a b) :
    RecordValid env b rec where
  scope := h.scope
  status := h.status
  completed := by
    obtain ⟨c, r, body, hc, hbody, hr, hb, hq, hhash⟩ := h.completed
    obtain ⟨r', hr', he⟩ := hev.conversions _ r hr
    exact ⟨c, r', body, hc, hbody, hr', hb, hq.trans he.terms.1.symm, by rw [hhash, he.terms.1]⟩

/-! ### Consequences of the invariant -/

namespace Valid

/-- Two conversions bound to one event are one conversion. -/
theorem event_unique (h : Valid env opening a) {c c' e : String} {r r' : ConversionRow}
    (hr : a.conversions.lookup c = some r) (hr' : a.conversions.lookup c' = some r')
    (he : r.exchangeExecutionId = some e) (he' : r'.exchangeExecutionId = some e) : c = c' := by
  obtain ⟨e₁, o₁, h₁, ho₁, ha₁⟩ := (h.conversions c r hr).event
  obtain ⟨e₂, o₂, h₂, ho₂, ha₂⟩ := (h.conversions c' r' hr').event
  rw [he] at h₁
  rw [he'] at h₂
  cases h₁
  cases h₂
  rw [ho₁] at ho₂
  cases ho₂
  rw [← ha₁.aggregateId, ha₂.aggregateId]

/-- Every outbox row has the one type of event. -/
theorem eventType (h : Valid env opening a) {e : String} {o : OutboxRow}
    (ho : a.outbox.lookup e = some o) : o.eventType = "ConversionExecutionRequested" := by
  obtain ⟨row, hrow, he⟩ := h.outbox e o ho
  obtain ⟨e', o', he', ho', hann⟩ := (h.conversions _ row hrow).event
  rw [he] at he'
  cases he'
  rw [ho] at ho'
  cases ho'
  exact hann.eventType

/-- The processed row of an event tells the status of its conversion. -/
theorem status_of_processed (h : Valid env opening a) {c e : String} {r : ConversionRow}
    {p : ProcessedRow} (hr : a.conversions.lookup c = some r)
    (he : r.exchangeExecutionId = some e) (hp : a.processed.lookup e = some p) :
    p.conversionId = c ∧ r.status = statusOf p.outcome := by
  obtain ⟨r', hr', he', hs⟩ := h.processed e p hp
  have hc := h.event_unique hr' hr he' he
  subst hc
  rw [hr'] at hr
  cases hr
  exact ⟨rfl, hs⟩

/-- A conversion whose event is not processed is not terminal. -/
theorem not_terminal (h : Valid env opening a) {c e : String} {r : ConversionRow}
    (hr : a.conversions.lookup c = some r) (he : r.exchangeExecutionId = some e)
    (hp : a.processed.lookup e = none) : r.status.isTerminal = false := by
  rcases ht : r.status.isTerminal with - | -
  · rfl
  · obtain ⟨e', p, outcome, he', hp', -⟩ := (h.conversions c r hr).settled ht
    rw [he] at he'
    cases he'
    rw [hp] at hp'
    cases hp'

/-- An active quote has no conversion. -/
theorem unconverted (h : Valid env opening a) {c id : String} {q : QuoteRow} {r : ConversionRow}
    (hq : a.quotes.lookup id = some q) (hactive : q.status = .ACTIVE)
    (hr : a.conversions.lookup c = some r) : r.quoteId ≠ id := by
  rintro rfl
  obtain ⟨q', hq', hacc, -⟩ := (h.conversions c r hr).quote
  rw [hq] at hq'
  cases hq'
  rw [hactive] at hacc
  cases hacc

end Valid

/-! ### Accounts -/

/-- Writing one wallet changes one account. -/
theorem accounts_insert (t : Table (String × String) WalletRow) (k : String × String)
    (w : WalletRow) : (fun key ↦ accountOf ((t.insert k w).lookup key)) =
      Function.update (fun key ↦ accountOf (t.lookup key)) k (accountOf (some w)) := by
  funext key
  by_cases hkey : key = k
  · rw [hkey, Finmap.lookup_insert, Function.update_self]
  · rw [Finmap.lookup_insert_of_ne _ hkey, Function.update_of_ne hkey]

/-- A reservation of the row is a reservation of its account. -/
theorem Reserves.account {q : ℚ} {w w' : WalletRow} (h : Reserves q w w') :
    accountOf (some w') = (accountOf (some w)).reserve q :=
  Account.ext h.available_eq h.reserved_eq

/-- A release of the row is a release of its account. -/
theorem Releases.account {q : ℚ} {w w' : WalletRow} (h : Releases q w w') :
    accountOf (some w') = (accountOf (some w)).release q :=
  Account.ext h.available_eq h.reserved_eq

/-- Committing a reservation of the row commits it for its account. -/
theorem Commits.account {q : ℚ} {w w' : WalletRow} (h : Commits q w w') :
    accountOf (some w') = (accountOf (some w)).commit q :=
  Account.ext (congrArg Subtype.val h.available_eq) h.reserved_eq

/-- A credit of the row is a credit of its account. -/
theorem Credits.account {q : ℚ} {w w' : WalletRow} (h : Credits q w w') :
    accountOf (some w') = (accountOf (some w)).credit q :=
  Account.ext h.available_eq (congrArg Subtype.val h.reserved_eq)

/-- A missing target wallet and a new one hold the same: nothing. -/
theorem TargetWallet.account {key : String × String} {id : String} {w : WalletRow}
    (h : TargetWallet a key id w) : accountOf (a.wallets.lookup key) = accountOf (some w) := by
  rcases h with h | ⟨h, -, -, havailable, hreserved⟩
  · rw [h]
  · rw [h]
    exact Account.ext havailable.symm hreserved.symm

/-! ### Readable wallets -/

/-- A column of a registered asset has no more decimals than the asset. -/
theorem isFixed_of_storedAs {m : Money} {code : String} {n : Numeric} (h : m.StoredAs env code n)
    {asset : Asset} (hasset : asset ∈ env.registry.assets) (hcode : asset.code = code) :
    IsFixed asset.scale n.1 := by
  have heq : asset = m.asset :=
    env.registry.unique _ hasset _ h.registered (hcode.trans h.code_eq)
  rw [heq, h.amount_eq]
  exact m.fixed

/-- A wallet stays readable when an amount of its asset is reserved. -/
theorem Reserves.readable {q : ℚ} {w w' : WalletRow} {asset : Asset} (h : Reserves q w w')
    (hw : w.Readable asset) (hq : IsFixed asset.scale q) (hchecks : w'.violated = none) :
    w'.Readable asset where
  checks := hchecks
  balance := h.balance_eq ▸ hw.balance
  available := h.available_eq ▸ hw.available.sub hq
  reserved := h.reserved_eq ▸ hw.reserved.add hq

/-- A wallet stays readable when an amount of its asset is released. -/
theorem Releases.readable {q : ℚ} {w w' : WalletRow} {asset : Asset} (h : Releases q w w')
    (hw : w.Readable asset) (hq : IsFixed asset.scale q) (hchecks : w'.violated = none) :
    w'.Readable asset where
  checks := hchecks
  balance := h.balance_eq ▸ hw.balance
  available := h.available_eq ▸ hw.available.add hq
  reserved := h.reserved_eq ▸ hw.reserved.sub hq

/-- A wallet stays readable when an amount of its asset is committed. -/
theorem Commits.readable {q : ℚ} {w w' : WalletRow} {asset : Asset} (h : Commits q w w')
    (hw : w.Readable asset) (hq : IsFixed asset.scale q) (hchecks : w'.violated = none) :
    w'.Readable asset where
  checks := hchecks
  balance := h.balance_eq ▸ hw.balance.sub hq
  available := h.available_eq ▸ hw.available
  reserved := h.reserved_eq ▸ hw.reserved.sub hq

/-- A wallet stays readable when an amount of its asset is credited. -/
theorem Credits.readable {q : ℚ} {w w' : WalletRow} {asset : Asset} (h : Credits q w w')
    (hw : w.Readable asset) (hq : IsFixed asset.scale q) (hchecks : w'.violated = none) :
    w'.Readable asset where
  checks := hchecks
  balance := h.balance_eq ▸ hw.balance.add hq
  available := h.available_eq ▸ hw.available.add hq
  reserved := h.reserved_eq ▸ hw.reserved

/-- A wallet without money can be read back. -/
theorem readable_of_zero {w : WalletRow} (hb : w.balance.1 = 0) (ha : w.available.1 = 0)
    (hr : w.reserved.1 = 0) (asset : Asset) : w.Readable asset where
  checks := WalletRow.violated_eq_none.2 (by simp [hb, ha, hr])
  balance := hb ▸ IsFixed.zero _
  available := ha ▸ IsFixed.zero _
  reserved := hr ▸ IsFixed.zero _

/-- An updated wallet stays readable when its update does. -/
theorem ReadableWallets.update {wallets : Table (String × String) WalletRow}
    {key : String × String} {w w' : WalletRow} (h : ReadableWallets env wallets)
    (hw : wallets.lookup key = some w)
    (hstep : ∀ asset ∈ env.registry.assets, asset.code = key.2 → w.Readable asset →
      w'.Readable asset) : ReadableWallets env (wallets.insert key w') := by
  intro k v hv
  rcases Table.lookup_insert_cases hv with ⟨rfl, rfl⟩ | ⟨-, hv⟩
  · obtain ⟨userId, asset, hasset, rfl, hr⟩ := h k w hw
    exact ⟨userId, asset, hasset, rfl, hstep asset hasset rfl hr⟩
  · exact h k v hv

/-- A new wallet of a user and a registered asset. -/
theorem ReadableWallets.insert {wallets : Table (String × String) WalletRow} {userId : UserId}
    {asset : Asset} {w : WalletRow} (h : ReadableWallets env wallets)
    (hasset : asset ∈ env.registry.assets) (hw : w.Readable asset) :
    ReadableWallets env (wallets.insert (userId.value, asset.code) w) := by
  intro k v hv
  rcases Table.lookup_insert_cases hv with ⟨rfl, rfl⟩ | ⟨-, hv⟩
  · exact ⟨userId, asset, hasset, rfl, hw⟩
  · exact h k v hv

/-! ### The rows of an accept -/

section AcceptRows

variable {inputs : AcceptInputs} {quote : Quote} {row : QuoteRow}

/-- The accepted quote is stored. -/
theorem stored_accepted {id : String} (h : quote.StoredAs env id row) :
    (quote.accepted inputs.now).StoredAs env id (acceptedRow row inputs) where
  storable := { h.storable with }
  id_eq := h.id_eq
  user_eq := h.user_eq
  source := h.source
  target := h.target
  rateSource := h.rateSource
  rateTarget := h.rateTarget
  rate_eq := h.rate_eq
  status_eq := rfl
  createdAt_eq := h.createdAt_eq
  expiresAt_eq := h.expiresAt_eq
  acceptedAt_eq := rfl

/-- The texts of the conversion are those of the quote and generated ids. -/
theorem storable_created (h : quote.Storable) : (createdConversion quote inputs).Storable where
  id := inputs.conversionId.storable_value
  quote := h.id
  user := h.user
  source := h.source
  target := h.target
  execution _ he := by cases he
  reason _ hr := by cases hr

/-- The conversion of a storable quote is storable. -/
theorem storable_reserved (h : quote.Storable) : (reservedConversion quote inputs).Storable where
  id := inputs.conversionId.storable_value
  quote := h.id
  user := h.user
  source := h.source
  target := h.target
  execution _ he := Option.mem_some_iff.1 he ▸ inputs.eventId.storable_value
  reason _ hr := by cases hr

/-- The conversion of an accept is stored, before and after its funds are reserved. -/
theorem stored_created {id : String} (h : quote.StoredAs env id row) :
    (createdConversion quote inputs).StoredAs env inputs.conversionId.value
      (createdRow id row inputs) where
  storable := storable_created h.storable
  id_eq := rfl
  quote_eq := h.id_eq
  user_eq := h.user_eq
  source := h.source
  target := h.target
  status_eq := rfl
  execution_eq := rfl
  reason_eq := rfl
  createdAt_eq := rfl
  completedAt_eq := rfl

/-- The conversion that reserves for a stored quote is stored as its row says. -/
theorem stored_reserved {id : String} (h : quote.StoredAs env id row) :
    (reservedConversion quote inputs).StoredAs env inputs.conversionId.value
      (reservedRow id row inputs) where
  storable := storable_reserved h.storable
  id_eq := rfl
  quote_eq := h.id_eq
  user_eq := h.user_eq
  source := h.source
  target := h.target
  status_eq := rfl
  execution_eq := rfl
  reason_eq := rfl
  createdAt_eq := rfl
  completedAt_eq := rfl

/-- The event of an accept announces its conversion. -/
theorem announces_eventRow {id : String} (h : quote.StoredAs env id row) :
    Announces env inputs.eventId.value (eventRow quote inputs) inputs.conversionId.value
      (reservedRow id row inputs) where
  eventType := rfl
  aggregateId := rfl
  payloadEventId := rfl
  payloadEventType := rfl
  conversionId := rfl
  user := h.user_eq.symm
  sourceAsset := h.source.code_eq.symm
  targetAsset := h.target.code_eq.symm
  sourceAmount := by
    show Denotes (trimTrailingZeros quote.sourceAmount.toString).toList row.sourceAmount.1
    rw [h.source.amount_eq]
    exact quote.sourceAmount.denotes_trimTrailingZeros
  targetAmount := by
    show Denotes (trimTrailingZeros quote.targetAmount.toString).toList row.targetAmount.1
    rw [h.target.amount_eq]
    exact quote.targetAmount.denotes_trimTrailingZeros
  occurredAt := by
    simp only [eventRow, AcceptQuoteUseCase.eventPayload, env.parsesDate_timestampText]

/-- The new row of a conversion passes the checks of its table. -/
theorem createdRow_checks {id : String} (h : row.violated = none) :
    (createdRow id row inputs).violated = none := by
  obtain ⟨⟨hsource, htarget, -⟩, hne, -, -⟩ := QuoteRow.violated_eq_none.1 h
  exact ConversionRow.violated_eq_none.2 ⟨⟨hsource, htarget⟩, hne, Or.inl ⟨rfl, rfl, rfl, rfl⟩⟩

/-- So does the row after the reservation. -/
theorem reservedRow_checks {id : String} (h : row.violated = none) :
    (reservedRow id row inputs).violated = none := by
  obtain ⟨⟨hsource, htarget, -⟩, hne, -, -⟩ := QuoteRow.violated_eq_none.1 h
  refine ConversionRow.violated_eq_none.2 ⟨⟨hsource, htarget⟩, hne, ?_⟩
  exact Or.inr (Or.inl ⟨Or.inl rfl, by simp [reservedRow], rfl, rfl⟩)

/-- And so does the row of the quote after it was accepted. -/
theorem acceptedRow_checks (h : row.violated = none) :
    (acceptedRow row inputs).violated = none := by
  obtain ⟨hpos, hne, -, hexpiry⟩ := QuoteRow.violated_eq_none.1 h
  exact QuoteRow.violated_eq_none.2 ⟨hpos, hne, Or.inr ⟨rfl, by simp [acceptedRow]⟩, hexpiry⟩

end AcceptRows

/-! ### The hold of a conversion -/

/-- What a settlement does to the hold of its conversion. -/
theorem holdOf_settledRow (row : ConversionRow) (outcome : ExecutionOutcome) (now : Date) :
    holdOf (settledRow row outcome now) =
      { holdOf row with phase := phaseOf (statusOf outcome) } := by
  cases outcome <;> rfl

/-- A conversion that was requested holds its reservation. -/
theorem held_of_requested {row : ConversionRow}
    (hs : row.status = .EXECUTION_REQUESTED) :
    (holdOf row).phase = .held := by
  show phaseOf row.status = .held
  rw [hs]
  rfl

/-! ### Commits keep the invariant -/

namespace Valid

/-- The rows that a commit leaves alone, or that evolve under it. -/
private theorem conversions_insert (h : Valid env opening a) (hev : Evolves a b) {c : String}
    {v : ConversionRow} (hb : b.conversions = a.conversions.insert c v)
    (hnew : ConversionValid env b c v) (k : String) (r : ConversionRow)
    (hr : b.conversions.lookup k = some r) : ConversionValid env b k r := by
  rw [hb] at hr
  rcases Table.lookup_insert_cases hr with ⟨rfl, rfl⟩ | ⟨-, hr⟩
  · exact hnew
  · exact (h.conversions k r hr).mono hev

/-- A conversion that changes keeps its quote, so no two conversions come to share one. -/
private theorem oneConversion_insert (h : Valid env opening a) {c : String}
    {r v : ConversionRow} (hr : a.conversions.lookup c = some r) (hv : v.quoteId = r.quoteId)
    (k k' : String) (s s' : ConversionRow)
    (hs : (a.conversions.insert c v).lookup k = some s)
    (hs' : (a.conversions.insert c v).lookup k' = some s') (heq : s.quoteId = s'.quoteId) :
    k = k' := by
  rcases Table.lookup_insert_cases hs with ⟨rfl, rfl⟩ | ⟨-, hk⟩
  · rcases Table.lookup_insert_cases hs' with ⟨rfl, rfl⟩ | ⟨-, hk'⟩
    · rfl
    · exact h.oneConversion k k' r s' hr hk' (hv.symm.trans heq)
  · rcases Table.lookup_insert_cases hs' with ⟨rfl, rfl⟩ | ⟨-, hk'⟩
    · exact h.oneConversion k k' s r hk hr (heq.trans hv)
    · exact h.oneConversion k k' s s' hk hk' heq

/-- Everything a settlement changes apart from the wallets. -/
private theorem settled (h : Valid env opening a) {payload : ConversionExecutionRequestedPayload}
    {c : String} {row : ConversionRow} {outcome : ExecutionOutcome} {inputs : ExecuteInputs}
    {wallets : Table (String × String) WalletRow} (hs : Settles a payload c row outcome)
    (hev : Evolves a { settledDb a c payload.eventId row outcome inputs with wallets := wallets })
    (hwallets : ∀ key w, wallets.lookup key = some w → w.violated = none)
    (hreadable : ReadableWallets env opening → ReadableWallets env wallets)
    (hbook : Book.Balanced holdOf (openingBalance opening)
      { settledDb a c payload.eventId row outcome inputs with wallets := wallets }.book) :
    Valid env opening
      { settledDb a c payload.eventId row outcome inputs with wallets := wallets } where
  quotes id q hq := (h.quotes id q hq).mono hev
  conversions := by
    have he : ConversionEvolves row (settledRow row outcome inputs.now) :=
      Or.inr (Or.inr ⟨Or.inr hs.status, outcome, inputs.now, rfl⟩)
    refine h.conversions_insert hev rfl ((h.conversions c row hs.lookup).evolve hev he fun _ ↦
      Or.inr ⟨payload.eventId, ⟨c, outcome, inputs.databaseNow⟩, outcome, ?_, ?_, rfl, rfl, ?_, ?_⟩)
    · exact he.terms.2.2.2.2.2.2.1.trans hs.event
    · exact Finmap.lookup_insert _
    · exact settledRow_status _ _ _
    · rw [he.exchangeRow_eq]
      exact hs.exchange
  outbox e o ho := (h.outbox e o ho).mono hev (.refl o)
  processed e p hp := by
    rcases Table.lookup_insert_cases hp with ⟨rfl, rfl⟩ | ⟨-, hp⟩
    · refine ⟨settledRow row outcome inputs.now, Finmap.lookup_insert _, ?_,
        settledRow_status _ _ _⟩
      cases outcome <;> exact hs.event
    · exact (h.processed e p hp).mono hev
  exchange e x hx := (h.exchange e x hx).mono hev
  records key rec hrec := (h.records key rec hrec).mono hev
  oneConversion := h.oneConversion_insert hs.lookup (by cases outcome <;> rfl)
  wallets := hwallets
  readable := hreadable
  book := hbook

private theorem wallets_insert (h : ∀ key w, a.wallets.lookup key = some w → w.violated = none)
    {k : String × String} {v : WalletRow} (hv : v.violated = none) (key : String × String)
    (w : WalletRow) (hw : (a.wallets.insert k v).lookup key = some w) : w.violated = none := by
  rcases Table.lookup_insert_cases hw with ⟨-, rfl⟩ | ⟨-, hw⟩
  · exact hv
  · exact h key w hw

/-! ### Accepting a quote -/

section Accepted

variable {command : AcceptQuoteCommand} {inputs : AcceptInputs} {quote : Quote} {row : QuoteRow}

/-- **An accept keeps the invariant.** -/
private theorem accepted (h : Valid env opening a) {w w' : WalletRow}
    (lookup : a.quotes.lookup (trim command.quoteId) = some row)
    (stored : quote.StoredAs env (trim command.quoteId) row)
    (active : row.status = .ACTIVE)
    (freshConversion : a.conversions.lookup inputs.conversionId.value = none)
    (wallet : a.wallets.lookup (row.userId, row.sourceAsset) = some w)
    (reserves : Reserves row.sourceAmount.1 w w') (checks : w'.violated = none)
    (hev : Evolves a (acceptedDb env a command inputs quote row w')) :
    Valid env opening (acceptedDb env a command inputs quote row w') where
  quotes id q hq := by
    rcases Table.lookup_insert_cases hq with ⟨rfl, rfl⟩ | ⟨-, hq⟩
    · exact ⟨⟨_, stored_accepted stored⟩, acceptedRow_checks (h.quotes _ _ lookup).checks,
        fun _ ↦ ⟨_, _, Finmap.lookup_insert _, rfl⟩⟩
    · exact (h.quotes id q hq).mono hev
  conversions := by
    refine h.conversions_insert hev rfl
      { stored := ⟨_, stored_reserved stored⟩
        checks := reservedRow_checks (h.quotes _ _ lookup).checks
        notCreated := by simp [reservedRow]
        quote := ⟨_, Finmap.lookup_insert _, rfl, rfl, rfl, rfl, rfl, rfl⟩
        event := ⟨_, _, rfl, Finmap.lookup_insert _, announces_eventRow stored⟩
        settled := ?_ }
    intro ht
    cases ht
  outbox e o ho := by
    rcases Table.lookup_insert_cases ho with ⟨rfl, rfl⟩ | ⟨-, ho⟩
    · exact ⟨_, Finmap.lookup_insert _, rfl⟩
    · exact (h.outbox e o ho).mono hev (.refl o)
  processed e p hp := (h.processed e p hp).mono hev
  exchange e x hx := (h.exchange e x hx).mono hev
  records key rec hrec := by
    rcases Table.lookup_insert_cases hrec with ⟨rfl, rfl⟩ | ⟨-, hrec⟩
    · exact ⟨rfl, rfl, _, _, _, rfl, rfl, Finmap.lookup_insert _, rfl, stored.id_eq.symm, rfl⟩
    · exact (h.records key rec hrec).mono hev
  oneConversion c c' r r' hr hr' heq := by
    -- the quote was active, so no conversion referred to it
    have hnew := fun k s (hs : a.conversions.lookup k = some s) ↦ h.unconverted lookup active hs
    rcases Table.lookup_insert_cases hr with ⟨rfl, rfl⟩ | ⟨-, hk⟩
    · rcases Table.lookup_insert_cases hr' with ⟨rfl, rfl⟩ | ⟨-, hk'⟩
      · rfl
      · exact absurd heq.symm (hnew c' r' hk')
    · rcases Table.lookup_insert_cases hr' with ⟨rfl, rfl⟩ | ⟨-, hk'⟩
      · exact absurd heq (hnew c r hk)
      · exact h.oneConversion c c' r r' hk hk' heq
  wallets := wallets_insert h.wallets checks
  readable hopening := (h.readable hopening).update wallet fun _ hasset hcode hw ↦
    reserves.readable hw (isFixed_of_storedAs stored.source hasset hcode) checks
  book := by
    refine h.book.reserve freshConversion rfl rfl ?_
    show (fun key ↦ accountOf ((a.wallets.insert (row.userId, row.sourceAsset) w').lookup key)) = _
    rw [accounts_insert, reserves.account, ← wallet]
    rfl

end Accepted

/-! ### Settling a conversion -/

section Settlement

variable {payload : ConversionExecutionRequestedPayload} {inputs : ExecuteInputs} {c : String}
  {row : ConversionRow}

/-- **A successful settlement keeps the invariant.** -/
private theorem completed (h : Valid env opening a) {w w' v v' : WalletRow} {id : String}
    (settles : Settles a payload c row .SUCCESS)
    (source : a.wallets.lookup (row.userId, row.sourceAsset) = some w)
    (commits : Commits row.sourceAmount.1 w w') (checks : w'.violated = none)
    (target : TargetWallet a (row.userId, row.targetAsset) id v)
    (credits : Credits row.targetAmount.1 v v') (checks' : v'.violated = none)
    (hev : Evolves a { settledDb a c payload.eventId row .SUCCESS inputs with
      wallets := (a.wallets.insert (row.userId, row.sourceAsset) w').insert
        (row.userId, row.targetAsset) v' }) :
    Valid env opening { settledDb a c payload.eventId row .SUCCESS inputs with
      wallets := (a.wallets.insert (row.userId, row.sourceAsset) w').insert
        (row.userId, row.targetAsset) v' } := by
  have hchecks₁ : ∀ key u, (a.wallets.insert (row.userId, row.sourceAsset) w').lookup key =
      some u → u.violated = none := wallets_insert h.wallets checks
  have hchecks₂ : ∀ key u, ((a.wallets.insert (row.userId, row.sourceAsset) w').insert
      (row.userId, row.targetAsset) v').lookup key = some u → u.violated = none := fun key u hu ↦ by
    rcases Table.lookup_insert_cases hu with ⟨-, rfl⟩ | ⟨-, hu⟩
    · exact checks'
    · exact hchecks₁ key u hu
  refine h.settled settles hev hchecks₂ (fun hopening ↦ ?_) ?_
  · obtain ⟨k, hk⟩ := (h.conversions c row settles.lookup).stored
    have hsource := (h.readable hopening).update source fun _ hasset hcode hw ↦
      commits.readable hw (isFixed_of_storedAs hk.source hasset hcode) checks
    rcases target with ht | ⟨-, -, hb, ha, hr⟩
    · have ht' : (a.wallets.insert (row.userId, row.sourceAsset) w').lookup
          (row.userId, row.targetAsset) = some v := by
        rwa [Finmap.lookup_insert_of_ne _ (by simp [settles.distinct.symm])]
      exact hsource.update ht' fun _ hasset hcode hv ↦
        credits.readable hv (isFixed_of_storedAs hk.target hasset hcode) checks'
    · have hv' := credits.readable (readable_of_zero hb ha hr _)
        (isFixed_of_storedAs hk.target hk.target.registered hk.target.code_eq.symm) checks'
      have hnew : ReadableWallets env ((a.wallets.insert (row.userId, row.sourceAsset) w').insert
          (k.userId.value, k.targetAmount.asset.code) v') := hsource.insert hk.target.registered hv'
      rwa [← hk.user_eq, ← hk.target.code_eq] at hnew
  refine h.book.settle settles.lookup (held_of_requested settles.status)
    (holdOf_settledRow row .SUCCESS inputs.now) ?_ rfl ?_
  · intro heq
    exact settles.distinct (congrArg Prod.snd heq)
  · show (fun key ↦ accountOf (((a.wallets.insert (row.userId, row.sourceAsset) w').insert
      (row.userId, row.targetAsset) v').lookup key)) = _
    rw [accounts_insert, accounts_insert, commits.account, credits.account, ← target.account,
      ← source]
    rfl

/-- **A failed settlement keeps the invariant.** -/
private theorem failed (h : Valid env opening a) {w w' : WalletRow}
    (settles : Settles a payload c row .FAILURE)
    (source : a.wallets.lookup (row.userId, row.sourceAsset) = some w)
    (releases : Releases row.sourceAmount.1 w w') (checks : w'.violated = none)
    (hev : Evolves a { settledDb a c payload.eventId row .FAILURE inputs with
      wallets := a.wallets.insert (row.userId, row.sourceAsset) w' }) :
    Valid env opening { settledDb a c payload.eventId row .FAILURE inputs with
      wallets := a.wallets.insert (row.userId, row.sourceAsset) w' } := by
  refine h.settled settles hev (wallets_insert h.wallets checks) (fun hopening ↦ ?_) ?_
  · obtain ⟨k, hk⟩ := (h.conversions c row settles.lookup).stored
    exact (h.readable hopening).update source fun _ hasset hcode hw ↦
      releases.readable hw (isFixed_of_storedAs hk.source hasset hcode) checks
  refine h.book.release settles.lookup (held_of_requested settles.status)
    (holdOf_settledRow row .FAILURE inputs.now) rfl ?_
  show (fun key ↦ accountOf ((a.wallets.insert (row.userId, row.sourceAsset) w').lookup key)) = _
  rw [accounts_insert, releases.account, ← source]
  rfl

/-- **An unknown result keeps the invariant.** -/
private theorem reconciling (h : Valid env opening a)
    (settles : Settles a payload c row .UNKNOWN)
    (hev : Evolves a (settledDb a c payload.eventId row .UNKNOWN inputs)) :
    Valid env opening (settledDb a c payload.eventId row .UNKNOWN inputs) := by
  refine h.settled settles hev h.wallets h.readable ?_
  refine h.book.relabel settles.lookup ?_ rfl rfl
  rw [holdOf_settledRow]
  exact Escrow.Hold.ext rfl rfl rfl rfl (held_of_requested settles.status).symm

end Settlement

/-! ### The step lemma -/

/-- **Every commit keeps the invariant.** -/
theorem of_commit {t : Task} (hcommit : Commit env t a b) (h : Valid env opening a) :
    Valid env opening b := by
  have hev := hcommit.evolves
  cases hcommit with
  | idle => exact h
  | quoteCreated built stored checks active fresh =>
    exact
      { quotes := fun id q hq ↦ by
          rcases Table.lookup_insert_cases hq with ⟨rfl, rfl⟩ | ⟨-, hq⟩
          · refine ⟨⟨_, stored⟩, checks, fun hacc ↦ ?_⟩
            rw [active] at hacc
            cases hacc
          · exact (h.quotes id q hq).mono hev
        conversions := fun c r hr ↦ (h.conversions c r hr).mono hev
        outbox := fun e o ho ↦ (h.outbox e o ho).mono hev (.refl o)
        processed := fun e p hp ↦ (h.processed e p hp).mono hev
        exchange := fun e x hx ↦ (h.exchange e x hx).mono hev
        records := fun key rec hrec ↦ (h.records key rec hrec).mono hev
        oneConversion := h.oneConversion
        wallets := h.wallets
        readable := h.readable
        book := h.book }
  | accepted valid unclaimed lookup stored active inTime freshConversion freshEvent wallet reserves
      checks =>
    exact h.accepted lookup stored active freshConversion wallet reserves checks hev
  | @executionRequested payload inputs _ row lookup status event =>
    have he : ConversionEvolves row { row with status := .EXECUTION_REQUESTED } :=
      Or.inr (Or.inl ⟨status, rfl⟩)
    exact
      { quotes := fun id q hq ↦ (h.quotes id q hq).mono hev
        conversions := h.conversions_insert hev rfl
          ((h.conversions _ row lookup).evolve hev he fun ht ↦ by cases ht)
        outbox := fun e o ho ↦ (h.outbox e o ho).mono hev (.refl o)
        processed := fun e p hp ↦ (h.processed e p hp).mono hev
        exchange := fun e x hx ↦ (h.exchange e x hx).mono hev
        records := fun key rec hrec ↦ (h.records key rec hrec).mono hev
        oneConversion := h.oneConversion_insert lookup rfl
        wallets := h.wallets
        readable := h.readable
        book := by
          refine h.book.relabel lookup ?_ rfl rfl
          refine Escrow.Hold.ext rfl rfl rfl rfl ?_
          show Phase.held = phaseOf row.status
          rw [status]
          rfl }
  | @exchangeRecorded payload inputs _ row lookup status event fresh =>
    exact
      { quotes := fun id q hq ↦ (h.quotes id q hq).mono hev
        conversions := fun c r hr ↦ (h.conversions c r hr).mono hev
        outbox := fun e o ho ↦ (h.outbox e o ho).mono hev (.refl o)
        processed := fun e p hp ↦ (h.processed e p hp).mono hev
        exchange := fun e x hx ↦ by
          rcases Table.lookup_insert_cases hx with ⟨rfl, rfl⟩ | ⟨-, hx⟩
          · exact ⟨row, lookup, event, by simp [status], rfl⟩
          · exact (h.exchange e x hx).mono hev
        records := fun key rec hrec ↦ (h.records key rec hrec).mono hev
        oneConversion := h.oneConversion
        wallets := h.wallets
        readable := h.readable
        book := h.book }
  | completed settles source commits checks target credits checks' =>
    exact h.completed settles source commits checks target credits checks' hev
  | failed settles source releases checks => exact h.failed settles source releases checks hev
  | reconciling settles => exact h.reconciling settles hev
  | @published id publishedAt _ row lookup unpublished =>
    exact
      { quotes := fun id q hq ↦ (h.quotes id q hq).mono hev
        conversions := fun c r hr ↦ (h.conversions c r hr).mono hev
        outbox := fun e o ho ↦ by
          rcases Table.lookup_insert_cases ho with ⟨rfl, rfl⟩ | ⟨-, ho⟩
          · exact (h.outbox _ row lookup).mono hev (Or.inr ⟨unpublished, _, rfl⟩)
          · exact (h.outbox e o ho).mono hev (.refl o)
        processed := fun e p hp ↦ (h.processed e p hp).mono hev
        exchange := fun e x hx ↦ (h.exchange e x hx).mono hev
        records := fun key rec hrec ↦ (h.records key rec hrec).mono hev
        oneConversion := h.oneConversion
        wallets := h.wallets
        readable := h.readable
        book := h.book }
  | cleaned keys =>
    exact
      { quotes := fun id q hq ↦ (h.quotes id q hq).mono hev
        conversions := fun c r hr ↦ (h.conversions c r hr).mono hev
        outbox := fun e o ho ↦ (h.outbox e o ho).mono hev (.refl o)
        processed := fun e p hp ↦ (h.processed e p hp).mono hev
        exchange := fun e x hx ↦ (h.exchange e x hx).mono hev
        records := fun key rec hrec ↦
          (h.records key rec (Table.lookup_of_foldl_erase hrec)).mono hev
        oneConversion := h.oneConversion
        wallets := h.wallets
        readable := h.readable
        book := h.book }

/-- **The tables a run starts from are valid.** -/
theorem initial {wallets : Table (String × String) WalletRow} (h : InitialWallets wallets) :
    Valid env wallets (Db.ofWallets wallets) where
  quotes _ _ h := by simp [Db.ofWallets] at h
  conversions _ _ h := by simp [Db.ofWallets] at h
  outbox _ _ h := by simp [Db.ofWallets] at h
  processed _ _ h := by simp [Db.ofWallets] at h
  exchange _ _ h := by simp [Db.ofWallets] at h
  records _ _ h := by simp [Db.ofWallets] at h
  oneConversion _ _ _ _ h := by simp [Db.ofWallets] at h
  wallets key w hw := (h key w hw).2.2
  readable := id
  book := by
    refine Book.balanced_of_no_holds fun key ↦ ?_
    show (accountOf (wallets.lookup key)).reserved = 0
    rcases hw : wallets.lookup key with - | w
    · rfl
    · exact (h key w hw).1

end Valid

end Ledger

end WalletConversion
