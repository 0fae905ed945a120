import WalletConversion.Ledger.Effects

/-!
# A contract for arbitrary tables and arbitrary events

`ledger` assumes valid tables and genuine events. `steady` assumes neither: its tables are
arbitrary, and an execution may be called with any payload. Ids are still generated once. What the
calls can promise then is little, but enough to follow one call through the others:

* `KeepsTerms` — quotes and conversions are never removed, only the columns of their lifecycle are
  updated, and a processed event stays processed;
* an accept commits nothing or all of its five tables at once (`AcceptedTogether`);
* an execution whose payload does not agree with the conversion it names (`Allowed`) commits nothing
  but the step from `FUNDS_RESERVED` to `EXECUTION_REQUESTED` (`Advances`), and never gets as far as
  the exchange or the settlement.
-/

namespace WalletConversion

open DecimalNotation Transactional Relation

/-! ### Terms -/

/-- The rows differ in the columns of the lifecycle only. -/
def QuoteRow.SameTerms (r r' : QuoteRow) : Prop :=
  r' = { r with status := r'.status, acceptedAt := r'.acceptedAt }

@[inherit_doc QuoteRow.SameTerms] def ConversionRow.SameTerms (r r' : ConversionRow) : Prop :=
  r' = { r with
          status := r'.status
          failureReason := r'.failureReason
          completedAt := r'.completedAt }

theorem QuoteRow.SameTerms.refl (r : QuoteRow) : r.SameTerms r := rfl

theorem QuoteRow.SameTerms.trans {r r' r'' : QuoteRow} (h : r.SameTerms r')
    (h' : r'.SameTerms r'') :
    r.SameTerms r'' := by
  unfold SameTerms at h h' ⊢
  rw [h', h]

theorem QuoteRow.SameTerms.symm {r r' : QuoteRow} (h : r.SameTerms r') : r'.SameTerms r := by
  unfold SameTerms at h ⊢
  rw [h]

theorem ConversionRow.SameTerms.refl (r : ConversionRow) : r.SameTerms r := rfl

theorem ConversionRow.SameTerms.trans {r r' r'' : ConversionRow} (h : r.SameTerms r')
    (h' : r'.SameTerms r'') : r.SameTerms r'' := by
  unfold SameTerms at h h' ⊢
  rw [h', h]

theorem ConversionRow.SameTerms.symm {r r' : ConversionRow} (h : r.SameTerms r') :
    r'.SameTerms r := by
  unfold SameTerms at h ⊢
  rw [h]

namespace Ledger

/-- What no statement changes, whatever the tables are. -/
structure KeepsTerms (a b : Db) : Prop where
  quotes : ∀ id r, a.quotes.lookup id = some r → ∃ r', b.quotes.lookup id = some r' ∧ r.SameTerms r'
  conversions : ∀ id r, a.conversions.lookup id = some r →
    ∃ r', b.conversions.lookup id = some r' ∧ r.SameTerms r'
  processed : ∀ id, a.processed.lookup id ≠ none → b.processed.lookup id ≠ none

theorem KeepsTerms.refl (a : Db) : KeepsTerms a a where
  quotes _ r hr := ⟨r, hr, .refl r⟩
  conversions _ r hr := ⟨r, hr, .refl r⟩
  processed _ h := h

theorem KeepsTerms.trans {a b c : Db} (h : KeepsTerms a b) (h' : KeepsTerms b c) :
    KeepsTerms a c where
  quotes id r hr := by
    obtain ⟨r', hr', hterms⟩ := h.quotes id r hr
    obtain ⟨r'', hr'', hterms'⟩ := h'.quotes id r' hr'
    exact ⟨r'', hr'', hterms.trans hterms'⟩
  conversions id r hr := by
    obtain ⟨r', hr', hterms⟩ := h.conversions id r hr
    obtain ⟨r'', hr'', hterms'⟩ := h'.conversions id r' hr'
    exact ⟨r'', hr'', hterms.trans hterms'⟩
  processed id hid := h'.processed id (h.processed id hid)

/-- A commit creates conversions under these ids only. -/
def CreatesWithin (ids : List String) (a b : Db) : Prop :=
  ∀ id, a.conversions.lookup id = none → b.conversions.lookup id ≠ none → id ∈ ids

/-- A write that keeps the terms of the stored rows: it updates a row that exists, or a conversion
that the call itself creates. -/
def Keeps (ids : List String) (db : Db) : Write → Prop
  | .putQuote id row => ∃ r, db.quotes.lookup id = some r ∧ r.SameTerms row
  | .insertConversion id _ => id ∈ ids ∧ db.conversions.lookup id = none
  | .updateConversion id row =>
    (id ∈ ids ∧ db.conversions.lookup id = none) ∨
      ∃ r, db.conversions.lookup id = some r ∧ r.SameTerms row
  | _ => True

/-- A write that keeps the terms goes on doing so while the terms are kept. -/
theorem Keeps.of_keepsTerms {ids : List String} {a b : Db} {w : Write} (h : Keeps ids a w)
    (hterms : KeepsTerms a b) (hnew : ∀ id ∈ ids, a.conversions.lookup id = none →
      b.conversions.lookup id = none) : Keeps ids b w := by
  cases w with
  | putQuote id row =>
    obtain ⟨r, hr, hrow⟩ := h
    obtain ⟨r', hr', hsame⟩ := hterms.quotes id r hr
    exact ⟨r', hr', hsame.symm.trans hrow⟩
  | insertConversion id row => exact ⟨h.1, hnew id h.1 h.2⟩
  | updateConversion id row =>
    refine h.imp (fun h ↦ ⟨h.1, hnew id h.1 h.2⟩) ?_
    rintro ⟨r, hr, hrow⟩
    obtain ⟨r', hr', hsame⟩ := hterms.conversions id r hr
    exact ⟨r', hr', hsame.symm.trans hrow⟩
  | _ => trivial

/-- Applying a write that keeps the terms of `a` to tables that keep them. -/
theorem KeepsTerms.write {ids : List String} {a b : Db} {w : Write} (h : KeepsTerms a b)
    (hw : Keeps ids a w) : KeepsTerms a (b.write w) := by
  cases w with
  | putQuote id row =>
    obtain ⟨r, hr, hrow⟩ := hw
    refine { h with quotes := fun id' r' hr' ↦ ?_ }
    by_cases he : id' = id
    · subst he
      rw [hr] at hr'
      cases hr'
      exact ⟨row, Finmap.lookup_insert _, hrow⟩
    · obtain ⟨r'', hr'', hsame⟩ := h.quotes id' r' hr'
      exact ⟨r'', by simpa only [Db.write, Finmap.lookup_insert_of_ne _ he] using hr'', hsame⟩
  | insertConversion id row =>
    simp only [Db.write]
    split
    · refine { h with conversions := fun id' r' hr' ↦ ?_ }
      have he : id' ≠ id := by
        rintro rfl
        rw [hw.2] at hr'
        cases hr'
      obtain ⟨r'', hr'', hsame⟩ := h.conversions id' r' hr'
      exact ⟨r'', by simpa only [Finmap.lookup_insert_of_ne _ he] using hr'', hsame⟩
    · exact h
  | updateConversion id row =>
    simp only [Db.write]
    split
    · exact h
    · refine { h with conversions := fun id' r' hr' ↦ ?_ }
      by_cases he : id' = id
      · subst he
        rcases hw with ⟨-, hnone⟩ | ⟨r, hr, hrow⟩
        · rw [hnone] at hr'
          cases hr'
        · rw [hr] at hr'
          cases hr'
          exact ⟨row, Finmap.lookup_insert _, hrow⟩
      · obtain ⟨r'', hr'', hsame⟩ := h.conversions id' r' hr'
        exact ⟨r'', by simpa only [Finmap.lookup_insert_of_ne _ he] using hr'', hsame⟩
  | putProcessed eventId row =>
    refine { h with processed := fun id hid ↦ ?_ }
    by_cases he : id = eventId
    · subst he
      simp [Db.write]
    · simpa only [Db.write, Finmap.lookup_insert_of_ne _ he] using h.processed id hid
  | putWallet | putOutbox | putIdempotency | deleteIdempotency | putExchange =>
    exact { h with }

/-- A write that creates its own rows only creates no others. -/
theorem CreatesWithin.write {ids : List String} {a b : Db} {w : Write} (h : CreatesWithin ids a b)
    (hw : Keeps ids a w) : CreatesWithin ids a (b.write w) := by
  cases w with
  | insertConversion id row =>
    intro id' hnone hsome
    by_cases he : id' = id
    · exact he ▸ hw.1
    · refine h id' hnone ?_
      simp only [Db.write] at hsome
      split at hsome
      · simpa only [Finmap.lookup_insert_of_ne _ he] using hsome
      · exact hsome
  | updateConversion id row =>
    intro id' hnone hsome
    simp only [Db.write] at hsome
    split at hsome
    · exact h id' hnone hsome
    · rename_i hb
      by_cases he : id' = id
      · subst he
        exact h id' hnone hb
      · exact h id' hnone (by simpa only [Finmap.lookup_insert_of_ne _ he] using hsome)
  | _ => exact h

/-- **Writes that keep the terms, published together.** -/
theorem keepsTerms_applyAll {ids : List String} {a : Db} {ws : List Write}
    (h : ∀ w ∈ ws, Keeps ids a w) :
    KeepsTerms a (postgres.applyAll a ws) ∧ CreatesWithin ids a (postgres.applyAll a ws) := by
  have hfrom : ∀ b, KeepsTerms a b → CreatesWithin ids a b →
      KeepsTerms a (postgres.applyAll b ws) ∧ CreatesWithin ids a (postgres.applyAll b ws) := by
    induction ws with
    | nil => exact fun b hb hb' ↦ ⟨hb, hb'⟩
    | cons w ws ih =>
      intro b hb hb'
      have hw := h w List.mem_cons_self
      exact ih (fun v hv ↦ h v (List.mem_cons_of_mem _ hv)) (b.write w) (hb.write hw) (hb'.write hw)
  exact hfrom a (.refl a) fun id hnone hsome ↦ absurd hnone hsome

/-! ### What the calls achieve -/

/-- **The payload agrees with the conversion it names**: its time can be read, the conversion under
its trimmed id is bound to its event, and as the repository reads it, it has its user, assets and
amounts. -/
structure Allowed (env : Platform) (payload : ConversionExecutionRequestedPayload) (db : Db) :
    Prop where
  eventType : payload.eventType = "ConversionExecutionRequested"
  occurredAt : env.parsesDate payload.occurredAt = true
  conversion : ∃ row c, db.conversions.lookup (trim payload.conversionId) = some row ∧
    row.exchangeExecutionId = some payload.eventId ∧
    PrismaConversionRepository.toDomain env (trim payload.conversionId) row = .ok c ∧
    payload.userId = c.userId.value ∧ payload.sourceAsset = c.sourceAmount.asset.code ∧
    payload.targetAsset = c.targetAmount.asset.code ∧
    Money.of env.toDecimalJs payload.sourceAmount c.sourceAmount.asset = .ok c.sourceAmount ∧
    Money.of env.toDecimalJs payload.targetAmount c.targetAmount.asset = .ok c.targetAmount

/-- An agreement with terms that are kept lasts. -/
theorem Allowed.of_keepsTerms {env : Platform} {payload : ConversionExecutionRequestedPayload}
    {a b : Db} (h : Allowed env payload a) (hterms : KeepsTerms a b) : Allowed env payload b := by
  obtain ⟨htype, htime, row, c, hrow, hevent, hread, hagrees⟩ := h
  obtain ⟨row', hrow', hsame⟩ := hterms.conversions _ row hrow
  refine ⟨htype, htime, row', { c with
    status := row'.status
    failureReason := row'.failureReason
    completedAt := row'.completedAt }, hrow', ?_, ?_, hagrees⟩
  · rw [hsame]
    exact hevent
  · rw [hsame]
    exact PrismaConversionRepository.toDomain_lifecycle hread _ _ _

/-- The conversion a payload names, bound to its event, goes from `FUNDS_RESERVED` to
`EXECUTION_REQUESTED`, and nothing else happens. -/
def Advances (payload : ConversionExecutionRequestedPayload) (a b : Db) : Prop :=
  ∃ row, a.conversions.lookup (trim payload.conversionId) = some row ∧
    row.status = .FUNDS_RESERVED ∧ row.exchangeExecutionId = some payload.eventId ∧
    b = { a with conversions := a.conversions.insert (trim payload.conversionId)
                  { row with status := .EXECUTION_REQUESTED } }

/-- An accept that can be committed: the key is free, the quote is active and in time, and the
wallet covers the source amount. `q` is the quote as the repository reads it. -/
structure Acceptance (env : Platform) (command : AcceptQuoteCommand) (inputs : AcceptInputs)
    (q : Quote) (row : QuoteRow) (w w' : WalletRow) (a : Db) : Prop where
  unclaimed : a.idempotency.lookup (trim command.idempotencyKey) = none
  quote : a.quotes.lookup (trim command.quoteId) = some row
  active : row.status = .ACTIVE
  inTime : inputs.now.getTime ≤ row.expiresAt.getTime
  read : PrismaQuoteRepository.toDomain env (trim command.quoteId)
    { row with acceptedAt := none } = .ok q
  freshConversion : a.conversions.lookup inputs.conversionId.value = none
  wallet : a.wallets.lookup (q.userId.value, q.sourceAsset.code) = some w
  covered : q.sourceAmount.amount ≤ w.available.1
  reserves : Reserves q.sourceAmount.amount w w'

/-- **The five tables change together**: the quote is accepted, its source amount moves from
available to reserved, the conversion is created in `FUNDS_RESERVED` and bound to the event, the
event becomes an unpublished outbox row, and the claim is completed with the body. No other row
changes. -/
def AcceptedTogether (env : Platform) (command : AcceptQuoteCommand) (inputs : AcceptInputs)
    (body : AcceptQuoteSuccessBody) (a b : Db) : Prop :=
  ∃ q row r w w', Acceptance env command inputs q row w w' a ∧
    a.outbox.lookup inputs.eventId.value = none ∧
    (reservedConversion q inputs).StoredAs env inputs.conversionId.value r ∧
    body = AcceptQuoteUseCase.successBody q (reservedConversion q inputs) ∧
    b = { a with
          wallets := a.wallets.insert (q.userId.value, q.sourceAsset.code) w'
          quotes := a.quotes.insert (trim command.quoteId) (acceptedRow row inputs)
          conversions := a.conversions.insert inputs.conversionId.value r
          outbox := a.outbox.insert inputs.eventId.value (eventRow q inputs)
          idempotency := a.idempotency.insert (trim command.idempotencyKey)
            (recordRow env (trim command.quoteId) q inputs) }

/-- What a commit of a call has achieved. -/
def Achieves (env : Platform) : Task → Db → Db → Prop
  | .acceptQuote command inputs, a, b =>
    b = a ∨ ∃ body, AcceptedTogether env command inputs body a b
  | .execute payload _, a, b => b = a ∨ Advances payload a b ∨ Allowed env payload a
  | _, _, _ => True

/-! ### The contract -/

/-- **What the calls promise on arbitrary tables.** An execution asks the exchange, or issues a
statement of its settlement, only for a payload that is allowed. -/
def steady (env : Platform) : Contract postgres Task where
  inv _ := True
  guar t a b := KeepsTerms a b ∧ CreatesWithin t.generatedIds a b ∧ Achieves env t a b
  compat t t' := t.generatedIds.Disjoint t'.generatedIds
  observed _ _ := True
  demand t o db s := ∀ payload inputs, t = .execute payload inputs →
    (o ≠ none ∨ ∃ data, s = .insertExchange data) → Allowed env payload db

variable {env : Platform} {t : Task} {held : List LockKey} {a b : Db}

/-- What interference leaves alone. -/
theorem steady_of_rely (h : (steady env).Rely t held a b) :
    KeepsTerms a b ∧ ∀ id ∈ t.generatedIds, a.conversions.lookup id = none →
      b.conversions.lookup id = none := by
  refine h.lift (fun a b ↦ KeepsTerms a b ∧ ∀ id ∈ t.generatedIds, a.conversions.lookup id = none →
    b.conversions.lookup id = none) (fun a ↦ ⟨.refl a, fun _ _ h ↦ h⟩)
    (fun a b c hab hbc ↦ ⟨hab.1.trans hbc.1, fun id hid h ↦ hbc.2 id hid (hab.2 id hid h)⟩) ?_
  rintro t' a b hdisjoint - - ⟨hterms, hcreates, -⟩ -
  refine ⟨hterms, fun id hid hnone ↦ ?_⟩
  by_contra hsome
  exact hdisjoint hid (hcreates id hnone hsome)

/-- A write that keeps the terms does so after steps of others. -/
theorem Keeps.of_rely {w : Write} (h : Keeps t.generatedIds a w)
    (hr : (steady env).Rely t held a b) : Keeps t.generatedIds b w :=
  h.of_keepsTerms (steady_of_rely hr).1 (steady_of_rely hr).2

/-- What writes that keep the terms publish. -/
theorem publishes_of_keeps {db : Db} {ws : List Write} (h : ∀ w ∈ ws, Keeps t.generatedIds db w)
    (hachieves : Achieves env t db (postgres.applyAll db ws)) : (steady env).Publishes t db ws :=
  have hterms := keepsTerms_applyAll h
  ⟨trivial, hterms.1, hterms.2, hachieves⟩

end Ledger

end WalletConversion
