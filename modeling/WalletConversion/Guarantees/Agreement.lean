import WalletConversion.Application.Reference
import WalletConversion.Ledger.Calls

/-!
# What the tables agree on

Seven tables tell one story about a conversion. Two theorems say so, for every committed state of
every run:

* `settlement_agreement` — the processed event, the exchange and the conversion agree on the
  outcome, and none of the three changes any more;
* `accepted_once` — an accepted quote has exactly one conversion, and the conversion has exactly one
  event; a quote that was not accepted has left no trace.
-/

namespace WalletConversion

open DecimalNotation Transactional

namespace Ledger

variable {env : Platform} {wallets : Table (String × String) WalletRow} {db : Db} {s : System}

/-! ### Settlement -/

/-- **The three tables agree on every settled event.** -/
structure SettlementAgrees (db : Db) : Prop where
  /-- A conversion has at most one processed event, the one it is bound to. -/
  bound : ∀ e p, db.processed.lookup e = some p → ∃ row,
    db.conversions.lookup p.conversionId = some row ∧ row.exchangeExecutionId = some e
  unique : ∀ e e' p p', db.processed.lookup e = some p → db.processed.lookup e' = some p' →
    p.conversionId = p'.conversionId → e = e'
  /-- An event is processed exactly when its conversion is terminal. -/
  processed_iff : ∀ c row, db.conversions.lookup c = some row → ∃ e,
    row.exchangeExecutionId = some e ∧
    ((∃ p, db.processed.lookup e = some p) ↔
      row.status = .COMPLETED ∨ row.status = .FAILED ∨ row.status = .REQUIRES_RECONCILIATION)
  /-- The processed event, the exchange and the conversion have one outcome. -/
  outcome : ∀ e p, db.processed.lookup e = some p → ∃ row x,
    db.conversions.lookup p.conversionId = some row ∧ db.exchange.lookup e = some x ∧
    x.outcome = p.outcome ∧ row.status = statusOf p.outcome

/-- What is settled stays as it is. -/
structure SettledForever (a b : Db) : Prop where
  processed : ∀ e p, a.processed.lookup e = some p → b.processed.lookup e = some p
  exchange : ∀ e x, a.exchange.lookup e = some x → b.exchange.lookup e = some x
  conversion : ∀ c row, a.conversions.lookup c = some row → row.status.isTerminal = true →
    b.conversions.lookup c = some row

theorem isTerminal_iff (status : ConversionStatus) : status.isTerminal = true ↔
    status = .COMPLETED ∨ status = .FAILED ∨ status = .REQUIRES_RECONCILIATION := by
  cases status <;> simp [ConversionStatus.isTerminal]

theorem Valid.settlementAgrees (h : Valid env wallets db) : SettlementAgrees db where
  bound e p hp := by
    obtain ⟨row, hrow, he, -⟩ := h.processed e p hp
    exact ⟨row, hrow, he⟩
  unique e e' p p' hp hp' heq := by
    obtain ⟨row, hrow, he, -⟩ := h.processed e p hp
    obtain ⟨row', hrow', he', -⟩ := h.processed e' p' hp'
    rw [← heq, hrow] at hrow'
    cases hrow'
    rw [he] at he'
    cases he'
    rfl
  processed_iff c row hrow := by
    obtain ⟨e, o, he, -, -⟩ := (h.conversions c row hrow).event
    refine ⟨e, he, ?_⟩
    rw [← isTerminal_iff]
    constructor
    · rintro ⟨p, hp⟩
      rw [(h.status_of_processed hrow he hp).2, statusOf_isTerminal]
    · intro ht
      obtain ⟨e', p, outcome, he', hp, -⟩ := (h.conversions c row hrow).settled ht
      rw [he] at he'
      cases he'
      exact ⟨p, hp⟩
  outcome e p hp := by
    obtain ⟨row, hrow, he, hs⟩ := h.processed e p hp
    have ht : row.status.isTerminal = true := by rw [hs, statusOf_isTerminal]
    obtain ⟨e', p', outcome, he', hp', -, hoe, -, hx⟩ := (h.conversions _ row hrow).settled ht
    rw [he] at he'
    cases he'
    rw [hp] at hp'
    cases hp'
    exact ⟨row, _, hrow, hx, hoe.symm, hs⟩

theorem Evolves.settledForever {a b : Db} (h : Evolves a b) : SettledForever a b where
  processed := h.processed
  exchange := h.exchange
  conversion c row hrow ht := by
    obtain ⟨row', hrow', he⟩ := h.conversions c row hrow
    rw [hrow', he.eq_of_terminal ht]

/-- **Settlement agreement.** -/
theorem settlement_agreement (hwallets : InitialWallets wallets)
    (hrun : System.Reaches env (System.initial wallets) s) :
    SettlementAgrees s.db ∧ ∀ s', System.Reaches env s s' → SettledForever s.db s'.db := by
  have hsound : Sound env wallets (fun _ _ ↦ True) s := sound_of_reaches hwallets hrun
  exact ⟨hsound.inv.settlementAgrees, fun s' hrun' ↦
    (hsound.evolves_of_reaches hrun').settledForever⟩

/-- An event that failed at the exchange is agreed upon. -/
theorem settlement_agreement_sample : ∃ s : System,
    ((s.db.processed.lookup "e-1").map (·.outcome) = some .FAILURE ∧
      (s.db.exchange.lookup "e-1").map (·.outcome) = some .FAILURE ∧
      (s.db.conversions.lookup "c-1").map (·.status) = some .FAILED) ∧ SettlementAgrees s.db := by
  have hrun : ∃ s, System.Reaches .reference (System.initial sampleWallets) s ∧
      (s.db.processed.lookup "e-1").map (·.outcome) = some .FAILURE ∧
        (s.db.exchange.lookup "e-1").map (·.outcome) = some .FAILURE ∧
        (s.db.conversions.lookup "c-1").map (·.status) = some .FAILED :=
    System.exists_of_play (sampleSettled .FAILURE) _ (by decide +kernel)
  obtain ⟨s, hreaches, hs⟩ := hrun
  exact ⟨s, hs, (settlement_agreement (by decide +kernel) hreaches).1⟩

/-! ### Acceptance -/

/-- An outbox row is the event of a conversion of a quote. -/
structure IsEventOf (e : String) (o : OutboxRow) (c : String) (row : ConversionRow)
    (q : QuoteRow) : Prop where
  payloadEventId : o.payload.eventId = e
  boundTo : row.exchangeExecutionId = some e
  aggregateId : o.aggregateId = c
  conversionId : o.payload.conversionId = c
  user : o.payload.userId = q.userId
  sourceAsset : o.payload.sourceAsset = q.sourceAsset
  targetAsset : o.payload.targetAsset = q.targetAsset
  sourceAmount : Denotes o.payload.sourceAmount.toList q.sourceAmount.1
  targetAmount : Denotes o.payload.targetAmount.toList q.targetAmount.1

/-- **One accepted quote, one conversion, one event.** -/
structure AcceptedOnce (db : Db) : Prop where
  /-- A quote is accepted exactly when one conversion references it. -/
  accepted_iff : ∀ id q, db.quotes.lookup id = some q →
    (q.status = .ACCEPTED ↔ ∃! c, ∃ row, db.conversions.lookup c = some row ∧ row.quoteId = id)
  /-- A conversion references a quote and has exactly one outbox row. -/
  event : ∀ c row, db.conversions.lookup c = some row → ∃ q e o,
    db.quotes.lookup row.quoteId = some q ∧ db.outbox.lookup e = some o ∧
    IsEventOf e o c row q ∧ ∀ e' o', db.outbox.lookup e' = some o' →
      o'.aggregateId = c ∨ o'.payload.conversionId = c → e' = e
  /-- A quote that was not accepted is named by no conversion, outbox row or record. -/
  untouched : ∀ id q, db.quotes.lookup id = some q → q.status = .ACTIVE →
    (∀ c row, db.conversions.lookup c = some row → row.quoteId ≠ id) ∧
    (∀ e o, db.outbox.lookup e = some o → ∃ row, db.conversions.lookup o.aggregateId = some row ∧
      row.quoteId ≠ id) ∧
    ∀ key rec, db.idempotency.lookup key = some rec → ∃ c row body,
      rec.conversionId = some c ∧ rec.responseBody = some body ∧
      db.conversions.lookup c = some row ∧ row.quoteId ≠ id ∧ body.quoteId ≠ id
  notCreated : ∀ c row, db.conversions.lookup c = some row → row.status ≠ .CREATED

theorem Valid.acceptedOnce (h : Valid env wallets db) : AcceptedOnce db where
  accepted_iff id q hq := by
    constructor
    · intro hacc
      -- an accepted quote has a conversion, and the index allows no second
      obtain ⟨c, row, hrow, hid⟩ := (h.quotes id q hq).converted hacc
      refine ⟨c, ⟨row, hrow, hid⟩, ?_⟩
      rintro c' ⟨row', hrow', hid'⟩
      exact h.oneConversion _ _ _ _ hrow' hrow (hid'.trans hid.symm)
    · rintro ⟨c, ⟨row, hrow, rfl⟩, -⟩
      obtain ⟨q', hq', hacc, -⟩ := (h.conversions c row hrow).quote
      rw [hq] at hq'
      cases hq'
      exact hacc
  event c row hrow := by
    have hvalid := h.conversions c row hrow
    obtain ⟨q, hq, -, hterms⟩ := hvalid.quote
    obtain ⟨e, o, he, ho, hann⟩ := hvalid.event
    refine ⟨q, e, o, hq, ho, ?_, fun e' o' ho' hc ↦ ?_⟩
    · exact
        { payloadEventId := hann.payloadEventId
          boundTo := he
          aggregateId := hann.aggregateId
          conversionId := hann.conversionId
          user := hann.user.trans hterms.user
          sourceAsset := hann.sourceAsset.trans hterms.sourceAsset
          targetAsset := hann.targetAsset.trans hterms.targetAsset
          sourceAmount := hterms.sourceAmount ▸ hann.sourceAmount
          targetAmount := hterms.targetAmount ▸ hann.targetAmount }
    · -- the row belongs to a conversion bound to it, and that is this one
      obtain ⟨row', hrow', he'⟩ := h.outbox e' o' ho'
      obtain ⟨e'', o'', he'', ho'', hann'⟩ := (h.conversions _ row' hrow').event
      rw [he'] at he''
      cases he''
      rw [ho'] at ho''
      cases ho''
      have hc' : o'.aggregateId = c := hc.elim id fun hp ↦ hann'.conversionId.symm.trans hp
      rw [hc', hrow] at hrow'
      cases hrow'
      rw [he] at he'
      cases he'
      rfl
  untouched id q hq hactive := by
    have hnone : ∀ c row, db.conversions.lookup c = some row → row.quoteId ≠ id :=
      fun c row hrow ↦ h.unconverted hq hactive hrow
    refine ⟨hnone, fun e o ho ↦ ?_, fun key rec hrec ↦ ?_⟩
    · obtain ⟨row, hrow, -⟩ := h.outbox e o ho
      exact ⟨row, hrow, hnone _ row hrow⟩
    · obtain ⟨c, row, body, hc, hbody, hrow, -, hid, -⟩ := (h.records key rec hrec).completed
      exact ⟨c, row, body, hc, hbody, hrow, hnone c row hrow, hid ▸ hnone c row hrow⟩
  notCreated c row hrow := (h.conversions c row hrow).notCreated

/-- **Acceptance, once and for all.** It holds in every committed state, and a later conversion of
the same quote is the same conversion, whether or not the record of the accept was deleted. -/
theorem accepted_once (hwallets : InitialWallets wallets)
    (hrun : System.Reaches env (System.initial wallets) s) :
    AcceptedOnce s.db ∧ ∀ s', System.Reaches env s s' → ∀ c c' row row',
      s.db.conversions.lookup c = some row → s'.db.conversions.lookup c' = some row' →
      row'.quoteId = row.quoteId → c' = c := by
  have hsound : Sound env wallets (fun _ _ ↦ True) s := sound_of_reaches hwallets hrun
  refine ⟨hsound.inv.acceptedOnce, fun s' hrun' c c' row row' hrow hrow' hid ↦ ?_⟩
  obtain ⟨row₁, hrow₁, he⟩ := (hsound.evolves_of_reaches hrun').conversions c row hrow
  exact (hsound.of_reaches hrun').inv.oneConversion _ _ _ _ hrow' hrow₁ (hid.trans he.terms.1.symm)

/-- The sample quote is accepted, and its record is deleted afterwards. -/
theorem accepted_once_sample : ∃ s : System,
    ((s.db.quotes.lookup "q-1").map (·.status) = some .ACCEPTED ∧
      s.db.idempotency.lookup "key-1" = none) ∧ AcceptedOnce s.db := by
  have hrun : ∃ s, System.Reaches .reference (System.initial sampleWallets) s ∧
      (s.db.quotes.lookup "q-1").map (·.status) = some .ACCEPTED ∧
        s.db.idempotency.lookup "key-1" = none :=
    System.exists_of_play (sampleAccepted ++
      callFor 3 (.cleanup ⟨1786060800000, by decide⟩ 1000 10 fun _ ↦ 0) 1) _ (by decide +kernel)
  obtain ⟨s, hreaches, hs⟩ := hrun
  exact ⟨s, hs, (accepted_once (by decide +kernel) hreaches).1⟩

end Ledger

end WalletConversion
