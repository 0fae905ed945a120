import WalletConversion.Application.Reference
import WalletConversion.Ledger.Calls

/-!
# The quoted price is locked

A quote is written twice, by its creation and by its acceptance, and an upsert of the same row could
write any column. `price_locked` says that only the status and the time of acceptance ever change,
once, in time, and that the conversion has the terms of the quote.

The rule for the acceptance exists twice as well, in `Quote.accept` and in the `WHERE` clause of
`saveAccepted`. `guards_agree` compares the two on any row that can be read back.
-/

namespace WalletConversion

open DecimalNotation Transactional

namespace Ledger

variable {env : Platform} {wallets : Table (String × String) WalletRow} {s : System} {a b : Db}

/-! ### The two guards -/

/-- The two guards of a quote agree at a time: both pass, or both refuse. -/
structure GuardsAgree (env : Platform) (q : Quote) (now : Date) (db : Db) : Prop where
  /-- The statement `saveAccepted` issues for a quote that was accepted in memory. -/
  statement : (PrismaQuoteRepository.saveAccepted env (q.accepted now) now).next =
    some (.acceptQuote q.id.value now now)
  passes : (∃ q', (Quote.accept now).call q = .ok q') ↔ ∀ locked, ∃ row ws,
    exec (.acceptQuote q.id.value now now) locked db = .ok (some row, ws)
  refuses : (∃ e, (Quote.accept now).call q = .error e) ↔ ∀ locked,
    exec (.acceptQuote q.id.value now now) locked db = .ok (none, [])

/-- **The guard in memory and the guard of the statement agree** on every row that meets the checks
of the table and can be read back, at every time. -/
theorem guards_agree {row : QuoteRow} {q : Quote} {db : Db}
    (hrow : db.quotes.lookup q.id.value = some row) (hchecks : row.violated = none)
    (hread : PrismaQuoteRepository.toDomain env q.id.value row = .ok q) (now : Date) :
    GuardsAgree env q now db := by
  obtain ⟨-, -, -, hstatus, hexpiry, -⟩ := PrismaQuoteRepository.toDomain_eq_ok hread
  have hcall := q.accept_call now
  by_cases hpass : row.status = .ACTIVE ∧ now.getTime ≤ row.expiresAt.getTime
  -- both guards let it pass
  · have hactive : ¬ q.status = .ACCEPTED := by simp [hstatus, hpass.1]
    have hintime : ¬ q.isExpired now = true := by simp [Quote.isExpired, hexpiry, hpass.2]
    rw [if_neg hactive, if_neg hintime] at hcall
    have hchecks' : ({ row with status := .ACCEPTED, acceptedAt := some now } :
        QuoteRow).violated = none := by
      obtain ⟨hpos, hne, -, htimes⟩ := QuoteRow.violated_eq_none.1 hchecks
      exact QuoteRow.violated_eq_none.2 ⟨hpos, hne, .inr ⟨rfl, by simp⟩, htimes⟩
    have hexec := exec_acceptQuote hrow hpass.1 hpass.2 hchecks'
    exact
      { statement := rfl
        passes := ⟨fun _ locked ↦ ⟨_, _, hexec locked⟩, fun _ ↦ ⟨_, hcall⟩⟩
        refuses := by
          simp only [hcall, hexec]
          simp }
  -- neither guard does
  · have hexec (locked : LockKey → Bool) :
        exec (.acceptQuote q.id.value now now) locked db = .ok (none, []) := by
      simp only [exec, hrow, if_neg hpass]
    have herror : ∃ e, (Quote.accept now).call q = .error e := by
      rw [hcall]
      split_ifs with haccepted hexpired
      · exact ⟨_, rfl⟩
      · exact ⟨_, rfl⟩
      · have hactive : q.status = .ACTIVE := q.lifecycle.elim (·.1) fun h ↦ absurd h.1 haccepted
        have hintime : now.getTime ≤ q.expiresAt.getTime := by
          simpa [Quote.isExpired, hactive] using hexpired
        exact absurd ⟨hstatus ▸ hactive, hexpiry ▸ hintime⟩ hpass
    exact
      { statement := rfl
        passes := by
          obtain ⟨e, he⟩ := herror
          simp only [he, hexec]
          simp
        refuses := ⟨fun _ ↦ hexec, fun _ ↦ herror⟩ }

/-! ### The run -/

/-- No quote was accepted after it expired. -/
def AcceptedInTime (db : Db) : Prop :=
  ∀ id row, db.quotes.lookup id = some row → row.status = .ACCEPTED →
    ∃ at', row.acceptedAt = some at' ∧ at'.getTime ≤ row.expiresAt.getTime

theorem acceptedInTime_of_commit {t : Task} (hcommit : Commit env t a b) (h : AcceptedInTime a) :
    AcceptedInTime b := by
  intro id row hrow haccepted
  cases hcommit with
  | quoteCreated built stored checks active fresh =>
    rcases Table.lookup_insert_cases hrow with ⟨-, rfl⟩ | ⟨-, hrow⟩
    · rw [active] at haccepted
      cases haccepted
    · exact h id row hrow haccepted
  | accepted valid unclaimed lookup stored active inTime =>
    rcases Table.lookup_insert_cases hrow with ⟨-, rfl⟩ | ⟨-, hrow⟩
    · exact ⟨_, rfl, inTime⟩
    · exact h id row hrow haccepted
  | _ => exact h id row hrow haccepted

/-- The price of a quote stays, and its status moves from `ACTIVE` to `ACCEPTED` at most. -/
structure PriceKept (row row' : QuoteRow) : Prop where
  userId : row'.userId = row.userId
  sourceAsset : row'.sourceAsset = row.sourceAsset
  targetAsset : row'.targetAsset = row.targetAsset
  sourceAmount : row'.sourceAmount = row.sourceAmount
  targetAmount : row'.targetAmount = row.targetAmount
  rate : row'.rate = row.rate
  createdAt : row'.createdAt = row.createdAt
  expiresAt : row'.expiresAt = row.expiresAt
  lifecycle : (row'.status = row.status ∧ row'.acceptedAt = row.acceptedAt) ∨
    (row.status = .ACTIVE ∧ row'.status = .ACCEPTED)

theorem QuoteEvolves.priceKept {row row' : QuoteRow} (h : QuoteEvolves row row') :
    PriceKept row row' := by
  rcases h with rfl | ⟨hactive, at', rfl⟩
  · exact ⟨rfl, rfl, rfl, rfl, rfl, rfl, rfl, rfl, .inl ⟨rfl, rfl⟩⟩
  · exact ⟨rfl, rfl, rfl, rfl, rfl, rfl, rfl, rfl, .inr ⟨hactive, rfl⟩⟩

/-- **The quoted price is locked.** From any state of a run to any later one a quote keeps its
price; an accepted quote was accepted in time, and every conversion has the terms of its quote.
Whenever a stored quote meets a clock reading, the two guards of its acceptance agree. -/
theorem price_locked (hwallets : InitialWallets wallets)
    (hrun : System.Reaches env (System.initial wallets) s) :
    (∀ s', System.Reaches env s s' → ∀ id row, s.db.quotes.lookup id = some row →
      ∃ row', s'.db.quotes.lookup id = some row' ∧ PriceKept row row') ∧
    AcceptedInTime s.db ∧
    (∀ c row, s.db.conversions.lookup c = some row → ∃ q,
      s.db.quotes.lookup row.quoteId = some q ∧ q.status = .ACCEPTED ∧ SameTerms q row) ∧
    ∀ (db : Db) (q : Quote) (row : QuoteRow) (now : Date),
      db.quotes.lookup q.id.value = some row → row.violated = none →
      PrismaQuoteRepository.toDomain env q.id.value row = .ok q → GuardsAgree env q now db := by
  have hstart : Sound env wallets (fun _ _ ↦ True) (System.initial wallets) :=
    sound_of_reaches hwallets .refl
  have hsound := hstart.of_reaches hrun
  refine ⟨fun s' hrun' id row hrow ↦ ?_, ?_, ?_, ?_⟩
  · obtain ⟨row', hrow', he⟩ := (hsound.evolves_of_reaches hrun').quotes id row hrow
    exact ⟨row', hrow', he.priceKept⟩
  · refine hstart.keeps (fun _ _ _ _ hcommit ↦ acceptedInTime_of_commit hcommit) hrun ?_
    intro id row hrow
    simp [System.initial, Db.ofWallets] at hrow
  · exact fun c row hrow ↦ (hsound.inv.conversions c row hrow).quote
  · exact fun db q row now hrow hchecks hread ↦ guards_agree hrow hchecks hread now

/-- The sample quote is accepted in time, and its conversion is completed at its price. -/
theorem price_locked_sample : ∃ (s : System) (row : QuoteRow),
    s.db.quotes.lookup "q-1" = some row ∧ row.status = .ACCEPTED ∧
    (∃ at', row.acceptedAt = some at' ∧ at'.getTime ≤ row.expiresAt.getTime) ∧
    ∃ k, s.db.conversions.lookup "c-1" = some k ∧ k.status = .COMPLETED ∧
      ∃ q, s.db.quotes.lookup k.quoteId = some q ∧ SameTerms q k := by
  have hrun : ∃ s, System.Reaches .reference (System.initial sampleWallets) s ∧
      (∃ row ∈ s.db.quotes.lookup "q-1", row.status = .ACCEPTED) ∧
        ∃ k ∈ s.db.conversions.lookup "c-1", k.status = .COMPLETED :=
    System.exists_of_play (sampleSettled .SUCCESS) _ (by decide +kernel)
  obtain ⟨s, hreaches, ⟨row, hrow, haccepted⟩, k, hk, hcompleted⟩ := hrun
  obtain ⟨-, hintime, hterms, -⟩ := price_locked (by decide +kernel) hreaches
  obtain ⟨q, hq, -, hsame⟩ := hterms "c-1" k hk
  exact ⟨s, row, hrow, haccepted, hintime "q-1" row hrow haccepted, k, hk, hcompleted, q, hq, hsame⟩

end Ledger

end WalletConversion
