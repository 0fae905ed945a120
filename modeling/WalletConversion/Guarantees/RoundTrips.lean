import WalletConversion.Guarantees.Lifecycle
import WalletConversion.Ledger.Calls

/-!
# Rows decode to what was encoded

An aggregate is created, changed by its methods, saved and loaded, in any order and from any of its
copies in memory. `rows_decode` follows it through all of this: after every save the row is read
back as the copy that was saved, field by field, and no row of it makes a repository throw.

A quote is saved from every copy. A copy of a conversion is not if one of its texts holds a `NUL`,
if its funds are reserved and it has no event yet, or if another conversion of its quote is stored
and it is not: these are all the refusals (`Saves`). The last of them is what keeps a quote from
being converted twice.

A repository sees the committed tables or those of its open transaction. Either stands for `db`
below: its methods are run on it alone, one statement at a time.
-/

namespace WalletConversion

open DecimalNotation Transactional

namespace Ledger

variable {env : Platform} {db db' : Db}

/-- What a method that looks for an aggregate has found. -/
def found {α : Type} : Ending DbError Thrown (Option α) → List α
  | .returned (some a) => [a]
  | .returned none | .threw _ | .refused _ => []

/-! ### Quotes -/

section Quotes

/-- Two copies of a quote: they differ in status and acceptance only. -/
structure SameQuote (q q' : Quote) : Prop where
  id : q'.id = q.id
  userId : q'.userId = q.userId
  sourceAmount : q'.sourceAmount = q.sourceAmount
  targetAmount : q'.targetAmount = q.targetAmount
  rate : q'.rate = q.rate
  createdAt : q'.createdAt = q.createdAt
  expiresAt : q'.expiresAt = q.expiresAt

/-- A quote of registered assets whose texts and numbers fit their columns. -/
structure FitsQuote (env : Platform) (q : Quote) : Prop where
  storable : q.Storable
  sourceAsset : q.sourceAmount.asset ∈ env.registry.assets
  targetAsset : q.targetAmount.asset ∈ env.registry.assets
  rateSource : q.rate.sourceAsset ∈ env.registry.assets
  rateTarget : q.rate.targetAsset ∈ env.registry.assets
  sourceAmount : q.sourceAmount.amount < 10 ^ 20
  targetAmount : q.targetAmount.amount < 10 ^ 20
  rateFixed : IsFixed 18 q.rate.rate.1
  rate : q.rate.rate.1 < 10 ^ 20

/-- What may happen to a quote that was just created: the copies of it in memory, and the tables. -/
inductive QuoteSession (env : Platform) (quote : Quote) : List Quote → Db → Prop where
  | created (db : Db) (fresh : db.quotes.lookup quote.id.value = none) :
      QuoteSession env quote [quote] db
  | accept {copies : List Quote} {db : Db} {q : Quote} (now : Date)
      (h : QuoteSession env quote copies db) (hq : q ∈ copies) :
      QuoteSession env quote ((Quote.accept now q).2 :: copies) db
  | save {copies : List Quote} {db : Db} {q : Quote} (h : QuoteSession env quote copies db)
      (hq : q ∈ copies) :
      QuoteSession env quote copies ((PrismaQuoteRepository.save q).solo postgres none db).2
  | saveAccepted {copies : List Quote} {db db' : Db} {q : Quote}
      {ending : Ending DbError Thrown (Option Quote)} (now : Date)
      (h : QuoteSession env quote copies db) (hq : q ∈ copies)
      (hcall : (PrismaQuoteRepository.saveAccepted env q now).solo postgres none db =
        (ending, db')) :
      QuoteSession env quote (found ending ++ copies) db'
  | findById {copies : List Quote} {db db' : Db} {ending : Ending DbError Thrown (Option Quote)}
      (h : QuoteSession env quote copies db)
      (hcall : (PrismaQuoteRepository.findById env quote.id).solo postgres none db =
        (ending, db')) :
      QuoteSession env quote (found ending ++ copies) db'
  /-- Other rows change. -/
  | elsewhere {copies : List Quote} {db db' : Db} (h : QuoteSession env quote copies db)
      (hdb : db'.quotes.lookup quote.id.value = db.quotes.lookup quote.id.value) :
      QuoteSession env quote copies db'
  /-- A transaction is rolled back: the tables are those of another moment. -/
  | rollback {copies copies' : List Quote} {db db' : Db} (h : QuoteSession env quote copies db)
      (h' : QuoteSession env quote copies' db') : QuoteSession env quote copies db'

/-- **What the repository of quotes promises** for the copies of a quote. -/
structure QuotesDecode (env : Platform) (quote : Quote) (copies : List Quote) (db : Db) : Prop where
  /-- Loading does not throw. -/
  loads : ∃ stored, (PrismaQuoteRepository.findById env quote.id).solo postgres none db =
    (.returned stored, db)
  /-- Any copy can be saved, and is then loaded as it is. -/
  saves : ∀ q ∈ copies, ∃ db',
    (PrismaQuoteRepository.save q).solo postgres none db = (.returned (), db') ∧
    (PrismaQuoteRepository.findById env quote.id).solo postgres none db' = (.returned (some q), db')
  /-- An accepted copy is returned and then loaded as it is, if the stored one is active and has not
  expired; otherwise nothing is returned and nothing changes. -/
  accepts : ∀ q ∈ copies, ∀ now, q.status = .ACCEPTED → ∀ stored,
    (PrismaQuoteRepository.findById env quote.id).solo postgres none db = (.returned stored, db) →
    if stored.any (fun s ↦ s.status = .ACTIVE ∧ s.isExpired now = false) then ∃ db',
      (PrismaQuoteRepository.saveAccepted env q now).solo postgres none db =
        (.returned (some q), db') ∧
      (PrismaQuoteRepository.findById env quote.id).solo postgres none db' =
        (.returned (some q), db')
    else (PrismaQuoteRepository.saveAccepted env q now).solo postgres none db = (.returned none, db)

variable {quote q q' : Quote} {copies : List Quote} {row : QuoteRow} {now : Date}

theorem SameQuote.refl (q : Quote) : SameQuote q q := ⟨rfl, rfl, rfl, rfl, rfl, rfl, rfl⟩

/-- An acceptance that throws leaves the quote, any other marks it. -/
theorem accept_snd (q : Quote) (now : Date) :
    (Quote.accept now q).2 = q ∨ (Quote.accept now q).2 = q.accepted now := by
  rw [Quote.accept, Mutation.throwIf_bind]
  split_ifs
  · exact .inl rfl
  · rw [Mutation.throwIf_bind]
    split_ifs
    · exact .inl rfl
    · exact .inr rfl

/-- An acceptance keeps what the quote was created with. -/
theorem SameQuote.accept (h : SameQuote quote q) (now : Date) :
    SameQuote quote (Quote.accept now q).2 := by
  rcases accept_snd q now with he | he <;> rw [he]
  · exact h
  · exact ⟨h.id, h.userId, h.sourceAmount, h.targetAmount, h.rate, h.createdAt, h.expiresAt⟩

/-- Whether a quote can be stored lies in what it was created with. -/
theorem SameQuote.storable_iff (h : SameQuote quote q) : q.Storable ↔ quote.Storable := by
  constructor
  · rintro ⟨hid, huser, hsource, htarget⟩
    exact ⟨h.id ▸ hid, h.userId ▸ huser, h.sourceAmount ▸ hsource, h.targetAmount ▸ htarget⟩
  · rintro ⟨hid, huser, hsource, htarget⟩
    exact ⟨h.id ▸ hid, h.userId ▸ huser, h.sourceAmount ▸ hsource, h.targetAmount ▸ htarget⟩

/-- The stored copy with the state of another copy. -/
theorem SameQuote.stored (h : SameQuote quote q) (h' : SameQuote quote q')
    (hq : q.StoredAs env q.id.value row) : q'.StoredAs env q'.id.value
      { row with status := q'.status, acceptedAt := q'.acceptedAt } where
  storable := h'.storable_iff.2 (h.storable_iff.1 hq.storable)
  id_eq := rfl
  user_eq := by rw [hq.user_eq, h.userId, h'.userId]
  source := by
    rw [h'.sourceAmount, ← h.sourceAmount]
    exact hq.source
  target := by
    rw [h'.targetAmount, ← h.targetAmount]
    exact hq.target
  rateSource := by rw [h'.sourceAmount, ← h.sourceAmount, h'.rate, ← h.rate, hq.rateSource]
  rateTarget := by rw [h'.targetAmount, ← h.targetAmount, h'.rate, ← h.rate, hq.rateTarget]
  rate_eq := by rw [hq.rate_eq, h.rate, h'.rate]
  status_eq := rfl
  createdAt_eq := by rw [hq.createdAt_eq, h.createdAt, h'.createdAt]
  expiresAt_eq := by rw [hq.expiresAt_eq, h.expiresAt, h'.expiresAt]
  acceptedAt_eq := rfl

/-- The row of a quote that fits. -/
theorem exists_storedAs (h : FitsQuote env q) : ∃ row, q.StoredAs env q.id.value row := by
  have hrate : |q.rate.rate.1| < 10 ^ 20 := by
    rw [abs_of_nonneg q.rate.rate.2.1]
    exact h.rate
  refine ⟨quoteRow q (q.sourceAmount.toColumn
    (env.registry.scale_le _ h.sourceAsset) h.sourceAmount)
    (q.targetAmount.toColumn (env.registry.scale_le _ h.targetAsset) h.targetAmount)
    ⟨q.rate.rate.1, h.rateFixed, hrate⟩, ?_⟩
  exact
    { storable := h.storable
      id_eq := rfl
      user_eq := rfl
      source := ⟨h.sourceAsset, rfl, rfl⟩
      target := ⟨h.targetAsset, rfl, rfl⟩
      rateSource := env.registry.unique _ h.rateSource _ h.sourceAsset q.pair.1.symm
      rateTarget := env.registry.unique _ h.rateTarget _ h.targetAsset q.pair.2.symm
      rate_eq := rfl
      status_eq := rfl
      createdAt_eq := rfl
      expiresAt_eq := rfl
      acceptedAt_eq := rfl }

/-- The row of a quote that is worth something meets its checks. -/
theorem violated_of_storedAs (h : q.StoredAs env q.id.value row)
    (hpos : q.targetAmount.amount ≠ 0) :
    row.violated = none := by
  refine QuoteRow.violated_eq_none.2 ⟨⟨?_, ?_, ?_⟩, ?_, ?_, ?_⟩
  · rw [h.source.amount_eq]
    exact lt_of_le_of_ne q.sourceAmount.nonneg (Ne.symm q.positive)
  · rw [h.target.amount_eq]
    exact lt_of_le_of_ne q.targetAmount.nonneg (Ne.symm hpos)
  · rw [h.rate_eq]
    exact q.rate.rate_pos
  · rw [h.source.code_eq, h.target.code_eq, ← h.rateSource, ← h.rateTarget]
    exact q.rate.distinct
  · rw [h.status_eq, h.acceptedAt_eq]
    refine q.lifecycle.imp_right (And.imp_right fun h ↦ ?_)
    exact Option.isSome_iff_ne_none.1 h
  · rw [h.createdAt_eq, h.expiresAt_eq]
    exact q.expiry

/-- Looking for a quote. -/
theorem solo_findQuote (hrow : db.quotes.lookup q.id.value = some row)
    (hq : q.StoredAs env q.id.value row) :
    (PrismaQuoteRepository.findById env q.id).solo postgres none db = (.returned (some q), db) := by
  have hexec : exec (.findQuote q.id.value) (fun _ ↦ false) db = .ok (some row, []) := by
    rw [exec, hrow]
  refine (Prog.solo_call_none hexec).trans ?_
  simp only [Store.applyAll_nil, Prog.bind_eq_handle, hq.toDomain, attempt_ok, Prog.handle_ret]
  rfl

/-- A quote that was not saved is not found. -/
theorem solo_findQuote_of_none (hrow : db.quotes.lookup q.id.value = none) :
    (PrismaQuoteRepository.findById env q.id).solo postgres none db = (.returned none, db) := by
  have hexec : exec (.findQuote q.id.value) (fun _ ↦ false) db = .ok (none, []) := by
    rw [exec, hrow]
  exact (Prog.solo_call_none hexec).trans rfl

/-- What holds of the copies and of the row. -/
structure QuotesKept (env : Platform) (quote : Quote) (copies : List Quote) (db : Db) : Prop where
  copies : ∀ q ∈ copies, SameQuote quote q
  row : ∀ row, db.quotes.lookup quote.id.value = some row →
    ∃ q, SameQuote quote q ∧ q.StoredAs env q.id.value row

/-- **Saving a copy**, on both paths. -/
theorem QuotesKept.solo_save (h : QuotesKept env quote copies db) (hq : SameQuote quote q)
    (hfits : FitsQuote env q) (hpos : q.targetAmount.amount ≠ 0) :
    ∃ row, q.StoredAs env q.id.value row ∧ (PrismaQuoteRepository.save q).solo postgres none db =
      (.returned (), { db with quotes := db.quotes.insert q.id.value row }) := by
  cases hrow : db.quotes.lookup q.id.value with
  | none =>
    obtain ⟨row, hstored⟩ := exists_storedAs hfits
    have hexec := exec_saveQuote_new hstored (violated_of_storedAs hstored hpos) hrow fun _ ↦ false
    exact ⟨row, hstored, (Prog.solo_call_none hexec).trans rfl⟩
  | some row =>
    obtain ⟨q', hq', hstored'⟩ := h.row row (hq.id ▸ hrow)
    have hstored := hq'.stored hq hstored'
    have hexec : exec (.upsertQuote (PrismaQuoteRepository.data q)) (fun _ ↦ false) db =
        .ok ((), [.putQuote q.id.value
          { row with status := q.status, acceptedAt := q.acceptedAt }]) := by
      simp only [exec, Quote.storing_eq_ok.2 hstored.storable, bind, Except.bind]
      simp only [PrismaQuoteRepository.data, hrow, violated_of_storedAs hstored hpos, checked_none]
    exact ⟨_, hstored, (Prog.solo_call_none hexec).trans rfl⟩

/-- An accepted quote has its time. -/
theorem exists_acceptedAt (h : q.status = .ACCEPTED) :
    ∃ acceptedAt, q.acceptedAt = some acceptedAt := by
  rcases q.lifecycle with ⟨hactive, -⟩ | ⟨-, haccepted⟩
  · rw [h] at hactive
    cases hactive
  · exact Option.isSome_iff_exists.1 haccepted

/-- **Saving an accepted copy** over an active one. -/
theorem solo_saveAccepted (hstatus : q.status = .ACCEPTED)
    (hrow : db.quotes.lookup q.id.value = some row)
    (hstored : q.StoredAs env q.id.value
      { row with status := q.status, acceptedAt := q.acceptedAt })
    (hpos : q.targetAmount.amount ≠ 0)
    (hactive : row.status = .ACTIVE ∧ now.getTime ≤ row.expiresAt.getTime) :
    (PrismaQuoteRepository.saveAccepted env q now).solo postgres none db = (.returned (some q),
      { db with quotes := db.quotes.insert q.id.value
                  { row with status := q.status, acceptedAt := q.acceptedAt } }) := by
  obtain ⟨acceptedAt, hacceptedAt⟩ := exists_acceptedAt hstatus
  have hchecks := violated_of_storedAs hstored hpos
  have hdomain := hstored.toDomain
  rw [hstatus, hacceptedAt] at hchecks hdomain ⊢
  have hexec := exec_acceptQuote hrow hactive.1 hactive.2 hchecks fun _ ↦ false
  simp only [PrismaQuoteRepository.saveAccepted, hstatus, hacceptedAt]
  refine (Prog.solo_call_none hexec).trans ?_
  simp only [Prog.bind_eq_handle, Prog.handle_ret, hdomain, attempt_ok]
  rfl

/-- Saving an accepted copy over anything else. -/
theorem solo_saveAccepted_of_not (hstatus : q.status = .ACCEPTED)
    (hrow : ∀ row, db.quotes.lookup q.id.value = some row →
      ¬ (row.status = .ACTIVE ∧ now.getTime ≤ row.expiresAt.getTime)) :
    (PrismaQuoteRepository.saveAccepted env q now).solo postgres none db =
      (.returned none, db) := by
  obtain ⟨acceptedAt, hacceptedAt⟩ := exists_acceptedAt hstatus
  have hexec : exec (.acceptQuote q.id.value acceptedAt now) (fun _ ↦ false) db =
      .ok (none, []) := by
    cases hlookup : db.quotes.lookup q.id.value with
    | none => simp only [exec, hlookup]
    | some row => simp only [exec, hlookup, if_neg (hrow row hlookup)]
  simp only [PrismaQuoteRepository.saveAccepted, hstatus, hacceptedAt]
  exact (Prog.solo_call_none hexec).trans rfl

/-- Saving a copy that is not accepted as accepted. -/
theorem solo_saveAccepted_of_active (hstatus : q.status ≠ .ACCEPTED) : ∃ e,
    (PrismaQuoteRepository.saveAccepted env q now).solo postgres none db = (.threw e, db) := by
  unfold PrismaQuoteRepository.saveAccepted
  split
  · exact absurd ‹_› hstatus
  · exact ⟨_, rfl⟩

/-- Whether a quote fits its columns lies in what it was created with. -/
theorem SameQuote.fits (h : SameQuote quote q) (hquote : FitsQuote env quote) :
    FitsQuote env q := by
  have hstorable := h.storable_iff.2 hquote.storable
  obtain ⟨-, -, hsource, htarget, hrate, -, -⟩ := h
  refine ⟨hstorable, ?_, ?_, ?_, ?_, ?_, ?_, ?_, ?_⟩ <;>
    first | rw [hsource] | rw [htarget] | rw [hrate]
  exacts [hquote.sourceAsset, hquote.targetAsset, hquote.rateSource, hquote.rateTarget,
    hquote.sourceAmount, hquote.targetAmount, hquote.rateFixed, hquote.rate]

/-- The row after a copy was written. -/
theorem QuotesKept.insert (h : QuotesKept env quote copies db) (hq : SameQuote quote q)
    (hrow : q.StoredAs env q.id.value row) :
    QuotesKept env quote copies { db with quotes := db.quotes.insert q.id.value row } where
  copies := h.copies
  row row' hrow' := by
    rw [← hq.id, Finmap.lookup_insert, Option.some.injEq] at hrow'
    exact ⟨q, hq, hrow' ▸ hrow⟩

theorem QuotesKept.push (h : QuotesKept env quote copies db) {more : List Quote}
    (hmore : ∀ q ∈ more, SameQuote quote q) : QuotesKept env quote (more ++ copies) db where
  copies q hq := (List.mem_append.1 hq).elim (hmore q) (h.copies q)
  row := h.row

/-- What the stored copy is. -/
theorem QuotesKept.load (h : QuotesKept env quote copies db) :
    (db.quotes.lookup quote.id.value = none ∧
      (PrismaQuoteRepository.findById env quote.id).solo postgres none db = (.returned none, db)) ∨
    ∃ row q, db.quotes.lookup quote.id.value = some row ∧ SameQuote quote q ∧
      q.StoredAs env q.id.value row ∧
      (PrismaQuoteRepository.findById env quote.id).solo postgres none db =
        (.returned (some q), db) := by
  cases hrow : db.quotes.lookup quote.id.value with
  | none => exact .inl ⟨rfl, solo_findQuote_of_none hrow⟩
  | some row =>
    obtain ⟨q, hq, hstored⟩ := h.row row hrow
    refine .inr ⟨row, q, rfl, hq, hstored, ?_⟩
    rw [← hq.id]
    exact solo_findQuote (hq.id ▸ hrow) hstored

/-- **Every step of a session keeps the copies alike**, and the row one of them. -/
theorem quotesKept (hfits : FitsQuote env quote) (hpos : quote.targetAmount.amount ≠ 0)
    (h : QuoteSession env quote copies db) : QuotesKept env quote copies db := by
  have hpos' : ∀ {q}, SameQuote quote q → q.targetAmount.amount ≠ 0 := fun hq ↦ by
    rwa [hq.targetAmount]
  induction h with
  | created db fresh =>
    refine ⟨fun q hq ↦ ?_, fun row hrow ↦ ?_⟩
    · obtain rfl := List.mem_singleton.1 hq
      exact .refl q
    · rw [fresh] at hrow
      cases hrow
  | accept now h hq ih =>
    refine ⟨fun q' hq' ↦ ?_, ih.row⟩
    rcases List.mem_cons.1 hq' with rfl | hold
    · exact (ih.copies _ hq).accept now
    · exact ih.copies q' hold
  | save h hq ih =>
    have hsame := ih.copies _ hq
    obtain ⟨row, hstored, hsolo⟩ := ih.solo_save hsame (hsame.fits hfits) (hpos' hsame)
    rw [hsolo]
    exact ih.insert hsame hstored
  | @saveAccepted copies db db' q ending now h hq hcall ih =>
    have hsame := ih.copies _ hq
    by_cases hstatus : q.status = .ACCEPTED
    · by_cases hrow : ∃ row, db.quotes.lookup q.id.value = some row ∧ row.status = .ACTIVE ∧
        now.getTime ≤ row.expiresAt.getTime
      · obtain ⟨row, hlookup, hactive⟩ := hrow
        obtain ⟨q', hq', hstored'⟩ := ih.row row (hsame.id ▸ hlookup)
        have hstored := hq'.stored hsame hstored'
        cases hcall.symm.trans (solo_saveAccepted hstatus hlookup hstored (hpos' hsame) hactive)
        refine (ih.insert hsame hstored).push fun q'' hq'' ↦ ?_
        obtain rfl := List.mem_singleton.1 hq''
        exact hsame
      · cases hcall.symm.trans (solo_saveAccepted_of_not hstatus fun row hlookup hactive ↦
          hrow ⟨row, hlookup, hactive⟩)
        exact ih
    · obtain ⟨e, hthrew⟩ : ∃ e,
        (PrismaQuoteRepository.saveAccepted env q now).solo postgres none db =
          (.threw e, db) := solo_saveAccepted_of_active hstatus
      cases hcall.symm.trans hthrew
      exact ih
  | @findById copies db db' ending h hcall ih =>
    rcases ih.load with ⟨-, hload⟩ | ⟨row, q, -, hq, -, hload⟩
    · cases hcall.symm.trans hload
      exact ih
    · cases hcall.symm.trans hload
      refine ih.push fun q' hq' ↦ ?_
      obtain rfl := List.mem_singleton.1 hq'
      exact hq
  | elsewhere h hdb ih =>
    refine ⟨ih.copies, fun row hrow ↦ ih.row row ?_⟩
    rwa [hdb] at hrow
  | rollback h h' ih ih' => exact ⟨ih.copies, ih'.row⟩

/-- **Quotes decode.** -/
theorem quotesDecode (hfits : FitsQuote env quote) (hpos : quote.targetAmount.amount ≠ 0)
    (h : QuoteSession env quote copies db) : QuotesDecode env quote copies db := by
  have hkept := quotesKept hfits hpos h
  have hpos' : ∀ {q}, SameQuote quote q → q.targetAmount.amount ≠ 0 := fun hq ↦ by
    rwa [hq.targetAmount]
  have hload : ∀ {q row}, SameQuote quote q → q.StoredAs env q.id.value row →
      (PrismaQuoteRepository.findById env quote.id).solo postgres none
        { db with quotes := db.quotes.insert q.id.value row } =
      (.returned (some q), { db with quotes := db.quotes.insert q.id.value row }) :=
    fun hq hstored ↦ by
      rw [← hq.id]
      exact solo_findQuote (Finmap.lookup_insert _) hstored
  refine ⟨?_, fun q hq ↦ ?_, fun q hq now hstatus stored hstored ↦ ?_⟩
  · rcases hkept.load with ⟨-, hload⟩ | ⟨row, q, -, -, -, hload⟩
    · exact ⟨_, hload⟩
    · exact ⟨_, hload⟩
  · have hsame := hkept.copies q hq
    obtain ⟨row, hstored, hsolo⟩ := hkept.solo_save hsame (hsame.fits hfits) (hpos' hsame)
    exact ⟨_, hsolo, hload hsame hstored⟩
  · have hsame := hkept.copies q hq
    rcases hkept.load with ⟨hnone, hfound⟩ | ⟨row, q', hrow, hq', hstored', hfound⟩
    · cases hstored.symm.trans hfound
      refine solo_saveAccepted_of_not hstatus fun row hrow ↦ ?_
      rw [hsame.id, hnone] at hrow
      cases hrow
    · cases hstored.symm.trans hfound
      have hrow : db.quotes.lookup q.id.value = some row := hsame.id ▸ hrow
      have hactive : (q'.status = .ACTIVE ∧ q'.isExpired now = false) ↔
          row.status = .ACTIVE ∧ now.getTime ≤ row.expiresAt.getTime := by
        rw [hstored'.status_eq, hstored'.expiresAt_eq]
        refine and_congr_right fun hs ↦ ?_
        simp [Quote.isExpired, hs]
      simp only [Option.any_some, decide_eq_true_eq, hactive]
      split_ifs with h
      · have hnew := hq'.stored hsame hstored'
        exact ⟨_, solo_saveAccepted hstatus hrow hnew (hpos' hsame) h, hload hsame hnew⟩
      · refine solo_saveAccepted_of_not hstatus fun row' hrow' ↦ ?_
        cases hrow.symm.trans hrow'
        exact h

end Quotes

/-! ### Conversions -/

section Conversions

/-- What the methods assign together, from `create` on. It is the lifecycle of the table, except
that the funds may be reserved before an event is bound. -/
def Progress (c : Conversion) : Prop :=
  match c.status with
  | .CREATED => c.exchangeExecutionId = none ∧ c.completedAt = none ∧ c.failureReason = none
  | .FUNDS_RESERVED => c.completedAt = none ∧ c.failureReason = none
  | .EXECUTION_REQUESTED =>
    c.exchangeExecutionId ≠ none ∧ c.completedAt = none ∧ c.failureReason = none
  | .COMPLETED => c.exchangeExecutionId ≠ none ∧ c.completedAt ≠ none ∧ c.failureReason = none
  | .FAILED => c.exchangeExecutionId ≠ none ∧ c.completedAt ≠ none ∧ c.failureReason ≠ none
  | .REQUIRES_RECONCILIATION =>
    c.exchangeExecutionId ≠ none ∧ c.completedAt = none ∧ c.failureReason ≠ none

/-- The funds are reserved and no event is bound yet. -/
def Unbound (c : Conversion) : Prop := c.status = .FUNDS_RESERVED ∧ c.exchangeExecutionId = none

/-- There is no row of the conversion, and one of another conversion of its quote. -/
def QuoteUsed (c : Conversion) (db : Db) : Prop :=
  db.conversions.lookup c.id.value = none ∧
    ∃ id ∈ db.conversions.keys, (db.conversions.lookup id).map (·.quoteId) = some c.quoteId.value

instance (c : Conversion) : Decidable (Unbound c) := inferInstanceAs (Decidable (_ ∧ _))

instance (c : Conversion) (db : Db) : Decidable (QuoteUsed c db) :=
  inferInstanceAs (Decidable (_ ∧ _))

/-- Two copies of a conversion: they differ in what the methods assign, and no method assigns a
blank execution id. -/
structure SameConversion (c c' : Conversion) : Prop where
  id : c'.id = c.id
  quoteId : c'.quoteId = c.quoteId
  userId : c'.userId = c.userId
  sourceAmount : c'.sourceAmount = c.sourceAmount
  targetAmount : c'.targetAmount = c.targetAmount
  createdAt : c'.createdAt = c.createdAt
  event : ∀ e, c'.exchangeExecutionId = some e → trim e ≠ ""
  progress : Progress c'

/-- A conversion of registered assets whose texts and amounts fit their columns. -/
structure FitsConversion (env : Platform) (c : Conversion) : Prop where
  storable : c.Storable
  sourceAsset : c.sourceAmount.asset ∈ env.registry.assets
  targetAsset : c.targetAmount.asset ∈ env.registry.assets
  sourceAmount : c.sourceAmount.amount < 10 ^ 20
  targetAmount : c.targetAmount.amount < 10 ^ 20

/-- What may happen to a conversion that was just created. -/
inductive ConversionSession (env : Platform) (conversion : Conversion) :
    List Conversion → Db → Prop where
  | created (db : Db) (fresh : db.conversions.lookup conversion.id.value = none) :
      ConversionSession env conversion [conversion] db
  | run {copies : List Conversion} {db : Db} {c : Conversion} (call : Conversion.Call)
      (h : ConversionSession env conversion copies db) (hc : c ∈ copies) :
      ConversionSession env conversion ((call.run c).2 :: copies) db
  | save {copies : List Conversion} {db : Db} {c : Conversion}
      (h : ConversionSession env conversion copies db) (hc : c ∈ copies) :
      ConversionSession env conversion copies
        ((PrismaConversionRepository.save c).solo postgres none db).2
  | markExecutionRequestedIfFundsReserved {copies : List Conversion} {db db' : Db}
      {ending : Ending DbError Thrown (Option Conversion)} (eventId : String)
      (h : ConversionSession env conversion copies db) (hevent : storable eventId = true)
      (hcall : (PrismaConversionRepository.markExecutionRequestedIfFundsReserved env conversion.id
        eventId).solo postgres none db = (ending, db')) :
      ConversionSession env conversion (found ending ++ copies) db'
  | findById {copies : List Conversion} {db db' : Db}
      {ending : Ending DbError Thrown (Option Conversion)}
      (h : ConversionSession env conversion copies db)
      (hcall : (PrismaConversionRepository.findById env conversion.id).solo postgres none db =
        (ending, db')) :
      ConversionSession env conversion (found ending ++ copies) db'
  | elsewhere {copies : List Conversion} {db db' : Db}
      (h : ConversionSession env conversion copies db)
      (hdb : db'.conversions.lookup conversion.id.value =
        db.conversions.lookup conversion.id.value) :
      ConversionSession env conversion copies db'
  | rollback {copies copies' : List Conversion} {db db' : Db}
      (h : ConversionSession env conversion copies db)
      (h' : ConversionSession env conversion copies' db') :
      ConversionSession env conversion copies db'

/-- **What saving a copy does**, whatever the copy and the tables. -/
structure Saves (env : Platform) (c : Conversion) (db : Db) : Prop where
  /-- A text with a `NUL` is refused. -/
  nul : ¬ c.Storable → (PrismaConversionRepository.save c).solo postgres none db =
    (.refused .invalidText, db)
  /-- So is a copy without its event. -/
  unbound : c.Storable → Unbound c → (PrismaConversionRepository.save c).solo postgres none db =
    (.refused (.constraint .conversions_lifecycle_check), db)
  /-- So is a second conversion of a quote. -/
  taken : c.Storable → ¬ Unbound c → QuoteUsed c db →
    (PrismaConversionRepository.save c).solo postgres none db =
      (.refused (.constraint .conversions_quote_id_key), db)
  /-- Any other copy is saved, and is then loaded as it is. -/
  saved : c.Storable → ¬ Unbound c → ¬ QuoteUsed c db → ∃ db',
    (PrismaConversionRepository.save c).solo postgres none db = (.returned (), db') ∧
    (PrismaConversionRepository.findById env c.id).solo postgres none db' =
      (.returned (some c), db')

/-- **What the repository of conversions promises** for the copies of a conversion. -/
structure ConversionsDecode (env : Platform) (conversion : Conversion) (copies : List Conversion)
    (db : Db) : Prop where
  loads : ∃ stored, (PrismaConversionRepository.findById env conversion.id).solo postgres none db =
    (.returned stored, db)
  saves : ∀ c ∈ copies, c.id = conversion.id ∧ Saves env c db
  /-- If the funds are reserved and the event is the bound one, the stored conversion is returned,
  and then loaded, as `markExecutionRequested` leaves it; otherwise as it is. -/
  requests : ∀ eventId stored, storable eventId = true →
    (PrismaConversionRepository.findById env conversion.id).solo postgres none db =
      (.returned stored, db) →
    if stored.any (fun c ↦ c.status = .FUNDS_RESERVED ∧ c.exchangeExecutionId = some eventId) then
      ∃ c c' db', stored = some c ∧ (Conversion.markExecutionRequested eventId).call c = .ok c' ∧
        (PrismaConversionRepository.markExecutionRequestedIfFundsReserved env conversion.id
          eventId).solo postgres none db = (.returned (some c'), db') ∧
        (PrismaConversionRepository.findById env conversion.id).solo postgres none db' =
          (.returned (some c'), db')
    else (PrismaConversionRepository.markExecutionRequestedIfFundsReserved env conversion.id
      eventId).solo postgres none db = (.returned stored, db)

variable {conversion c c' : Conversion} {copies : List Conversion} {row : ConversionRow}
  {eventId : String}

/-- No method assigns a blank execution id. -/
theorem event_of_run (call : Conversion.Call)
    (h : ∀ e, c.exchangeExecutionId = some e → trim e ≠ "") :
    ∀ e, (call.run c).2.exchangeExecutionId = some e → trim e ≠ "" := by
  cases call with
  | markFundsReserved =>
    simp only [Conversion.Call.run, Conversion.markFundsReserved, Mutation.throwIf_bind,
      Mutation.assign_apply]
    split_ifs <;> exact h
  | bindExecutionEvent e =>
    simp only [Conversion.Call.run, Conversion.bindExecutionEvent, Mutation.throwIf_bind,
      Mutation.assign_apply]
    split_ifs with hstatus hblank hother
    · exact h
    · exact h
    · exact h
    · rintro e' ⟨⟩
      exact hblank
  | markExecutionRequested e =>
    simp only [Conversion.Call.run, Conversion.markExecutionRequested, Mutation.throwIf_bind,
      Mutation.assign_bind, Mutation.assign_apply]
    split_ifs with hstatus hblank hother
    · exact h
    · exact h
    · exact h
    · rintro e' ⟨⟩
      exact hblank
  | applyExecutionResult r =>
    rcases (Conversion.Call.applyExecutionResult r).run_cases c with ⟨e, hrun⟩ |
      ⟨c', hrun, hassigns⟩
    · rw [hrun]
      exact h
    · rw [hrun]
      rcases hassigns with rfl | ⟨-, rfl⟩
      · exact h
      · obtain ⟨outcome, at', reason⟩ := r
        cases outcome <;> exact h

/-- No method leaves the lifecycle. -/
theorem progress_of_run (call : Conversion.Call) (h : Progress c) : Progress (call.run c).2 := by
  rcases call.run_cases c with ⟨e, hrun⟩ | ⟨c', hrun, hassigns⟩ <;> rw [hrun]
  · exact h
  cases call with
  | markFundsReserved =>
    obtain ⟨hstatus, rfl⟩ := hassigns
    simp only [Progress, hstatus] at h
    exact h.2
  | bindExecutionEvent e =>
    obtain ⟨hstatus, -, rfl⟩ := hassigns
    simp only [Progress, hstatus] at h ⊢
    exact h
  | markExecutionRequested e =>
    obtain ⟨hstatus, -, rfl⟩ := hassigns
    simp only [Progress, hstatus] at h
    exact ⟨Option.some_ne_none e, h⟩
  | applyExecutionResult r =>
    rcases hassigns with rfl | ⟨hstatus, rfl⟩
    · exact h
    · -- before a result arrives, an event is bound and the conversion is not completed
      have hopen : c.exchangeExecutionId ≠ none ∧ c.completedAt = none := by
        rcases hstatus with hstatus | hstatus <;> simp only [Progress, hstatus] at h <;>
          exact ⟨h.1, h.2.1⟩
      obtain ⟨outcome, at', reason⟩ := r
      cases outcome with
      | SUCCESS => exact ⟨hopen.1, Option.some_ne_none _, rfl⟩
      | FAILURE => exact ⟨hopen.1, Option.some_ne_none _, Option.some_ne_none _⟩
      | UNKNOWN => exact ⟨hopen.1, hopen.2, Option.some_ne_none _⟩

/-- The table admits a copy unless its event is missing. -/
theorem lifecycle_iff {id : String} (h : c.StoredAs env id row) (hprogress : Progress c) :
    row.lifecycle ↔ ¬ Unbound c := by
  rw [ConversionRow.lifecycle, h.status_eq, h.execution_eq, h.reason_eq, h.completedAt_eq]
  unfold Progress at hprogress
  cases hstatus : c.status <;> simp only [hstatus] at hprogress <;>
    simp [Unbound, hstatus, hprogress]

/-- A call keeps what the conversion was created with. -/
theorem SameConversion.run (h : SameConversion conversion c) (call : Conversion.Call) :
    SameConversion conversion (call.run c).2 := by
  have hkept := call.kept c
  exact ⟨hkept.id.trans h.id, hkept.quoteId.trans h.quoteId, hkept.userId.trans h.userId,
    hkept.sourceAmount.trans h.sourceAmount, hkept.targetAmount.trans h.targetAmount,
    hkept.createdAt.trans h.createdAt, event_of_run call h.event, progress_of_run call h.progress⟩

/-- The stored copy with the state of another copy. -/
theorem SameConversion.stored (h : SameConversion conversion c) (h' : SameConversion conversion c')
    (hstorable : c'.Storable) (hc : c.StoredAs env c.id.value row) : c'.StoredAs env c'.id.value
      { row with
        status := c'.status
        exchangeExecutionId := c'.exchangeExecutionId
        failureReason := c'.failureReason
        completedAt := c'.completedAt } where
  storable := hstorable
  id_eq := rfl
  quote_eq := by rw [hc.quote_eq, h.quoteId, h'.quoteId]
  user_eq := by rw [hc.user_eq, h.userId, h'.userId]
  source := by
    rw [h'.sourceAmount, ← h.sourceAmount]
    exact hc.source
  target := by
    rw [h'.targetAmount, ← h.targetAmount]
    exact hc.target
  status_eq := rfl
  execution_eq := rfl
  reason_eq := rfl
  createdAt_eq := by rw [hc.createdAt_eq, h.createdAt, h'.createdAt]
  completedAt_eq := rfl

/-- Looking for a conversion. -/
theorem solo_findConversion (hrow : db.conversions.lookup c.id.value = some row)
    (hc : c.StoredAs env c.id.value row) :
    (PrismaConversionRepository.findById env c.id).solo postgres none db =
      (.returned (some c), db) := by
  have hexec : exec (.findConversion c.id.value) (fun _ ↦ false) db = .ok (some row, []) := by
    rw [exec, hrow]
  refine (Prog.solo_call_none hexec).trans ?_
  simp only [Store.applyAll_nil, Prog.bind_eq_handle, hc.toDomain, attempt_ok, Prog.handle_ret]
  rfl

/-- A conversion that was not saved is not found. -/
theorem solo_findConversion_of_none {id : ConversionId}
    (hrow : db.conversions.lookup id.value = none) :
    (PrismaConversionRepository.findById env id).solo postgres none db = (.returned none, db) := by
  have hexec : exec (.findConversion id.value) (fun _ ↦ false) db = .ok (none, []) := by
    rw [exec, hrow]
  exact (Prog.solo_call_none hexec).trans rfl

/-- What holds of the copies and of the row. -/
structure ConversionsKept (env : Platform) (conversion : Conversion) (copies : List Conversion)
    (db : Db) : Prop where
  copies : ∀ c ∈ copies, SameConversion conversion c
  row : ∀ row, db.conversions.lookup conversion.id.value = some row → row.violated = none ∧
    ∃ c, SameConversion conversion c ∧ c.StoredAs env c.id.value row

/-- The tables with a row of the conversion. -/
def putConversion (db : Db) (id : String) (row : ConversionRow) : Db :=
  { db with conversions := db.conversions.insert id row }

/-- What the checks of the table say of a copy. -/
theorem violated_of_progress (hc : SameConversion conversion c)
    (hstored : c.StoredAs env c.id.value row)
    (hsource : conversion.sourceAmount.amount ≠ 0) (htarget : conversion.targetAmount.amount ≠ 0) :
    row.violated = if Unbound c then some .conversions_lifecycle_check else none := by
  have hdistinct : row.sourceAsset ≠ row.targetAsset := by
    rw [hstored.source.code_eq, hstored.target.code_eq]
    exact c.distinct
  have hlifecycle := lifecycle_iff hstored hc.progress
  split_ifs with hunbound
  · rw [ConversionRow.violated, if_neg (not_not.2 hdistinct),
      if_pos fun h ↦ hlifecycle.1 h hunbound]
  · refine ConversionRow.violated_eq_none.2 ⟨⟨?_, ?_⟩, hdistinct, hlifecycle.2 hunbound⟩
    · rw [hstored.source.amount_eq]
      exact lt_of_le_of_ne c.sourceAmount.nonneg (Ne.symm (hc.sourceAmount ▸ hsource))
    · rw [hstored.target.amount_eq]
      exact lt_of_le_of_ne c.targetAmount.nonneg (Ne.symm (hc.targetAmount ▸ htarget))

/-- **The statement of a save**, on both paths: the row that it writes is one of the copy. -/
theorem ConversionsKept.exec_save (h : ConversionsKept env conversion copies db)
    (hc : SameConversion conversion c) (hfits : FitsConversion env conversion)
    (hstorable : c.Storable) :
    ∃ row w, c.StoredAs env c.id.value row ∧
      postgres.applyAll db [w] = putConversion db c.id.value row ∧
      exec (.upsertConversion (PrismaConversionRepository.data c)) (fun _ ↦ false) db =
        (checked row.violated >>= fun _ ↦
          if QuoteUsed c db then .error (.constraint .conversions_quote_id_key)
          else .ok ((), [w])) := by
  cases hrow : db.conversions.lookup c.id.value with
  | none =>
    have hsourceAsset : c.sourceAmount.asset ∈ env.registry.assets :=
      hc.sourceAmount ▸ hfits.sourceAsset
    have htargetAsset : c.targetAmount.asset ∈ env.registry.assets :=
      hc.targetAmount ▸ hfits.targetAsset
    -- the row of an insert holds the whole conversion
    let row : ConversionRow := ⟨c.quoteId.value, c.userId.value, c.sourceAmount.asset.code,
      c.targetAmount.asset.code,
      c.sourceAmount.toColumn (env.registry.scale_le _ hsourceAsset)
        (hc.sourceAmount ▸ hfits.sourceAmount),
      c.targetAmount.toColumn (env.registry.scale_le _ htargetAsset)
        (hc.targetAmount ▸ hfits.targetAmount),
      c.status, c.exchangeExecutionId, c.failureReason, c.createdAt, c.completedAt⟩
    have hstored : c.StoredAs env c.id.value row :=
      { storable := hstorable
        id_eq := rfl
        quote_eq := rfl
        user_eq := rfl
        source := ⟨hsourceAsset, rfl, rfl⟩
        target := ⟨htargetAsset, rfl, rfl⟩
        status_eq := rfl
        execution_eq := rfl
        reason_eq := rfl
        createdAt_eq := rfl
        completedAt_eq := rfl }
    refine ⟨row, .insertConversion c.id.value row, hstored, ?_, ?_⟩
    · simp only [Store.applyAll_cons, Store.applyAll_nil, postgres, Db.write, hrow, if_true]
      rfl
    · simp only [exec, Conversion.storing_eq_ok.2 hstorable, bind, Except.bind]
      simp only [PrismaConversionRepository.data, hrow, hstored.source.column,
        hstored.target.column,
        QuoteUsed, true_and]
      rfl
  | some row =>
    obtain ⟨-, c', hc', hstored'⟩ := h.row row (hc.id ▸ hrow)
    have hnot : ¬ QuoteUsed c db := by
      rintro ⟨hnone, -⟩
      rw [hrow] at hnone
      cases hnone
    -- an update writes what a method may change
    let row' : ConversionRow := { row with
      status := c.status
      exchangeExecutionId := c.exchangeExecutionId
      failureReason := c.failureReason
      completedAt := c.completedAt }
    refine ⟨row', .updateConversion c.id.value row', hc'.stored hc hstorable hstored', ?_, ?_⟩
    · simp only [Store.applyAll_cons, Store.applyAll_nil, postgres, Db.write, hrow]
      rfl
    · simp only [exec, Conversion.storing_eq_ok.2 hstorable, bind, Except.bind, if_neg hnot]
      simp only [PrismaConversionRepository.data, hrow]
      rfl

/-- A copy with a `NUL` is refused. -/
theorem solo_save_of_nul (hnul : ¬ c.Storable) :
    (PrismaConversionRepository.save c).solo postgres none db = (.refused .invalidText, db) := by
  have hexec : exec (.upsertConversion (PrismaConversionRepository.data c)) (fun _ ↦ false) db =
      .error .invalidText := by
    simp only [exec, storing_of_ne (mt Conversion.storing_eq_ok.1 hnul), bind, Except.bind]
  exact Prog.solo_call_error hexec

/-- **Saving a copy.** -/
theorem ConversionsKept.solo_save (h : ConversionsKept env conversion copies db)
    (hc : SameConversion conversion c) (hfits : FitsConversion env conversion)
    (hsource : conversion.sourceAmount.amount ≠ 0) (htarget : conversion.targetAmount.amount ≠ 0)
    (hstorable : c.Storable) :
    (Unbound c ∧ (PrismaConversionRepository.save c).solo postgres none db =
      (.refused (.constraint .conversions_lifecycle_check), db)) ∨
    (¬ Unbound c ∧ QuoteUsed c db ∧ (PrismaConversionRepository.save c).solo postgres none db =
      (.refused (.constraint .conversions_quote_id_key), db)) ∨
    (¬ Unbound c ∧ ¬ QuoteUsed c db ∧ ∃ row, row.violated = none ∧ c.StoredAs env c.id.value row ∧
      (PrismaConversionRepository.save c).solo postgres none db =
        (.returned (), putConversion db c.id.value row)) := by
  obtain ⟨row, w, hstored, hput, hexec⟩ := h.exec_save hc hfits hstorable
  have hviolated := violated_of_progress hc hstored hsource htarget
  rw [hviolated] at hexec
  by_cases hunbound : Unbound c
  · rw [if_pos hunbound] at hexec
    exact .inl ⟨hunbound, Prog.solo_call_error hexec⟩
  rw [if_neg hunbound] at hexec hviolated
  by_cases hused : QuoteUsed c db
  · simp only [checked_none, bind, Except.bind, if_pos hused] at hexec
    exact .inr (.inl ⟨hunbound, hused, Prog.solo_call_error hexec⟩)
  · simp only [checked_none, bind, Except.bind, if_neg hused] at hexec
    refine .inr (.inr ⟨hunbound, hused, row, hviolated, hstored, ?_⟩)
    exact (Prog.solo_call_none hexec).trans (congrArg _ hput)

/-- The conversion after its execution was requested. -/
def requested (c : Conversion) : Conversion := { c with status := .EXECUTION_REQUESTED }

/-- A conversion is requested with the event it is bound to. -/
theorem call_markExecutionRequested (hstatus : c.status = .FUNDS_RESERVED)
    (hevent : c.exchangeExecutionId = some eventId) (hblank : trim eventId ≠ "") :
    (Conversion.markExecutionRequested eventId).call c = .ok (requested c) := by
  simp only [Mutation.call, Conversion.markExecutionRequested, Mutation.throwIf_bind,
    Mutation.assign_bind, Mutation.assign_apply, hstatus, hevent, hblank, ne_eq, not_true_eq_false,
    if_false, and_false]
  exact congrArg Except.ok (Conversion.ext rfl rfl rfl rfl rfl rfl hevent.symm rfl rfl rfl)

/-- The request keeps what the conversion was created with. -/
theorem SameConversion.requested (h : SameConversion conversion c)
    (hstatus : c.status = .FUNDS_RESERVED) (hevent : c.exchangeExecutionId = some eventId) :
    SameConversion conversion (requested c) := by
  have hprogress := h.progress
  simp only [Progress, hstatus] at hprogress
  exact ⟨h.id, h.quoteId, h.userId, h.sourceAmount, h.targetAmount, h.createdAt, h.event,
    hevent ▸ Option.some_ne_none eventId, hprogress⟩

/-- The row of a requested conversion differs in its status only. -/
theorem storedAs_requested (h : c.StoredAs env c.id.value row) :
    (requested c).StoredAs env c.id.value { row with status := .EXECUTION_REQUESTED } :=
  { h with storable := { h.storable with }, status_eq := rfl }

/-- And it passes the checks of its table. -/
theorem violated_requested (h : row.violated = none) (hstatus : row.status = .FUNDS_RESERVED) :
    ({ row with status := .EXECUTION_REQUESTED } : ConversionRow).violated = none := by
  obtain ⟨hpositive, hdistinct, hlifecycle⟩ := ConversionRow.violated_eq_none.1 h
  refine ConversionRow.violated_eq_none.2 ⟨hpositive, hdistinct, ?_⟩
  simp only [ConversionRow.lifecycle, hstatus] at hlifecycle ⊢
  simpa using hlifecycle

/-- **Requesting the execution** of a conversion whose funds are reserved. -/
theorem solo_request (hrow : db.conversions.lookup c.id.value = some row)
    (hc : c.StoredAs env c.id.value row) (hchecks : row.violated = none)
    (hstatus : c.status = .FUNDS_RESERVED) (hevent : c.exchangeExecutionId = some eventId) :
    (PrismaConversionRepository.markExecutionRequestedIfFundsReserved env c.id
      eventId).solo postgres
      none db = (.returned (some (requested c)),
        putConversion db c.id.value { row with status := .EXECUTION_REQUESTED }) := by
  have hguard : row.status = .FUNDS_RESERVED ∧ row.exchangeExecutionId = some eventId :=
    ⟨hc.status_eq.trans hstatus, hc.execution_eq.trans hevent⟩
  have hexec : exec (.requestExecution c.id.value eventId) (fun _ ↦ false) db =
      .ok (some { row with status := .EXECUTION_REQUESTED },
        [.updateConversion c.id.value { row with status := .EXECUTION_REQUESTED }]) := by
    simp only [exec, hrow, if_pos hguard, violated_requested hchecks hguard.1, checked_none, bind,
      Except.bind]
  refine (Prog.solo_call_none hexec).trans ?_
  have hdb : postgres.applyAll db
      [.updateConversion c.id.value { row with status := .EXECUTION_REQUESTED }] =
      putConversion db c.id.value { row with status := .EXECUTION_REQUESTED } := by
    simp only [Store.applyAll_cons, Store.applyAll_nil, postgres, Db.write, hrow]
    rfl
  rw [hdb]
  simp only [Prog.bind_eq_handle, Prog.handle_ret, (storedAs_requested hc).toDomain, attempt_ok]
  rfl

/-- Any other request only looks for the conversion. -/
theorem solo_request_of_not {id : ConversionId}
    (hrow : ∀ row, db.conversions.lookup id.value = some row →
      ¬ (row.status = .FUNDS_RESERVED ∧ row.exchangeExecutionId = some eventId)) :
    (PrismaConversionRepository.markExecutionRequestedIfFundsReserved env id eventId).solo postgres
      none db = (PrismaConversionRepository.findById env id).solo postgres none db := by
  have hexec : exec (.requestExecution id.value eventId) (fun _ ↦ false) db = .ok (none, []) := by
    cases hlookup : db.conversions.lookup id.value with
    | none => simp only [exec, hlookup]
    | some row => simp only [exec, hlookup, if_neg (hrow row hlookup)]
  exact (Prog.solo_call_none hexec).trans rfl

/-- The row after a copy was written. -/
theorem ConversionsKept.put (h : ConversionsKept env conversion copies db)
    (hc : SameConversion conversion c) (hrow : c.StoredAs env c.id.value row)
    (hchecks : row.violated = none) :
    ConversionsKept env conversion copies (putConversion db c.id.value row) where
  copies := h.copies
  row row' hrow' := by
    rw [putConversion, ← hc.id, Finmap.lookup_insert, Option.some.injEq] at hrow'
    subst hrow'
    exact ⟨hchecks, c, hc, hrow⟩

theorem ConversionsKept.push (h : ConversionsKept env conversion copies db) {more : List Conversion}
    (hmore : ∀ c ∈ more, SameConversion conversion c) :
    ConversionsKept env conversion (more ++ copies) db where
  copies c hc := (List.mem_append.1 hc).elim (hmore c) (h.copies c)
  row := h.row

/-- What the stored copy is. -/
theorem ConversionsKept.load (h : ConversionsKept env conversion copies db) :
    (db.conversions.lookup conversion.id.value = none ∧
      (PrismaConversionRepository.findById env conversion.id).solo postgres none db =
        (.returned none, db)) ∨
    ∃ row c, db.conversions.lookup c.id.value = some row ∧ row.violated = none ∧
      SameConversion conversion c ∧ c.StoredAs env c.id.value row ∧
      (PrismaConversionRepository.findById env conversion.id).solo postgres none db =
        (.returned (some c), db) := by
  cases hrow : db.conversions.lookup conversion.id.value with
  | none => exact .inl ⟨rfl, solo_findConversion_of_none hrow⟩
  | some row =>
    obtain ⟨hchecks, c, hc, hstored⟩ := h.row row hrow
    rw [← hc.id] at hrow ⊢
    exact .inr ⟨row, c, hrow, hchecks, hc, hstored, solo_findConversion hrow hstored⟩

/-- What a request does, when `c` is the stored copy. -/
theorem ConversionsKept.request (h : ConversionsKept env conversion copies db) (eventId : String) :
    (∃ row c, row.violated = none ∧ SameConversion conversion c ∧ c.StoredAs env c.id.value row ∧
      c.status = .FUNDS_RESERVED ∧ c.exchangeExecutionId = some eventId ∧
      (PrismaConversionRepository.findById env conversion.id).solo postgres none db =
        (.returned (some c), db) ∧
      (PrismaConversionRepository.markExecutionRequestedIfFundsReserved env conversion.id
        eventId).solo postgres none db = (.returned (some (requested c)),
          putConversion db c.id.value { row with status := .EXECUTION_REQUESTED })) ∨
    ∃ stored, (∀ c ∈ stored, SameConversion conversion c ∧
        ¬ (c.status = .FUNDS_RESERVED ∧ c.exchangeExecutionId = some eventId)) ∧
      (PrismaConversionRepository.findById env conversion.id).solo postgres none db =
        (.returned stored, db) ∧
      (PrismaConversionRepository.markExecutionRequestedIfFundsReserved env conversion.id
        eventId).solo postgres none db = (.returned stored, db) := by
  rcases h.load with ⟨hnone, hload⟩ | ⟨row, c, hrow, hchecks, hc, hstored, hload⟩
  · refine .inr ⟨none, by simp, hload, (solo_request_of_not fun row hrow ↦ ?_).trans hload⟩
    rw [hnone] at hrow
    cases hrow
  · by_cases hguard : c.status = .FUNDS_RESERVED ∧ c.exchangeExecutionId = some eventId
    · refine .inl ⟨row, c, hchecks, hc, hstored, hguard.1, hguard.2, hload, ?_⟩
      rw [← hc.id]
      exact solo_request hrow hstored hchecks hguard.1 hguard.2
    · refine .inr ⟨some c, ?_, hload, (solo_request_of_not fun row' hrow' ↦ ?_).trans hload⟩
      · rintro c' ⟨⟩
        exact ⟨hc, hguard⟩
      · rw [← hc.id] at hrow'
        cases hrow.symm.trans hrow'
        rwa [hstored.status_eq, hstored.execution_eq]

/-- **Every step of a session keeps the copies alike**, and the row one of them. -/
theorem conversionsKept (hfits : FitsConversion env conversion)
    (hnew : SameConversion conversion conversion)
    (hsource : conversion.sourceAmount.amount ≠ 0) (htarget : conversion.targetAmount.amount ≠ 0)
    (h : ConversionSession env conversion copies db) :
    ConversionsKept env conversion copies db := by
  induction h with
  | created db fresh =>
    refine ⟨fun c hc ↦ ?_, fun row hrow ↦ ?_⟩
    · obtain rfl := List.mem_singleton.1 hc
      exact hnew
    · rw [fresh] at hrow
      cases hrow
  | run call h hc ih =>
    refine ⟨fun c' hc' ↦ ?_, ih.row⟩
    rcases List.mem_cons.1 hc' with rfl | hold
    · exact (ih.copies _ hc).run call
    · exact ih.copies c' hold
  | @save copies db c h hc ih =>
    have hsame := ih.copies _ hc
    by_cases hstorable : c.Storable
    · rcases ih.solo_save hsame hfits hsource htarget hstorable with
        ⟨-, hsolo⟩ | ⟨-, -, hsolo⟩ | ⟨-, -, row, hchecks, hstored, hsolo⟩ <;> rw [hsolo]
      · exact ih
      · exact ih
      · exact ih.put hsame hstored hchecks
    · rw [solo_save_of_nul hstorable]
      exact ih
  | markExecutionRequestedIfFundsReserved eventId h _ hcall ih =>
    rcases ih.request eventId with
      ⟨row, c, hchecks, hc, hstored, hstatus, hevent, -, hsolo⟩ | ⟨stored, hsame, -, hsolo⟩
    · cases hcall.symm.trans hsolo
      have hstatus' : row.status = .FUNDS_RESERVED := hstored.status_eq.trans hstatus
      refine (ih.put (c := requested c) (hc.requested hstatus hevent) (storedAs_requested hstored)
        (violated_requested hchecks hstatus')).push fun c' hc' ↦ ?_
      obtain rfl := List.mem_singleton.1 hc'
      exact hc.requested hstatus hevent
    · cases hcall.symm.trans hsolo
      refine ih.push fun c hc ↦ ?_
      cases stored with
      | none => cases hc
      | some c' =>
        obtain rfl := List.mem_singleton.1 hc
        exact (hsame c rfl).1
  | findById h hcall ih =>
    rcases ih.load with ⟨-, hload⟩ | ⟨row, c, -, -, hc, -, hload⟩
    · cases hcall.symm.trans hload
      exact ih
    · cases hcall.symm.trans hload
      refine ih.push fun c' hc' ↦ ?_
      obtain rfl := List.mem_singleton.1 hc'
      exact hc
  | elsewhere h hdb ih =>
    refine ⟨ih.copies, fun row hrow ↦ ih.row row ?_⟩
    rwa [hdb] at hrow
  | rollback h h' ih ih' => exact ⟨ih.copies, ih'.row⟩

/-- **Conversions decode.** -/
theorem conversionsDecode (hfits : FitsConversion env conversion)
    (hnew : SameConversion conversion conversion) (hsource : conversion.sourceAmount.amount ≠ 0)
    (htarget : conversion.targetAmount.amount ≠ 0)
    (h : ConversionSession env conversion copies db) :
    ConversionsDecode env conversion copies db := by
  have hkept := conversionsKept hfits hnew hsource htarget h
  have hload : ∀ {c row}, SameConversion conversion c → c.StoredAs env c.id.value row →
      (PrismaConversionRepository.findById env conversion.id).solo postgres none
        (putConversion db c.id.value row) = (.returned (some c), putConversion db c.id.value row) :=
    fun hc hstored ↦ by
      rw [← hc.id]
      exact solo_findConversion (Finmap.lookup_insert _) hstored
  refine ⟨?_, fun c hc ↦ ?_, fun eventId stored _ hstored ↦ ?_⟩
  · rcases hkept.load with ⟨-, hload⟩ | ⟨row, c, -, -, -, -, hload⟩
    · exact ⟨_, hload⟩
    · exact ⟨_, hload⟩
  · have hsame := hkept.copies c hc
    have hsave := hkept.solo_save hsame hfits hsource htarget
    refine ⟨hsame.id, solo_save_of_nul, fun hstorable hunbound ↦ ?_,
      fun hstorable hbound hused ↦ ?_, fun hstorable hbound hfree ↦ ?_⟩
    · rcases hsave hstorable with ⟨-, hsolo⟩ | ⟨hbound, -⟩ | ⟨hbound, -⟩
      · exact hsolo
      · exact absurd hunbound hbound
      · exact absurd hunbound hbound
    · rcases hsave hstorable with ⟨hunbound, -⟩ | ⟨-, -, hsolo⟩ | ⟨-, hfree, -⟩
      · exact absurd hunbound hbound
      · exact hsolo
      · exact absurd hused hfree
    · rcases hsave hstorable with ⟨hunbound, -⟩ | ⟨-, hused, -⟩ | ⟨-, -, row, -, hstored, hsolo⟩
      · exact absurd hunbound hbound
      · exact absurd hused hfree
      · exact ⟨_, hsolo, hsame.id ▸ hload hsame hstored⟩
  · rcases hkept.request eventId with
      ⟨row, c, hchecks, hc, hrow, hstatus, hevent, hfound, hsolo⟩ | ⟨stored', hnot, hfound, hsolo⟩
    · cases hstored.symm.trans hfound
      rw [if_pos (by simp [hstatus, hevent])]
      exact ⟨c, _, _, rfl, call_markExecutionRequested hstatus hevent
        (hc.event eventId hevent), hsolo,
        hload (c := requested c) (hc.requested hstatus hevent) (storedAs_requested hrow)⟩
    · cases hstored.symm.trans hfound
      have hany : ¬ stored.any (fun c ↦ c.status = .FUNDS_RESERVED ∧
          c.exchangeExecutionId = some eventId) = true := fun h ↦ by
        obtain ⟨c, rfl, hguard⟩ := (Option.any_eq_true _ _).1 h
        exact (hnot c rfl).2 (of_decide_eq_true hguard)
      rw [if_neg hany]
      exact hsolo

end Conversions

/-! ### Wallets -/

section Wallets

variable {wallet : WalletAccount}

/-- A wallet of registered assets whose texts and amounts fit their columns. -/
structure FitsWallet (env : Platform) (w : WalletAccount) : Prop where
  storable : storable w.id = true ∧ storable w.userId.value = true ∧ storable w.asset.code = true
  asset : w.asset ∈ env.registry.assets
  balanceAsset : w.balance.asset ∈ env.registry.assets
  availableAsset : w.available.asset ∈ env.registry.assets
  reservedAsset : w.reserved.asset ∈ env.registry.assets
  balance : w.balance.amount < 10 ^ 20
  available : w.available.amount < 10 ^ 20
  reserved : w.reserved.amount < 10 ^ 20

/-- **What the repository of wallets promises**: a wallet that is created is then found as it is. It
is refused if there is one of its id, or of its user and asset. -/
def WalletDecodes (env : Platform) (wallet : WalletAccount) (db : Db) : Prop :=
  (∃ db', (PrismaWalletRepository.create wallet).solo postgres none db = (.returned (), db') ∧
    (PrismaWalletRepository.findByUserAndAsset env wallet.userId wallet.asset).solo
      postgres none db' =
      (.returned (some wallet), db')) ∨
  ((∃ key row, db.wallets.lookup key = some row ∧
      (row.id = wallet.id ∨ key = (wallet.userId.value, wallet.asset.code))) ∧
    ∃ name, (PrismaWalletRepository.create wallet).solo postgres none db =
      (.refused (.constraint name), db))

/-- What the invariant says of a wallet that fits. -/
theorem FitsWallet.parts (h : FitsWallet env wallet)
    (hinvariant : wallet.assertInvariant = .ok ()) :
    wallet.balance.asset = wallet.asset ∧ wallet.available.asset = wallet.asset ∧
      wallet.reserved.asset = wallet.asset ∧
      wallet.available.amount + wallet.reserved.amount = wallet.balance.amount := by
  unfold WalletAccount.assertInvariant at hinvariant
  split_ifs at hinvariant with hcodes
  obtain ⟨hb, ha, hr⟩ := hcodes
  have hbalance := env.registry.unique _ h.balanceAsset _ h.asset hb
  have havailable := env.registry.unique _ h.availableAsset _ h.asset ha
  have hreserved := env.registry.unique _ h.reservedAsset _ h.asset hr
  refine ⟨hbalance, havailable, hreserved, ?_⟩
  have hscale := env.registry.scale_le _ h.availableAsset
  have hlt : wallet.available.amount + wallet.reserved.amount < 10 ^ 21 := by
    have := h.available
    have := h.reserved
    norm_num at *
    linarith
  have hdigits : 21 + wallet.available.asset.scale ≤ Decimal.precision := by
    show 21 + _ ≤ 40
    omega
  rw [Money.add_exact (havailable.trans hreserved.symm) hlt hdigits] at hinvariant
  simp only [bind, Except.bind] at hinvariant
  split_ifs at hinvariant with hequals
  exact congrArg Money.amount (Money.equals_iff.1 hequals)

/-- **A wallet that is created is found as it is.** -/
theorem walletDecodes (h : FitsWallet env wallet) (hinvariant : wallet.assertInvariant = .ok ())
    (db : Db) : WalletDecodes env wallet db := by
  obtain ⟨hbalance, havailable, hreserved, hsum⟩ := h.parts hinvariant
  let row : WalletRow := ⟨wallet.id,
    wallet.balance.toColumn (env.registry.scale_le _ h.balanceAsset) h.balance,
    wallet.available.toColumn (env.registry.scale_le _ h.availableAsset) h.available,
    wallet.reserved.toColumn (env.registry.scale_le _ h.reservedAsset) h.reserved⟩
  have hreadable : row.Readable wallet.asset :=
    { checks := WalletRow.violated_eq_none.2
        ⟨⟨wallet.balance.nonneg, wallet.available.nonneg, wallet.reserved.nonneg⟩, hsum⟩
      balance := hbalance ▸ wallet.balance.fixed
      available := havailable ▸ wallet.available.fixed
      reserved := hreserved ▸ wallet.reserved.fixed }
  have haccount : WalletRow.account wallet.userId hreadable = wallet :=
    WalletAccount.ext rfl rfl rfl (Money.ext hbalance.symm rfl) (Money.ext havailable.symm rfl)
      (Money.ext hreserved.symm rfl)
  have hexec : exec (.createWallet ⟨wallet.id, wallet.userId.value, wallet.asset.code,
      wallet.balance.toString, wallet.available.toString, wallet.reserved.toString⟩)
      (fun _ ↦ false) db =
      if ∃ key ∈ db.wallets.keys, (db.wallets.lookup key).map (·.id) = some wallet.id then
        .error (.constraint .wallet_accounts_pkey)
      else if (db.wallets.lookup (wallet.userId.value, wallet.asset.code)).isSome then
        .error (.constraint .wallet_accounts_user_id_asset_key)
      else .ok ((), [.putWallet wallet.userId.value wallet.asset.code row]) := by
    simp only [exec, column_toString (n := row.balance) rfl,
      column_toString (n := row.available) rfl,
      column_toString (n := row.reserved) rfl, bind, Except.bind, nonBlank_code h.asset,
      Bool.true_eq_false, if_false]
    rw [show WalletRow.violated ⟨wallet.id, row.balance, row.available, row.reserved⟩ = none from
      hreadable.checks, checked_none]
  split_ifs at hexec with hid htaken
  · obtain ⟨key, -, hkey⟩ := hid
    obtain ⟨row', hrow', hid'⟩ := Option.map_eq_some_iff.1 hkey
    exact .inr ⟨⟨key, row', hrow', .inl hid'⟩, _, Prog.solo_call_error hexec⟩
  · obtain ⟨row', hrow'⟩ := Option.isSome_iff_exists.1 htaken
    exact .inr ⟨⟨_, row', hrow', .inr rfl⟩, _, Prog.solo_call_error hexec⟩
  · refine .inl ⟨_, (Prog.solo_call_none hexec).trans rfl, ?_⟩
    have hfind : exec (.findWallet wallet.userId.value wallet.asset.code) (fun _ ↦ false)
        (postgres.applyAll db [.putWallet wallet.userId.value wallet.asset.code row]) =
        .ok (some row, []) := by
      rw [exec]
      exact congrArg (fun r ↦ Except.ok (r, [])) (Finmap.lookup_insert _)
    refine (Prog.solo_call_none hfind).trans ?_
    simp only [Prog.bind_eq_handle, Prog.handle_ret,
      WalletRow.toDomain_of_readable hreadable h.asset wallet.userId, attempt_ok, haccount]
    rfl

end Wallets

/-! ### All rows -/

/-- No row makes a repository throw. -/
structure RowsDecode (env : Platform) (db : Db) : Prop where
  quotes : ∀ id row, db.quotes.lookup id = some row →
    ∃ q, PrismaQuoteRepository.toDomain env id row = .ok q
  conversions : ∀ id row, db.conversions.lookup id = some row →
    ∃ c, PrismaConversionRepository.toDomain env id row = .ok c
  wallets : ∀ key row, db.wallets.lookup key = some row →
    ∃ w, PrismaWalletRepository.toDomain env key.1 key.2 row = .ok w

/-- Valid tables hold rows that can be read. -/
theorem Valid.rowsDecode {wallets : Table (String × String) WalletRow} (h : Valid env wallets db)
    (hwallets : ReadableWallets env wallets) : RowsDecode env db where
  quotes id row hrow :=
    have ⟨q, hstored⟩ := (h.quotes id row hrow).stored
    ⟨q, hstored.toDomain⟩
  conversions id row hrow :=
    have ⟨c, hstored⟩ := (h.conversions id row hrow).stored
    ⟨c, hstored.toDomain⟩
  wallets key row hrow := by
    obtain ⟨userId, asset, hasset, rfl, hreadable⟩ := h.readable hwallets key row hrow
    exact ⟨_, WalletRow.toDomain_of_readable hreadable hasset userId⟩

/-- **Rows decode to what was encoded.** Whatever is done to a quote or a conversion after it was
created, every copy that is saved, over an earlier row or without one, is loaded as it is, and the
database refuses no copy but for the reasons of `Saves`. What `saveAccepted` and
`markExecutionRequestedIfFundsReserved` return is then loaded as well, and so is a wallet that was
created. In every state of every run of the application, no row makes a repository throw. -/
theorem rows_decode (env : Platform) :
    (∀ (id : QuoteId) (userId : UserId) (sourceAmount : Money) (rate : ExchangeRate)
      (createdAt : Date) (ttlSeconds : Option ℤ) (quote : Quote),
      Quote.create id userId sourceAmount rate createdAt ttlSeconds = .ok quote →
      FitsQuote env quote → ∀ copies db, QuoteSession env quote copies db →
        QuotesDecode env quote copies db) ∧
    (∀ (id : ConversionId) (quoteId : QuoteId) (userId : UserId) (sourceAmount targetAmount : Money)
      (createdAt : Date) (conversion : Conversion),
      Conversion.create id quoteId userId sourceAmount targetAmount createdAt = .ok conversion →
      FitsConversion env conversion → ∀ copies db, ConversionSession env conversion copies db →
        ConversionsDecode env conversion copies db) ∧
    (∀ (wallet : WalletAccount) (db : Db), wallet.assertInvariant = .ok () → FitsWallet env wallet →
      WalletDecodes env wallet db) ∧
    ∀ (wallets : Table (String × String) WalletRow) (s : System), InitialWallets wallets →
      ReadableWallets env wallets → System.Reaches env (System.initial wallets) s →
      RowsDecode env s.db := by
  refine ⟨?_, ?_, fun wallet db hinvariant hfits ↦ walletDecodes hfits hinvariant db, ?_⟩
  · intro id userId sourceAmount rate createdAt ttlSeconds quote hcreate hfits copies db hsession
    obtain ⟨-, -, -, -, -, -, hpos⟩ := Quote.create_eq_ok hcreate
    exact quotesDecode hfits hpos hsession
  · intro id quoteId userId sourceAmount targetAmount createdAt conversion hcreate hfits copies db
      hsession
    obtain ⟨⟨hstatus, hevent, hcompletedAt, hreason⟩, hsource, htarget⟩ :=
      Conversion.create_eq_ok hcreate
    have hnew : SameConversion conversion conversion := by
      refine ⟨rfl, rfl, rfl, rfl, rfl, rfl, fun e he ↦ ?_, ?_⟩
      · exact absurd (hevent.symm.trans he) nofun
      · simp only [Progress, hstatus]
        exact ⟨hevent, hcompletedAt, hreason⟩
    exact conversionsDecode hfits hnew hsource htarget hsession
  · intro wallets s hwallets hreadable hrun
    exact (sound_of_reaches hwallets hrun).inv.rowsDecode hreadable

theorem fitsConversion_sample : FitsConversion .reference Conversion.sampleConversion where
  storable := ⟨by decide, by decide, by decide, by decide, by decide, nofun, nofun⟩
  sourceAsset := by decide
  targetAsset := by decide
  sourceAmount := by norm_num [Conversion.sampleConversion, Money.one]
  targetAmount := by norm_num [Conversion.sampleConversion, Money.one]

/-- A conversion that is saved when it was created and loaded, and again when it has its event. -/
theorem rows_decode_sample : ∃ db₁ db₂,
    (PrismaConversionRepository.save Conversion.sampleConversion).solo postgres
      none (Db.ofWallets ∅) =
      (.returned (), db₁) ∧
    (PrismaConversionRepository.findById .reference sampleConversionId).solo postgres none db₁ =
      (.returned (some Conversion.sampleConversion), db₁) ∧
    (PrismaConversionRepository.save
      (Conversion.sampleConversion.after [.markFundsReserved, .bindExecutionEvent "e-1"])).solo
        postgres
        none db₁ = (.returned (), db₂) ∧
    (PrismaConversionRepository.findById .reference sampleConversionId).solo postgres none db₂ =
      (.returned (some
        (Conversion.sampleConversion.after [.markFundsReserved, .bindExecutionEvent "e-1"])),
          db₂) := by
  have hcreate : Conversion.create sampleConversionId sampleQuoteId sampleUser (Money.one USDT)
      (Money.one BTC) sampleTime = .ok Conversion.sampleConversion := by decide +kernel
  have hcreated : ConversionSession .reference Conversion.sampleConversion
      [Conversion.sampleConversion] (Db.ofWallets ∅) := .created _ rfl
  have hdecode := fun {copies : List Conversion} {db : Db}
    (h : ConversionSession .reference Conversion.sampleConversion copies db) ↦
    (rows_decode .reference).2.1 _ _ _ _ _ _ _ hcreate fitsConversion_sample _ _ h
  obtain ⟨db₁, hsave₁, hload₁⟩ := ((hdecode hcreated).saves _ List.mem_cons_self).2.saved
    fitsConversion_sample.storable (by decide) (by decide)
  have hsession := ((hcreated.save List.mem_cons_self).run .markFundsReserved
    List.mem_cons_self).run (.bindExecutionEvent "e-1") List.mem_cons_self
  rw [hsave₁] at hsession
  have hfree : ¬ QuoteUsed (Conversion.sampleConversion.after
      [.markFundsReserved, .bindExecutionEvent "e-1"]) db₁ := fun hused ↦ by
    have hnone : db₁.conversions.lookup sampleConversionId.value = none := hused.1
    cases hload₁.symm.trans (solo_findConversion_of_none hnone)
  obtain ⟨db₂, hsave₂, hload₂⟩ := ((hdecode hsession).saves _ List.mem_cons_self).2.saved
    ⟨by decide, by decide, by decide, by decide, by decide, by decide, nofun⟩ (by decide) hfree
  exact ⟨db₁, db₂, hsave₁, hload₁, hsave₂, hload₂⟩

end Ledger

end WalletConversion
