import WalletConversion.Application.GetConversion
import WalletConversion.Guarantees.Idempotency
import WalletConversion.Presentation.CreateQuoteDto
import Mathlib.Algebra.Order.Floor.Semifield

/-!
# Amounts as texts

Amounts enter as text, are stored as numbers, and leave as text again.

* `validator_exact` — what the pattern and the length of `CreateQuoteDto.sourceAmount` admit, and
  which of it is an amount of an asset.
* `amount_texts` — the shortened text of an amount is plain, is read back as the amount, and belongs
  to no other; so do the texts that a run hands out: of its events, its responses, and its status
  responses.
-/

namespace WalletConversion

open DecimalNotation Transactional Relation

/-! ### The validator -/

namespace CreateQuoteDto

/-- The constraints of `sourceAmount`. -/
def admitsSourceAmount (text : String) : Bool :=
  maxLength 39 text && sourceAmountPattern.test text

theorem maxLength_of_length_le {most : ℕ} {text : String} (h : text.length ≤ most) :
    maxLength most text = true := by
  rw [maxLength, decide_eq_true_eq]
  omega

theorem length_plain_le {ip fp : List Char} (h : Amount ip fp) : (plain ip fp).length ≤ 39 := by
  have hip := h.wholeLength
  have hfp := h.fractionLength
  unfold plain
  split
  · rw [List.append_nil]
    omega
  · rw [List.length_append, List.length_cons]
    omega

/-- **The validator of the amount accepts exactly its grammar.** An accepted text is an amount of an
asset if and only if its fraction, without the zeros at its end, has no more digits than the asset
has decimals, and then it is read as the number it denotes. -/
theorem validator_exact (js : DecimalJs) (text : String) :
    (admitsSourceAmount text = true ↔ ∃ ip fp, text.toList = plain ip fp ∧ Amount ip fp) ∧
    ∀ ip fp, text.toList = plain ip fp → Amount ip fp → ∀ asset : Asset,
      ((∃ m, Money.of js text asset = .ok m) ↔
        (fp.rdropWhile (· = '0')).length ≤ asset.scale) ∧
      ∀ m, Money.of js text asset = .ok m →
        m.asset = asset ∧ m.amount = (scientific ip fp 0).value := by
  constructor
  · rw [admitsSourceAmount, Bool.and_eq_true, sourceAmountPattern_iff]
    refine ⟨And.right, fun h ↦ ⟨?_, h⟩⟩
    -- the grammar leaves no room for a longer text
    obtain ⟨ip, fp, htext, hamount⟩ := h
    refine maxLength_of_length_le ?_
    rw [← String.length_toList, htext]
    exact length_plain_le hamount
  · intro ip fp htext hamount asset
    have hne : ip ≠ [] := by
      rcases hamount.noLeadingZero with ⟨c, ds, rfl, -⟩ | rfl <;> simp
    have hdenotes : Denotes text.toList (scientific ip fp 0).value :=
      ⟨_, by rw [htext]; exact literal_plain hamount.wholeDigits hne hamount.fractionDigits, rfl⟩
    obtain ⟨d, hd, hread⟩ := Decimal.ofText_of_denotes js hdenotes
    have hplaces : (fp.rdropWhile (· = '0')).length ≤ asset.scale ↔
        Decimal.decimalPlaces d ≤ asset.scale := by
      rw [Decimal.decimalPlaces_le_iff, hd, isFixed_value_scientific_iff hamount.fractionDigits]
    have hof : Money.of js text asset = Money.ofDecimal (.finite false d) asset := by
      rw [Money.of, hread]
      rfl
    rw [hof, hplaces]
    simp only [Money.ofDecimal, Bool.false_eq_true, if_false]
    split
    · rename_i hlarge
      refine ⟨⟨fun h ↦ ?_, fun hle ↦ absurd hle (Nat.not_le_of_lt hlarge)⟩, fun m hm ↦ by cases hm⟩
      obtain ⟨m, hm⟩ := h
      cases hm
    · rename_i hsmall
      refine ⟨⟨fun _ ↦ Nat.le_of_not_lt hsmall, fun _ ↦ ⟨_, rfl⟩⟩, fun m hm ↦ ?_⟩
      cases hm
      exact ⟨rfl, hd⟩

theorem validator_exact_sample : ∃ m, Money.of Platform.reference.toDecimalJs "10.50" USDT = .ok m ∧
    m.amount = 21 / 2 := by
  have hamount : Amount ['1', '0'] ['5', '0'] :=
    ⟨List.all_eq_true.1 (by decide), by decide, .inl ⟨_, _, rfl, by decide⟩,
      List.all_eq_true.1 (by decide), by decide, by decide +kernel⟩
  have htext : "10.50".toList = plain ['1', '0'] ['5', '0'] := by decide +kernel
  obtain ⟨hread, hvalue⟩ :=
    (validator_exact Platform.reference.toDecimalJs "10.50").2 _ _ htext hamount USDT
  obtain ⟨m, hm⟩ := hread.2 (by decide +kernel)
  exact ⟨m, hm, (hvalue m hm).2.trans (by decide +kernel)⟩

example : admitsSourceAmount "0.00" = false ∧ admitsSourceAmount "01.5" = false ∧
    admitsSourceAmount "10.50" = true := by decide +kernel

end CreateQuoteDto

/-! ### The shortened text -/

/-- A text with all digits before the point and no zero at the end behind it, which is read as the
amount. -/
structure Money.ShortText (m : Money) (text : String) : Prop where
  plain : ∃ fp, text.toList = plain (Nat.toDigits 10 ⌊m.amount⌋₊) fp ∧
    (∀ c ∈ fp, c.isDigit = true) ∧ fp.length ≤ m.asset.scale ∧ fp.getLast? ≠ some '0'
  read : ∀ js, Money.of js text m.asset = .ok m

theorem Money.shortText_trimTrailingZeros (m : Money) :
    m.ShortText (trimTrailingZeros m.toString) where
  plain := by
    have hfloor : ⌊m.amount⌋₊ = m.units / 10 ^ m.asset.scale := by
      have hcast : ((10 ^ m.asset.scale : ℕ) : ℚ) = 10 ^ m.asset.scale := by push_cast; rfl
      rw [m.amount_eq_units, ← hcast, Nat.floor_div_eq_div]
    have hstart := List.rdropWhile_prefix (· = '0') (fractionDigits m.asset.scale m.units)
    refine ⟨(fractionDigits m.asset.scale m.units).rdropWhile (· = '0'), ?_, fun c hc ↦
      isDigit_of_mem_fractionDigits c (hstart.subset hc),
      hstart.length_le.trans_eq (length_fractionDigits _ _), fun hlast ↦ ?_⟩
    · rw [trimTrailingZeros, Money.toString, String.toList_ofList, String.toList_ofList, hfloor,
        dropTrailingZeros_fixedText]
    · have hne := List.ne_nil_of_mem (List.mem_of_getLast? hlast)
      rw [List.getLast?_eq_getLast_of_ne_nil hne, Option.some.injEq] at hlast
      exact List.rdropWhile_last_not (· = '0') _ hne (by rw [hlast]; rfl)
  read js := Money.of_trimTrailingZeros js m

/-- Different amounts have different texts. -/
theorem Money.amount_eq_of_trimTrailingZeros {m m' : Money}
    (h : trimTrailingZeros m'.toString = trimTrailingZeros m.toString) : m'.amount = m.amount := by
  have hdenotes := m'.denotes_trimTrailingZeros
  rw [h] at hdenotes
  exact hdenotes.signed.unique m.denotes_trimTrailingZeros.signed

/-! ### Texts that are handed out -/

namespace Ledger

variable {env : Platform} {wallets : Table (String × String) WalletRow} {s : System} {t : Task}
  {a b : Db}

/-- Texts for the two amounts of a conversion. -/
structure DenotesAmounts (row : ConversionRow) (sourceAmount targetAmount : String) : Prop where
  source : Denotes sourceAmount.toList row.sourceAmount.1
  target : Denotes targetAmount.toList row.targetAmount.1

theorem DenotesAmounts.evolve {r r' : ConversionRow} {sourceAmount targetAmount : String}
    (h : DenotesAmounts r sourceAmount targetAmount) (he : ConversionEvolves r r') :
    DenotesAmounts r' sourceAmount targetAmount := by
  obtain ⟨-, -, -, -, hsource, htarget, -, -⟩ := he.terms
  exact ⟨hsource ▸ h.source, htarget ▸ h.target⟩

/-- The response of an accept has the amounts of its conversion. -/
def BodyAmounts (db : Db) (body : AcceptQuoteSuccessBody) : Prop :=
  ∃ row, db.conversions.lookup body.conversionId = some row ∧
    DenotesAmounts row body.sourceAmount body.targetAmount

theorem BodyAmounts.evolves {body : AcceptQuoteSuccessBody} (h : BodyAmounts a body)
    (he : Evolves a b) : BodyAmounts b body := by
  obtain ⟨row, hrow, hamounts⟩ := h
  obtain ⟨row', hrow', hevolves⟩ := he.conversions _ row hrow
  exact ⟨row', hrow', hamounts.evolve hevolves⟩

/-- Every stored response shows the amounts of its conversion. -/
def RecordAmounts (db : Db) : Prop :=
  ∀ key rec body, db.idempotency.lookup key = some rec → rec.responseBody = some body →
    BodyAmounts db body

/-- **Every commit keeps the amounts of the records.** -/
theorem recordAmounts_of_commit (hcommit : Commit env t a b) (h : RecordAmounts a) :
    RecordAmounts b := by
  have hevolves := hcommit.evolves
  have hkept : ∀ {key rec body}, a.idempotency.lookup key = some rec →
      rec.responseBody = some body → BodyAmounts b body :=
    fun hrec hbody ↦ (h _ _ _ hrec hbody).evolves hevolves
  intro key rec body hrec hbody
  cases hcommit with
  | @accepted command inputs _ quote row _ w' _ _ _ stored =>
    rcases Table.lookup_insert_cases hrec with ⟨-, rfl⟩ | ⟨-, hold⟩
    · -- the body is made from the quote, and so is the conversion
      cases hbody
      refine ⟨reservedRow (trim command.quoteId) row inputs, Finmap.lookup_insert _, ?_, ?_⟩
      · have hdenotes := quote.sourceAmount.denotes_trimTrailingZeros
        rwa [← stored.source.amount_eq] at hdenotes
      · have hdenotes := quote.targetAmount.denotes_trimTrailingZeros
        rwa [← stored.target.amount_eq] at hdenotes
    · exact hkept hold hbody
  | cleaned keys => exact hkept (Table.lookup_of_foldl_erase hrec) hbody
  | _ => exact hkept hrec hbody

/-- The records of both tables have the amounts of their conversions. -/
def SameAmounts (a b : Db) : Prop := RecordAmounts a ∧ RecordAmounts b

theorem recordAmounts_of_reaches (hwallets : InitialWallets wallets)
    (h : System.Reaches env (System.initial wallets) s) :
    RecordAmounts s.db ∧ ReachesWithin env SameAmounts (System.initial wallets) s := by
  induction h with
  | refl =>
    refine ⟨fun _ _ _ hrec ↦ ?_, .refl⟩
    cases hrec
  | tail hrun hstep ih =>
    have hsound := sound_of_reaches hwallets hrun
    have hamounts := hsound.keeps (fun _ _ _ _ ↦ recordAmounts_of_commit)
      (.single hstep) ih.1
    obtain ⟨m, hadmissible, hm, -⟩ := hstep
    exact ⟨hamounts, .tail ih.2 ⟨m, hadmissible, hm, ih.1, hamounts⟩⟩

/-- A record that was seen had the amounts of its conversion. -/
theorem Recorded.bodyAmounts {key : String} {rec : IdempotencyRow} {body : AcceptQuoteSuccessBody}
    {db : Db} (h : Recorded env wallets SameAmounts key rec db) (hdb : RecordAmounts db)
    (hbody : rec.responseBody = some body) : BodyAmounts db body := by
  obtain ⟨db₀, -, hrec, hevolves, hobserved⟩ := h
  rcases hobserved.cases_head with rfl | ⟨db₁, hsame, -⟩
  · exact hdb key rec body hrec hbody
  · exact (hsame.1 key rec body hrec hbody).evolves hevolves

/-- **What is handed out denotes what is stored.** -/
structure ExactTexts (env : Platform) (s : System) : Prop where
  /-- The amounts of an event pass the check of its execution. -/
  events : ∀ e o, s.db.outbox.lookup e = some o → ∃ row conversion,
    s.db.conversions.lookup o.payload.conversionId = some row ∧
    DenotesAmounts row o.payload.sourceAmount o.payload.targetAmount ∧
    PrismaConversionRepository.toDomain env o.payload.conversionId row = .ok conversion ∧
    ProcessConversionExecutionUseCase.assertPayloadMatchesConversion env
      o.payload conversion = .ok ()
  records : ∀ key rec body, s.db.idempotency.lookup key = some rec →
    rec.responseBody = some body → BodyAmounts s.db body
  responses : ∀ pid key quoteId result ws body, Answered s pid key quoteId result ws →
    (result = .created body ∨ ∃ statusCode, result = .replay statusCode body) →
    BodyAmounts s.db body
  statuses : ∀ c row, s.db.conversions.lookup c = some row → ∃ body,
    (GetConversionUseCase.execute env c).solo postgres none s.db =
      (.returned (.found body), s.db) ∧
    DenotesAmounts row body.sourceAmount body.targetAmount

/-- Asking for a stored conversion. -/
theorem solo_getConversion {c : String} {row : ConversionRow} {conversion : Conversion}
    (hrow : a.conversions.lookup c = some row) (hstored : conversion.StoredAs env c row) :
    (GetConversionUseCase.execute env c).solo postgres none a =
      (.returned (.found (toConversionStatusResponse conversion)), a) := by
  have htrim : trim c = c := by
    rw [hstored.id_eq]
    exact conversion.id.trimmed
  have hne : c ≠ "" := by
    rw [hstored.id_eq]
    exact conversion.id.nonempty
  have hid : ConversionId.of c = .ok conversion.id := by
    rw [hstored.id_eq, ConversionId.of_value]
  have hread : exec (.findConversion conversion.id.value) (fun _ ↦ false) a =
      .ok (some row, []) := by
    rw [exec, ← hstored.id_eq, hrow]
  have hdomain := hstored.toDomain
  rw [hstored.id_eq] at hdomain
  unfold GetConversionUseCase.execute
  rw [if_neg (by rwa [htrim])]
  simp only [htrim, hid]
  refine (Prog.solo_call_none hread).trans ?_
  simp only [Store.applyAll_nil, Prog.bind_eq_handle, hdomain, attempt_ok, Prog.handle_ret]
  rfl

/-- **Every text of a reachable state is exact.** -/
theorem exactTexts_of_reaches (hwallets : InitialWallets wallets)
    (h : System.Reaches env (System.initial wallets) s) : ExactTexts env s := by
  obtain ⟨hrecords, hrun⟩ := recordAmounts_of_reaches hwallets h
  have hsound := sound_of_reaches hwallets hrun
  refine ⟨fun e o ho ↦ ?_, hrecords, fun pid key quoteId result ws body hanswered hresult ↦ ?_,
    fun c row hrow ↦ ?_⟩
  · have hgenuine : (Task.execute o.payload
        ⟨.SUCCESS, sampleTime, sampleTime, sampleQuoteId⟩).Genuine s.db := ⟨e, o, ho, rfl⟩
    obtain ⟨row, hrow, hmatches⟩ := hsound.inv.matches_of_genuine hgenuine
    obtain ⟨conversion, hstored⟩ := (hsound.inv.conversions _ row hrow).stored
    exact ⟨row, conversion, hrow, ⟨hmatches.sourceAmount, hmatches.targetAmount⟩, hstored.toDomain,
      assertPayload_ok hstored hmatches⟩
  · obtain ⟨p, command, inputs, -, -, -, -, hanswer⟩ := hanswered.answer hsound
    rcases hresult with rfl | ⟨statusCode, rfl⟩
    · obtain ⟨-, rec, hrec, -, hbody, -⟩ := hanswer
      exact hrec.bodyAmounts hrecords hbody
    · obtain ⟨-, -, rec, hrec, -, hbody⟩ := hanswer
      exact hrec.bodyAmounts hrecords hbody
  · obtain ⟨conversion, hstored⟩ := (hsound.inv.conversions c row hrow).stored
    refine ⟨_, solo_getConversion hrow hstored, ?_, ?_⟩
    · have hdenotes := conversion.sourceAmount.denotes_trimTrailingZeros
      rwa [← hstored.source.amount_eq] at hdenotes
    · have hdenotes := conversion.targetAmount.denotes_trimTrailingZeros
      rwa [← hstored.target.amount_eq] at hdenotes

/-- **Amounts survive their texts.** The shortened text of an amount is plain, is read back as the
amount, and is that of no other amount; and in every state of every run the texts of the events, of
the responses and of the status responses denote the stored amounts. -/
theorem amount_texts :
    (∀ m : Money, m.ShortText (trimTrailingZeros m.toString) ∧ ∀ m' : Money,
      trimTrailingZeros m'.toString = trimTrailingZeros m.toString → m'.amount = m.amount) ∧
    ∀ env wallets s, InitialWallets wallets → System.Reaches env (System.initial wallets) s →
      ExactTexts env s :=
  ⟨fun m ↦ ⟨m.shortText_trimTrailingZeros, fun _ ↦ Money.amount_eq_of_trimTrailingZeros⟩,
    fun _ _ _ ↦ exactTexts_of_reaches⟩

/-- After an accept the event carries the amounts of its conversion. -/
theorem amount_texts_sample : ∃ s : System, s.db.outbox.lookup "e-1" ≠ none ∧
    ExactTexts .reference s := by
  have hrun : ∃ s, System.Reaches .reference (System.initial sampleWallets) s ∧
      s.db.outbox.lookup "e-1" ≠ none :=
    System.exists_of_play sampleAccepted _ (by decide +kernel)
  obtain ⟨s, hreaches, hs⟩ := hrun
  exact ⟨s, hs, amount_texts.2 _ _ _ (by decide +kernel) hreaches⟩

end Ledger

end WalletConversion
