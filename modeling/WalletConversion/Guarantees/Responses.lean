import WalletConversion.Guarantees.AmountTexts
import WalletConversion.Presentation.Controllers

/-!
# What the responses say

The client of the three routes sees a quote, the response of its accept, and the status of its
conversion whenever it asks. These are built by different handlers from different rows, at different
times and next to any other calls. They tell one story:

* `quoted_is_converted` — the assets and the amounts of a quote are those of its accept, first
  answer or replay, and of its conversion from then on;
* `reads_advance` — what is once found is found again, with the same terms; its status only
  advances.
-/

namespace WalletConversion

open Transactional Relation

/-! ### What is shown -/

/-- What a client is shown of an exchange. -/
structure Shown where
  sourceAsset : String
  targetAsset : String
  sourceAmount : String
  targetAmount : String
  deriving DecidableEq

/-- How every response shows two amounts. -/
def shownOf (source target : Money) : Shown where
  sourceAsset := source.asset.code
  targetAsset := target.asset.code
  sourceAmount := trimTrailingZeros source.toString
  targetAmount := trimTrailingZeros target.toString

/-- What the answer to a new quote shows. -/
def QuoteResponse.shown (response : QuoteResponse) : Shown :=
  ⟨response.sourceAsset, response.targetAsset, response.sourceAmount, response.targetAmount⟩

/-- What the answer to an accept shows. -/
def AcceptQuoteSuccessBody.shown (body : AcceptQuoteSuccessBody) : Shown :=
  ⟨body.sourceAsset, body.targetAsset, body.sourceAmount, body.targetAmount⟩

/-- What the answer to a status request shows. -/
def ConversionStatusResponse.shown (response : ConversionStatusResponse) : Shown :=
  ⟨response.sourceAsset, response.targetAsset, response.sourceAmount, response.targetAmount⟩

theorem shown_toResponse (quote : Quote) :
    (QuotesController.toResponse quote).shown = shownOf quote.sourceAmount quote.targetAmount := rfl

theorem shown_toConversionStatusResponse (conversion : Conversion) :
    (toConversionStatusResponse conversion).shown =
      shownOf conversion.sourceAmount conversion.targetAmount := rfl

/-- Two columns hold one amount. -/
theorem Money.StoredAs.unique {env : Platform} {m m' : Money} {code : String} {n : Numeric}
    (h : m.StoredAs env code n) (h' : m'.StoredAs env code n) : m = m' := by
  refine Money.ext ?_ (h.amount_eq.symm.trans h'.amount_eq)
  exact env.registry.unique _ h.registered _ h'.registered (h.code_eq.symm.trans h'.code_eq)

/-! ### The response of an accept -/

/-- The response of an accept, as its conversion tells it. -/
def acceptedBody (conversion : Conversion) : AcceptQuoteSuccessBody where
  conversionId := conversion.id.value
  quoteId := conversion.quoteId.value
  userId := conversion.userId.value
  status := ConversionStatus.FUNDS_RESERVED.text
  sourceAsset := conversion.sourceAmount.asset.code
  targetAsset := conversion.targetAmount.asset.code
  sourceAmount := trimTrailingZeros conversion.sourceAmount.toString
  targetAmount := trimTrailingZeros conversion.targetAmount.toString
  createdAt := conversion.createdAt.timestampText

namespace Ledger

variable {env : Platform} {wallets : Table (String × String) WalletRow} {s s' : System} {t : Task}
  {a b : Db} {body : AcceptQuoteSuccessBody}

/-- The response is that of a stored conversion. -/
def Tells (env : Platform) (db : Db) (body : AcceptQuoteSuccessBody) : Prop :=
  ∃ row conversion, db.conversions.lookup body.conversionId = some row ∧
    conversion.StoredAs env body.conversionId row ∧ body = acceptedBody conversion

/-- A conversion that evolves keeps its terms. -/
theorem terms_of_evolves {k k' : Conversion} {c : String} {r r' : ConversionRow}
    (h : k.StoredAs env c r) (h' : k'.StoredAs env c r') (he : ConversionEvolves r r') :
    k'.id = k.id ∧ k'.quoteId = k.quoteId ∧ k'.userId = k.userId ∧
      k'.sourceAmount = k.sourceAmount ∧
      k'.targetAmount = k.targetAmount ∧ k'.createdAt = k.createdAt := by
  obtain ⟨h₀, h₁, h₂, h₃, h₄, h₅, -, h₇⟩ := he.terms
  have hsource := h'.source
  have htarget := h'.target
  rw [h₂, h₄] at hsource
  rw [h₃, h₅] at htarget
  exact ⟨Identifier.ext (h'.id_eq.symm.trans h.id_eq),
    Identifier.ext (h'.quote_eq.symm.trans (h₀.trans h.quote_eq)),
    Identifier.ext (h'.user_eq.symm.trans (h₁.trans h.user_eq)), hsource.unique h.source,
    htarget.unique h.target, h'.createdAt_eq.symm.trans (h₇.trans h.createdAt_eq)⟩

/-- A response stays true. -/
theorem Tells.evolves (h : Tells env a body) (hb : Valid env wallets b) (he : Evolves a b) :
    Tells env b body := by
  obtain ⟨row, k, hrow, hk, hbody⟩ := h
  obtain ⟨row', hrow', hevolves⟩ := he.conversions _ row hrow
  obtain ⟨k', hk'⟩ := (hb.conversions _ row' hrow').stored
  obtain ⟨hid, hquote, huser, hsource, htarget, hcreated⟩ := terms_of_evolves hk hk' hevolves
  refine ⟨row', k', hrow', hk', hbody.trans ?_⟩
  simp only [acceptedBody, hid, hquote, huser, hsource, htarget, hcreated]

/-- The responses of all records are told by conversions. -/
def RecordsTell (env : Platform) (db : Db) : Prop :=
  ∀ key rec body, db.idempotency.lookup key = some rec → rec.responseBody = some body →
    Tells env db body

/-- **Every commit keeps the records true.** -/
theorem recordsTell_of_commit (ha : Valid env wallets a) (hcommit : Commit env t a b)
    (h : RecordsTell env a) : RecordsTell env b := by
  have hb := ha.of_commit hcommit
  have hevolves := hcommit.evolves
  have hkept : ∀ {key rec body}, a.idempotency.lookup key = some rec →
      rec.responseBody = some body → Tells env b body :=
    fun hrec hbody ↦ (h _ _ _ hrec hbody).evolves hb hevolves
  intro key rec body hrec hbody
  cases hcommit with
  | @accepted command inputs _ quote row _ w' _ _ _ stored =>
    rcases Table.lookup_insert_cases hrec with ⟨-, rfl⟩ | ⟨-, hold⟩
    · -- the response is made from the conversion that is written with it
      cases hbody
      exact ⟨reservedRow (trim command.quoteId) row inputs, reservedConversion quote inputs,
        Finmap.lookup_insert _, stored_reserved stored, rfl⟩
    · exact hkept hold hbody
  | cleaned keys => exact hkept (Table.lookup_of_foldl_erase hrec) hbody
  | _ => exact hkept hrec hbody

/-- The records of both tables are true. -/
def BothTell (env : Platform) (a b : Db) : Prop := RecordsTell env a ∧ RecordsTell env b

/-- **Every stored response tells what its conversion says.** -/
theorem recordsTell_of_reaches (hwallets : InitialWallets wallets)
    (h : System.Reaches env (System.initial wallets) s) :
    RecordsTell env s.db ∧ ReachesWithin env (BothTell env) (System.initial wallets) s := by
  induction h with
  | refl =>
    refine ⟨fun _ _ _ hrec ↦ ?_, .refl⟩
    cases hrec
  | tail hrun hstep ih =>
    have htell := (sound_of_reaches hwallets hrun).keeps (fun _ _ _ ↦ recordsTell_of_commit)
      (.single hstep) ih.1
    obtain ⟨m, hadmissible, hm, -⟩ := hstep
    exact ⟨htell, .tail ih.2 ⟨m, hadmissible, hm, ih.1, htell⟩⟩

/-- The result of a successful accept. -/
inductive Succeeds (body : AcceptQuoteSuccessBody) : AcceptQuoteResult → Prop
  | created : Succeeds body (.created body)
  | replay (statusCode : ℕ) : Succeeds body (.replay statusCode body)

theorem succeeds_of_response {statusName : ℕ → Option String} {requestId : Option String}
    {statusCode : ℕ} {result : AcceptQuoteResult}
    (h : AcceptQuoteController.response statusName requestId (.ok result) =
      .success statusCode body) : statusCode = 201 ∧ Succeeds body result := by
  cases result with
  | created body' =>
    cases h
    exact ⟨rfl, .created⟩
  | replay statusCode' body' =>
    simp only [AcceptQuoteController.response, AcceptQuoteController.handled,
      AcceptQuoteController.handle] at h
    split_ifs at h
    · cases h
    · cases h
      exact ⟨rfl, .replay _⟩
    · cases h
  | error statusCode' errorCode message =>
    rw [AcceptQuoteController.response_error] at h
    cases h

section Answers

variable {pid : ℕ} {key quoteId : String} {result : AcceptQuoteResult} {ws : List Write}

/-- The record that a successful accept has left or found. -/
theorem Answered.recorded {observed : Db → Db → Prop} (h : Sound env wallets observed s)
    (hanswered : Answered s pid key quoteId result ws) (hsucceeds : Succeeds body result) :
    ∃ rec, Recorded env wallets observed key rec s.db ∧
      rec.requestHash = AcceptQuoteUseCase.requestHash env quoteId ∧
        rec.responseBody = some body := by
  obtain ⟨p, command, inputs, -, -, rfl, rfl, hanswer⟩ := hanswered.answer h
  cases hsucceeds with
  | created =>
    obtain ⟨-, rec, hrec, hhash, hbody, -⟩ := hanswer
    exact ⟨rec, hrec, hhash, hbody⟩
  | replay statusCode =>
    obtain ⟨-, -, rec, hrec, hhash, hbody⟩ := hanswer
    exact ⟨rec, hrec, hhash, hbody⟩

/-- **A success tells of a stored conversion.** -/
theorem Answered.tells (hwallets : InitialWallets wallets)
    (hrun : System.Reaches env (System.initial wallets) s)
    (hanswered : Answered s pid key quoteId result ws) (hsucceeds : Succeeds body result) :
    Tells env s.db body := by
  obtain ⟨htell, hwithin⟩ := recordsTell_of_reaches hwallets hrun
  have hsound := sound_of_reaches hwallets hwithin
  obtain ⟨rec, ⟨db₀, -, hrec, hevolves, hobserved⟩, -, hbody⟩ := hanswered.recorded hsound hsucceeds
  rcases hobserved.cases_head with rfl | ⟨db₁, hboth, -⟩
  · exact htell key rec body hrec hbody
  · exact (hboth.1 key rec body hrec hbody).evolves hsound.inv hevolves

/-- **A success names the conversion of its quote.** -/
theorem Answered.names (hwallets : InitialWallets wallets)
    (hrun : System.Reaches env (System.initial wallets) s)
    (hinjective : Set.InjOn env.sha256Hex (QuoteIds s))
    (hanswered : Answered s pid key quoteId result ws) (hsucceeds : Succeeds body result) :
    NamesConversion s.db quoteId body := by
  have hsound : Sound env wallets (fun _ _ ↦ True) s := sound_of_reaches hwallets hrun
  obtain ⟨rec, ⟨db₀, hvalid, hrec, hevolves, -⟩, hhash, hbody⟩ :=
    hanswered.recorded hsound hsucceeds
  obtain ⟨c, row, body', -, hbody', hrow, rfl, hquote, hhash'⟩ :=
    (hvalid.records _ rec hrec).completed
  obtain rfl : body = body' := Option.some.inj (hbody.symm.trans hbody')
  obtain ⟨row', hrow', he⟩ := hevolves.conversions _ row hrow
  -- the digest of the record is that of one quote id only
  have hmentioned : row.quoteId ∈ QuoteIds s := by
    obtain ⟨q, hq, -⟩ := (hsound.inv.conversions _ row' hrow').quote
    rw [he.terms.1] at hq
    exact .inl ⟨q, hq⟩
  have hid : quoteId = row.quoteId :=
    hinjective hanswered.mentions hmentioned (hhash.symm.trans hhash')
  refine ⟨hquote.trans hid.symm, ⟨row', hrow', he.terms.1.trans hid.symm⟩, fun c r hr hrid ↦ ?_⟩
  exact hsound.inv.oneConversion _ _ _ _ hr hrow' (hrid.trans (hid.trans he.terms.1.symm))

end Answers

/-! ### The response of a quote -/

/-- The quote is stored, with the user and the amounts it was made with. -/
def Offered (env : Platform) (db : Db) (quote : Quote) : Prop :=
  ∃ row, db.quotes.lookup quote.id.value = some row ∧ row.userId = quote.userId.value ∧
    quote.sourceAmount.StoredAs env row.sourceAsset row.sourceAmount ∧
    quote.targetAmount.StoredAs env row.targetAsset row.targetAmount

/-- An offer stays in the table. -/
theorem Offered.evolves {quote : Quote} (h : Offered env a quote) (he : Evolves a b) :
    Offered env b quote := by
  obtain ⟨row, hrow, huser, hsource, htarget⟩ := h
  obtain ⟨row', hrow', rfl | ⟨-, at', rfl⟩⟩ := he.quotes _ row hrow
  · exact ⟨_, hrow', huser, hsource, htarget⟩
  · exact ⟨_, hrow', huser, hsource, htarget⟩

/-- What the creation of a quote has achieved when it returns. -/
def Offers (env : Platform) (t : Task) (r : Except Thrown TaskResult) (_ : List Write) (db : Db) :
    Prop :=
  ∀ command generatedId now quote, t = .createQuote command generatedId now →
    r = .ok (.quote quote) → Offered env db quote

/-- **A quote that is returned is stored.** -/
theorem createQuote_offers {observed : Db → Db → Prop} {command : CreateQuoteCommand}
    {generatedId : Uuid} {now : Date} {db : Db}
    (hfresh : (Task.createQuote command generatedId now).Fresh db) :
    (ledger env wallets observed).wp (.createQuote command generatedId now)
      ((Task.createQuote command generatedId now).program env)
      (fun r o d db ↦ o = none ∧ Offers env (.createQuote command generatedId now) r d db) none []
      db := by
  rcases hbuild : CreateQuoteUseCase.build env command generatedId now with e | quote
  · have hprogram : (Task.createQuote command generatedId now).program env =
        Prog.raise (.error ⟨.InvalidQuoteRequestError, e.message⟩) := by
      simp only [Task.program, CreateQuoteUseCase.execute, hbuild]
      rfl
    rw [hprogram]
    refine Contract.wp_raise fun _ _ _ ↦ ⟨rfl, fun _ _ _ _ _ h ↦ ?_⟩
    cases h
  · have hprogram : (Task.createQuote command generatedId now).program env =
        .call (.upsertQuote (PrismaQuoteRepository.data quote)) fun _ ↦
          Prog.ret (.quote quote) := by
      simp only [Task.program, CreateQuoteUseCase.execute, hbuild]
      rfl
    rw [hprogram]
    refine wp_autocommit_or_refused fun db₁ hr _ ↦ ?_
    have hnew : db₁.quotes.lookup generatedId.value = none := fresh_of_rely hr hfresh
    refine (saved_of_build hbuild hnew).imp id ?_
    rintro ⟨row, hstored, hchecks, hactive, hexec⟩
    refine ⟨(), _, hexec, fun _ _ ↦ trivial, .quoteCreated hbuild hstored hchecks hactive hnew,
      fun _ ↦ Contract.wp_ret fun db₂ hr₂ _ ↦ ⟨rfl, ?_⟩⟩
    rintro _ _ _ _ ⟨⟩ ⟨⟩
    refine Offered.evolves ⟨row, ?_, hstored.user_eq, hstored.source, hstored.target⟩
      (evolves_of_rely hr₂)
    rw [(built_of_build hbuild).id_eq]
    exact Finmap.lookup_insert _

/-- The quote that a call has returned. -/
def quoteOf (p : Proc Write Stmt Stmt.Result Thrown Task TaskResult) : Option Quote :=
  match p.live, p.task, p.rest with
  | true, .createQuote _ _ _, .ret (.quote quote) => some quote
  | _, _, _ => none

/-- A call that has returned a quote. -/
def Quoted (s : System) (pid : ℕ) (quote : Quote) : Prop :=
  ∃ p, s.procs.lookup pid = some p ∧ quoteOf p = some quote

/-- **In every run the quotes that were returned are stored.** -/
theorem Quoted.offered (hwallets : InitialWallets wallets)
    (hrun : System.Reaches env (System.initial wallets) s) {pid : ℕ} {quote : Quote}
    (h : Quoted s pid quote) : Offered env s.db quote := by
  have hcoherent : Coherent (ledger env wallets fun _ _ ↦ True) (Offers env) s := by
    have hinv : (ledger env wallets fun _ _ ↦ True).inv (System.initial wallets).db :=
      Valid.initial hwallets
    refine Coherent.of_reaches hinv rfl (fun s t hs hadmissible ↦ ?_) hrun
    obtain ⟨hfresh, hgenuine, hdisjoint⟩ := hadmissible
    refine ⟨?_, fun pid p hp ↦ ⟨hdisjoint pid p hp, (hdisjoint pid p hp).symm⟩⟩
    cases t with
    | createQuote command generatedId now => exact createQuote_offers hfresh
    | acceptQuote | execute | markPublished | cleanup =>
      refine Contract.wp_mono (program_wp hs.inv hfresh hgenuine) fun _ _ _ _ hr ↦ ⟨hr.1, ?_⟩
      intro _ _ _ _ ht
      cases ht
  obtain ⟨p, hp, hquote⟩ := h
  unfold quoteOf at hquote
  split at hquote
  · next hlive htask hrest =>
    cases hquote
    exact (hcoherent.post_of_ret hp hlive hrest).2 _ _ _ _ htask rfl
  · cases hquote

/-! ### The response of a conversion -/

/-- What a client is answered that asks for a conversion. -/
def asked (env : Platform) (isUuid : String → Bool) (c : String) (db : Db) :
    Ending DbError Thrown (Handled ConversionStatusResponse) × Db :=
  (ConversionsController.getById env isUuid c).solo postgres none db

section Reads

variable {isUuid : String → Bool} {c : String} {row : ConversionRow} {conversion : Conversion}

/-- The statement of the handler. -/
theorem getById_eq (id : ConversionId) (hid : isUuid id.value = true) :
    ConversionsController.getById env isUuid id.value = .call (.findConversion id.value) fun row ↦
      match row with
      | none => .ret (ConversionsController.handle id.value .notFound)
      | some row => (attempt (PrismaConversionRepository.toDomain env id.value row)).handle
        (fun conversion ↦ .ret (ConversionsController.handle id.value
          (.found (toConversionStatusResponse conversion)))) fun x ↦ .ret (rethrown x) := by
  have hpipe : ConversionsController.CONVERSION_ID_PIPE isUuid id.value = .ok id.value := if_pos hid
  simp only [ConversionsController.getById, hpipe, GetConversionUseCase.execute, id.trimmed,
    if_neg id.nonempty, ConversionId.of_value, PrismaConversionRepository.findById, sql,
    Prog.bind_eq_handle, Prog.handle_stmt, Prog.handle_call]
  congr 1
  funext row
  cases row with
  | none => rfl
  | some row => simp only [Prog.handle_handle, Prog.handle_ret, Prog.handle_raise, Prog.pure_eq_ret]

/-- Asking for a stored conversion. -/
theorem asked_found (hid : isUuid c = true) (hrow : a.conversions.lookup c = some row)
    (hstored : conversion.StoredAs env c row) :
    asked env isUuid c a = (.returned ⟨[], .ok (toConversionStatusResponse conversion)⟩, a) := by
  obtain rfl := hstored.id_eq
  have hread : postgres.exec (.findConversion conversion.id.value) (fun _ ↦ false) a =
      .ok (some row, []) := congrArg (fun r ↦ Except.ok (r, [])) hrow
  rw [asked, getById_eq _ hid, Prog.solo_call_none hread]
  simp only [hstored.toDomain, attempt_ok, Prog.handle_ret]
  rfl

/-- Asking for a conversion that there is not. -/
theorem asked_notFound (id : ConversionId) (hid : isUuid id.value = true)
    (hrow : a.conversions.lookup id.value = none) :
    asked env isUuid id.value a =
      (.returned (ConversionsController.handle id.value .notFound), a) := by
  have hread : postgres.exec (.findConversion id.value) (fun _ ↦ false) a = .ok (none, []) :=
    congrArg (fun r ↦ Except.ok (r, [])) hrow
  rw [asked, getById_eq _ hid, Prog.solo_call_none hread]
  rfl

end Reads

/-! ### Quote, accept and conversion -/

/-- **The terms of a quote are those of its accept and of its conversion**, whenever it is asked
for. -/
theorem quoted_is_converted (hwallets : InitialWallets wallets)
    (hrun : System.Reaches env (System.initial wallets) s)
    (hinjective : Set.InjOn env.sha256Hex (QuoteIds s)) {i j : ℕ} {quote : Quote} {key : String}
    {result : AcceptQuoteResult} {ws : List Write} {statusName : ℕ → Option String}
    {requestId : Option String} {statusCode : ℕ} (hquoted : Quoted s i quote)
    (hanswered : Answered s j key quote.id.value result ws)
    (hresponse : AcceptQuoteController.response statusName requestId (.ok result) =
      .success statusCode body) :
    statusCode = 201 ∧ body.quoteId = quote.id.value ∧ body.userId = quote.userId.value ∧
      body.shown = (QuotesController.toResponse quote).shown ∧
      ∀ s' isUuid, System.Reaches env s s' → isUuid body.conversionId = true → ∃ status,
        asked env isUuid body.conversionId s'.db = (.returned ⟨[], .ok status⟩, s'.db) ∧
        status.conversionId = body.conversionId ∧ status.shown = body.shown ∧
        status.createdAt = body.createdAt := by
  have hsound : Sound env wallets (fun _ _ ↦ True) s := sound_of_reaches hwallets hrun
  obtain ⟨hstatus, hsucceeds⟩ := succeeds_of_response hresponse
  have htells := hanswered.tells hwallets hrun hsucceeds
  obtain ⟨hquoteId, ⟨r, hr, hrid⟩, -⟩ := hanswered.names hwallets hrun hinjective hsucceeds
  obtain ⟨q, hq, huser, hsource, htarget⟩ := hquoted.offered hwallets hrun
  obtain ⟨row, k, hrow, hk, hbody⟩ := id htells
  obtain rfl : r = row := Option.some.inj (hr.symm.trans hrow)
  -- the conversion has the terms of the row of the quote
  obtain ⟨q', hq', -, hterms⟩ := (hsound.inv.conversions _ r hrow).quote
  rw [hrid, hq] at hq'
  cases hq'
  have hsourceAmount : k.sourceAmount = quote.sourceAmount := by
    have hcolumn := hk.source
    rw [hterms.sourceAsset, hterms.sourceAmount] at hcolumn
    exact hcolumn.unique hsource
  have htargetAmount : k.targetAmount = quote.targetAmount := by
    have hcolumn := hk.target
    rw [hterms.targetAsset, hterms.targetAmount] at hcolumn
    exact hcolumn.unique htarget
  refine ⟨hstatus, hquoteId, ?_, ?_, fun s' isUuid hrun' hid ↦ ?_⟩
  · rw [hbody]
    exact hk.user_eq.symm.trans (hterms.user.trans huser)
  · rw [hbody, shown_toResponse, ← hsourceAmount, ← htargetAmount]
    rfl
  · obtain ⟨row', k', hrow', hk', hbody'⟩ := htells.evolves
      (hsound.of_reaches hrun').inv (hsound.evolves_of_reaches hrun')
    refine ⟨_, asked_found hid hrow' hk', ?_, ?_, ?_⟩ <;> rw [hbody'] <;> rfl

/-- The key and the quote that an accept asks for. -/
def requestOf : Task → Option (String × String)
  | .acceptQuote command _ => some (trim command.idempotencyKey, trim command.quoteId)
  | .createQuote .. | .execute .. | .markPublished .. | .cleanup .. => none

theorem answered_of_requestOf {pid : ℕ} {key quoteId : String} {result : AcceptQuoteResult}
    (hrequest : (s.procs.lookup pid).bind (requestOf ·.task) = some (key, quoteId))
    (hanswer : (s.procs.lookup pid).bind answerOf = some result) :
    ∃ ws, Answered s pid key quoteId result ws := by
  obtain ⟨p, hp, hrequest⟩ := Option.bind_eq_some_iff.1 hrequest
  rw [hp, Option.bind_some] at hanswer
  rcases htask : p.task with _ | ⟨command, inputs⟩ | _ | _ | _ <;> rw [htask] at hrequest <;>
    cases hrequest
  exact ⟨p.durable, p, command, inputs, hp, htask, rfl, rfl, hanswer, rfl⟩

/-- The quote of the sample run is accepted, and its conversion is asked for while it is
executed. -/
theorem quoted_is_converted_sample : ∃ (s : System) (quote : Quote), Quoted s 1 quote ∧
    sampleBody.shown = (QuotesController.toResponse quote).shown ∧ ∃ status,
      asked .reference (fun _ ↦ true) "c-1" s.db = (.returned ⟨[], .ok status⟩, s.db) ∧
      status.shown = sampleBody.shown := by
  have hrun : ∃ s, System.Reaches .reference (System.initial sampleWallets) s ∧
      ((s.procs.lookup 1).bind quoteOf).map (·.id.value) = some "q-1" ∧
      (s.procs.lookup 2).bind (requestOf ·.task) = some ("key-1", "q-1") ∧
      (s.procs.lookup 2).bind answerOf = some (.created sampleBody) :=
    System.exists_of_play (sampleAccepted ++ callFor 3 (sampleExecute .SUCCESS) 4) _
      (by decide +kernel)
  obtain ⟨s, hreaches, hquote, hrequest, hanswer⟩ := hrun
  obtain ⟨quote, hquote, hid⟩ := Option.map_eq_some_iff.1 hquote
  obtain ⟨p, hp, hquote⟩ := Option.bind_eq_some_iff.1 hquote
  rw [← hid] at hrequest
  obtain ⟨ws, hanswered⟩ := answered_of_requestOf hrequest hanswer
  obtain ⟨-, -, -, hshown, hasked⟩ := quoted_is_converted (by decide +kernel) hreaches
    referenceDigest_injective.injOn ⟨p, hp, hquote⟩ hanswered
    (@rfl _ (AcceptQuoteController.response (fun _ ↦ none) none (.ok (.created sampleBody))))
  obtain ⟨status, hstatus, -, hsame, -⟩ := hasked s (fun _ ↦ true) .refl rfl
  exact ⟨s, quote, ⟨p, hp, hquote⟩, hshown, status, hstatus, hsame⟩

/-! ### Asking again -/

/-- An answer about a conversion. -/
structure Reports (id : ConversionId) (status : ConversionStatusResponse) : Prop where
  conversionId : status.conversionId = id.value
  known : status.status ∈
    ["FUNDS_RESERVED", "EXECUTION_REQUESTED", "COMPLETED", "FAILED", "REQUIRES_RECONCILIATION"]
  completedAt : status.completedAt.isSome = true ↔
    status.status = "COMPLETED" ∨ status.status = "FAILED"

/-- A later answer about a conversion. -/
structure Follows (status status' : ConversionStatusResponse) : Prop where
  shown : status'.shown = status.shown
  createdAt : status'.createdAt = status.createdAt
  advances : status' = status ∨
    (status.status = "FUNDS_RESERVED" ∧ status'.status = "EXECUTION_REQUESTED") ∨
    ((status.status = "FUNDS_RESERVED" ∨ status.status = "EXECUTION_REQUESTED") ∧
      status'.status ∈ ["COMPLETED", "FAILED", "REQUIRES_RECONCILIATION"])

section Reads

variable {id : ConversionId} {row row' : ConversionRow} {conversion conversion' : Conversion}

/-- A status response reports the row it was read from. -/
theorem reports (h : ConversionValid env a id.value row)
    (hstored : conversion.StoredAs env id.value row) :
    Reports id (toConversionStatusResponse conversion) where
  conversionId := hstored.id_eq.symm
  known := by
    have hcreated := h.notCreated
    rw [hstored.status_eq] at hcreated
    simp only [toConversionStatusResponse]
    cases hs : conversion.status <;> first | exact absurd hs hcreated | decide
  completedAt := by
    obtain ⟨-, -, hlifecycle⟩ := ConversionRow.violated_eq_none.1 h.checks
    simp only [toConversionStatusResponse, Option.isSome_map]
    rw [ConversionRow.lifecycle, hstored.status_eq, hstored.completedAt_eq] at hlifecycle
    cases hs : conversion.status <;> rw [hs] at hlifecycle <;>
      simp_all [ConversionStatus.text, Option.isSome_iff_ne_none]

/-- **A later status response never goes back.** -/
theorem follows (hstored : conversion.StoredAs env id.value row)
    (hstored' : conversion'.StoredAs env id.value row') (h : ConversionEvolves row row') :
    Follows (toConversionStatusResponse conversion) (toConversionStatusResponse conversion') := by
  obtain ⟨-, -, -, hsource, htarget, hcreated⟩ := terms_of_evolves hstored hstored' h
  refine ⟨?_, ?_, ?_⟩
  · rw [shown_toConversionStatusResponse, shown_toConversionStatusResponse, hsource, htarget]
  · simp only [toConversionStatusResponse, hcreated]
  have hstatus := hstored.status_eq
  have hstatus' := hstored'.status_eq
  rcases h with rfl | ⟨hs, rfl⟩ | ⟨hs, outcome, now, rfl⟩
  · obtain rfl : conversion' = conversion :=
      Except.ok.inj (hstored'.toDomain.symm.trans hstored.toDomain)
    exact .inl rfl
  · refine .inr (.inl ⟨?_, ?_⟩)
    · simp only [toConversionStatusResponse, ← hstatus, hs, ConversionStatus.text]
    · simp only [toConversionStatusResponse, ← hstatus', ConversionStatus.text]
  · refine .inr (.inr ⟨?_, ?_⟩)
    · rcases hs with hs | hs <;>
        simp [toConversionStatusResponse, ← hstatus, hs, ConversionStatus.text]
    · cases outcome <;>
        simp [toConversionStatusResponse, ← hstatus', settledRow, ConversionStatus.text]

end Reads

/-- **What was found is found again**, with the same terms, and its status has only advanced. -/
theorem reads_advance (hwallets : InitialWallets wallets)
    (hrun : System.Reaches env (System.initial wallets) s) (hrun' : System.Reaches env s s')
    {isUuid : String → Bool} (id : ConversionId) (hid : isUuid id.value = true) :
    (∃ status', asked env isUuid id.value s'.db = (.returned ⟨[], .ok status'⟩, s'.db) ∧
      Reports id status' ∧
      (asked env isUuid id.value s.db =
          (.returned (ConversionsController.handle id.value .notFound), s.db) ∨
        ∃ status, asked env isUuid id.value s.db = (.returned ⟨[], .ok status⟩, s.db) ∧
          Reports id status ∧ Follows status status')) ∨
    (asked env isUuid id.value s'.db =
        (.returned (ConversionsController.handle id.value .notFound), s'.db) ∧
      asked env isUuid id.value s.db =
        (.returned (ConversionsController.handle id.value .notFound), s.db)) := by
  have hsound : Sound env wallets (fun _ _ ↦ True) s := sound_of_reaches hwallets hrun
  have hsound' := hsound.of_reaches hrun'
  rcases hrow' : s'.db.conversions.lookup id.value with - | row'
  · refine .inr ⟨asked_notFound id hid hrow', asked_notFound id hid ?_⟩
    rcases hrow : s.db.conversions.lookup id.value with - | row
    · rfl
    · obtain ⟨row', hkept, -⟩ := (hsound.evolves_of_reaches hrun').conversions _ row hrow
      rw [hrow'] at hkept
      cases hkept
  · have hvalid' := hsound'.inv.conversions _ row' hrow'
    obtain ⟨conversion', hstored'⟩ := hvalid'.stored
    refine .inl ⟨_, asked_found hid hrow' hstored', reports hvalid' hstored', ?_⟩
    rcases hrow : s.db.conversions.lookup id.value with - | row
    · exact .inl (asked_notFound id hid hrow)
    · have hvalid := hsound.inv.conversions _ row hrow
      obtain ⟨conversion, hstored⟩ := hvalid.stored
      obtain ⟨row'', hkept, hevolves⟩ := (hsound.evolves_of_reaches hrun').conversions _ row hrow
      obtain rfl : row' = row'' := Option.some.inj (hrow'.symm.trans hkept)
      exact .inr ⟨_, asked_found hid hrow hstored, reports hvalid hstored,
        follows hstored hstored' hevolves⟩

/-- The conversion of the sample run is found after its accept, and again after its settlement. -/
theorem reads_advance_sample : ∃ (s s' : System) (status status' : ConversionStatusResponse),
    asked .reference (fun _ ↦ true) "c-1" s.db = (.returned ⟨[], .ok status⟩, s.db) ∧
    asked .reference (fun _ ↦ true) "c-1" s'.db = (.returned ⟨[], .ok status'⟩, s'.db) ∧
    Follows status status' ∧ s'.db.conversions.lookup "c-1" ≠ s.db.conversions.lookup "c-1" := by
  have hrun : ∃ s, System.Reaches .reference (System.initial sampleWallets) s ∧
      s.db.conversions.lookup "c-1" ≠ none ∧
      (System.play .reference (fun _ _ ↦ True) s (callFor 3 (sampleExecute .SUCCESS) 12)).any
        (fun s' ↦ s'.db.conversions.lookup "c-1" ≠ s.db.conversions.lookup "c-1") = true :=
    System.exists_of_play sampleAccepted _ (by decide +kernel)
  obtain ⟨s, hreaches, hrow, hplay⟩ := hrun
  obtain ⟨s', hs', hne⟩ := (Option.any_eq_true _ _).1 hplay
  have hreaches' : System.Reaches .reference s s' := System.reaches_of_play hs'
  -- it is not unknown at the first state
  obtain ⟨row, hrow⟩ := Option.ne_none_iff_exists'.1 hrow
  have hsound : Sound .reference sampleWallets (fun _ _ ↦ True) s :=
    sound_of_reaches (by decide +kernel) hreaches
  obtain ⟨conversion, hstored⟩ := (hsound.inv.conversions _ row hrow).stored
  have hfound : asked .reference (fun _ ↦ true) "c-1" s.db =
      (.returned ⟨[], .ok (toConversionStatusResponse conversion)⟩, s.db) :=
    asked_found rfl hrow hstored
  have hknown : ∀ {x : Ending DbError Thrown (Handled ConversionStatusResponse) × Db},
      asked .reference (fun _ ↦ true) "c-1" s.db = x →
        x ≠ (.returned (ConversionsController.handle "c-1" .notFound), s.db) := by
    rintro _ hx rfl
    rw [hfound] at hx
    cases hx
  rcases @reads_advance _ _ _ _ (by decide +kernel) hreaches hreaches' (fun _ ↦ true)
    sampleConversionId rfl with
    ⟨status', hasked', -, hunknown | ⟨status, hasked, -, hfollows⟩⟩ | ⟨-, hunknown⟩
  · exact absurd rfl (hknown hunknown)
  · exact ⟨s, s', status, status', hasked, hasked', hfollows, of_decide_eq_true hne⟩
  · exact absurd rfl (hknown hunknown)

end Ledger

end WalletConversion
