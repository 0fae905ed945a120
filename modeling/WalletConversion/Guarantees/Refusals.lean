import WalletConversion.Foundation.Observations
import WalletConversion.Guarantees.Recovery
import WalletConversion.Guarantees.Responses
import WalletConversion.Ledger.Writes

/-!
# Why an accept is refused

A client that is told `QUOTE_NOT_FOUND` or `INSUFFICIENT_AVAILABLE_BALANCE` learns something about
the tables, which other calls were changing in the meantime. `Refuses` lists the refusals with their
texts, and what each of them says: the request is malformed, or there was a moment of the call at
which the tables gave the reason.

`accept_told` follows the accept through its statements: whatever it read, it ends with a response
or with a refusal whose reason it has read. It never throws, if the wallets can be read back. Over
runs, `accept_answered`: what it has read were the tables at moments of the call.
-/

namespace WalletConversion

open DecimalNotation Transactional Relation

namespace Ledger

variable {env : Platform} {opening : Table (String × String) WalletRow} {t : Task} {a b db : Db}

/-! ### Refusals -/

/-- The quote was accepted. -/
def QuoteTaken (id : String) (db : Db) : Prop :=
  ∃ row, db.quotes.lookup id = some row ∧ row.status = .ACCEPTED

/-- The wallet of the quote does not hold its amount, which has this asset and this text. -/
def Short (id code amount : String) (db : Db) : Prop :=
  ∃ row, db.quotes.lookup id = some row ∧ row.sourceAsset = code ∧
    Denotes amount.toList row.sourceAmount.1 ∧
    ∀ w, db.wallets.lookup (row.userId, row.sourceAsset) = some w →
      w.available.1 < row.sourceAmount.1

/-- **Why an accept is refused.** `At P` says that the tables had the property at a moment of the
call. -/
inductive Refuses (env : Platform) (At : (Db → Prop) → Prop) (command : AcceptQuoteCommand)
    (inputs : AcceptInputs) : ℕ → String → String → Prop where
  | invalidQuoteId (h : trim command.quoteId = "" ∨ 128 < utf16Length (trim command.quoteId)) :
      Refuses env At command inputs 400 "INVALID_QUOTE_ID"
        "quoteId must contain between 1 and 128 characters"
  | missingKey (h : trim command.idempotencyKey = "") :
      Refuses env At command inputs 400 "MISSING_IDEMPOTENCY_KEY"
        "Idempotency-Key header is required"
  | invalidKey (h : 255 < utf16Length (trim command.idempotencyKey) ∨
        AcceptQuoteUseCase.isVisibleAscii (trim command.idempotencyKey) = false) :
      Refuses env At command inputs 400 "INVALID_IDEMPOTENCY_KEY"
        "Idempotency-Key must contain at most 255 visible ASCII characters"
  | keyReused (h : At fun db ↦ ∃ rec,
      db.idempotency.lookup (trim command.idempotencyKey) = some rec ∧
        rec.requestHash ≠ AcceptQuoteUseCase.requestHash env (trim command.quoteId)) :
      Refuses env At command inputs 409 "IDEMPOTENCY_KEY_REUSE"
        "Idempotency-Key was already used with a different request fingerprint"
  | keyReleased (taken : At fun db ↦ db.idempotency.lookup (trim command.idempotencyKey) ≠ none)
      (released : At fun db ↦ db.idempotency.lookup (trim command.idempotencyKey) = none) :
      Refuses env At command inputs 409 "IDEMPOTENCY_RACE"
        "Idempotency key conflict; retry the request"
  | notFound (h : At fun db ↦ db.quotes.lookup (trim command.quoteId) = none) :
      Refuses env At command inputs 404 "QUOTE_NOT_FOUND"
        s!"Quote {trim command.quoteId} was not found"
  | alreadyAccepted (h : At (QuoteTaken (trim command.quoteId))) :
      Refuses env At command inputs 409 "QUOTE_ALREADY_ACCEPTED"
        s!"Quote {trim command.quoteId} has already been accepted"
  | expired (h : At fun db ↦ ∃ row, db.quotes.lookup (trim command.quoteId) = some row ∧
        row.status = .ACTIVE ∧ row.expiresAt.getTime < inputs.now.getTime) :
      Refuses env At command inputs 409 "QUOTE_EXPIRED"
        s!"Quote {trim command.quoteId} has expired and cannot be accepted"
  | conflict (open' : At fun db ↦ ∃ row, db.quotes.lookup (trim command.quoteId) = some row ∧
        row.status = .ACTIVE ∧ inputs.now.getTime ≤ row.expiresAt.getTime)
      (taken : At (QuoteTaken (trim command.quoteId))) :
      Refuses env At command inputs 409 "QUOTE_ACCEPT_CONFLICT"
        "Quote could not be accepted (expired or already accepted concurrently)"
  | insufficient (code amount : String) (h : At (Short (trim command.quoteId) code amount)) :
      Refuses env At command inputs 409 "INSUFFICIENT_AVAILABLE_BALANCE"
        (s!"Insufficient available {code} balance to reserve " ++ amount)

theorem Refuses.imp {At At' : (Db → Prop) → Prop} {command : AcceptQuoteCommand}
    {inputs : AcceptInputs} {statusCode : ℕ} {errorCode message : String}
    (h : Refuses env At command inputs statusCode errorCode message)
    (hAt : ∀ P, At P → At' P) : Refuses env At' command inputs statusCode errorCode message := by
  cases h with
  | invalidQuoteId h => exact .invalidQuoteId h
  | missingKey h => exact .missingKey h
  | invalidKey h => exact .invalidKey h
  | keyReused h => exact .keyReused (hAt _ h)
  | keyReleased taken released => exact .keyReleased (hAt _ taken) (hAt _ released)
  | notFound h => exact .notFound (hAt _ h)
  | alreadyAccepted h => exact .alreadyAccepted (hAt _ h)
  | expired h => exact .expired (hAt _ h)
  | conflict open' taken => exact .conflict (hAt _ open') (hAt _ taken)
  | insufficient code amount h => exact .insufficient code amount (hAt _ h)

/-- No call is answered that another one is in progress. -/
theorem Refuses.errorCode_ne {At : (Db → Prop) → Prop} {command : AcceptQuoteCommand}
    {inputs : AcceptInputs} {statusCode : ℕ} {errorCode message : String}
    (h : Refuses env At command inputs statusCode errorCode message) :
    errorCode ≠ "IDEMPOTENCY_IN_PROGRESS" := by
  cases h <;> decide

/-- What the endings of an accept say of the tables it has seen. -/
def Told (env : Platform) (command : AcceptQuoteCommand) (inputs : AcceptInputs)
    (r : Except Thrown AcceptQuoteResult) (seen : List Db) : Prop :=
  match r with
  | .ok (.error statusCode errorCode message) =>
    Refuses env (fun P ↦ ∃ db ∈ seen, P db) command inputs statusCode errorCode message
  | .ok _ => True
  | .error (.acceptAborted statusCode errorCode message) =>
    Refuses env (fun P ↦ ∃ db ∈ seen, P db) command inputs statusCode errorCode message
  | .error (.error _) => False

/-! ### What an open transaction leaves alone -/

theorem not_mem_keysOf {st : Stmt} {locked : LockKey → Bool} {r : st.Result} {ws : List Write}
    {key : LockKey} (hx : postgres.exec st locked db = .ok (r, ws))
    (h : ∀ w, st.Writes w → key ∉ w.keys) : key ∉ postgres.keysOf ws := by
  intro hmem
  obtain ⟨w, hw, hk⟩ := List.mem_flatMap.1 hmem
  exact h w (exec_writes hx w hw).1 hk

/-- Saving a conversion takes the locks of conversions. -/
theorem keys_upsertConversion {data : ConversionData} {locked : LockKey → Bool}
    {r : (Stmt.upsertConversion data).Result} {ws : List Write}
    (hx : postgres.exec (.upsertConversion data) locked db = .ok (r, ws)) :
    (∀ key, .idempotency key ∉ postgres.keysOf ws) ∧
      ∀ userId asset, .wallet userId asset ∉ postgres.keysOf ws := by
  refine ⟨fun key ↦ not_mem_keysOf hx fun w hw ↦ ?_,
    fun userId asset ↦ not_mem_keysOf hx fun w hw ↦ ?_⟩
  · cases w <;> first | exact hw.elim | simp [Write.keys]
  · cases w <;> first | exact hw.elim | simp [Write.keys]

theorem wallet_of_view {ws : List Write} {userId asset : String}
    (h : .wallet userId asset ∉ postgres.keysOf ws) (db : Db) :
    (postgres.applyAll db ws).wallets.lookup (userId, asset) = db.wallets.lookup (userId, asset) :=
  (postgres.same_applyAll h db).symm

theorem record_of_view {ws : List Write} {key : String}
    (h : .idempotency key ∉ postgres.keysOf ws) (db : Db) :
    (postgres.applyAll db ws).idempotency.lookup key = db.idempotency.lookup key :=
  (postgres.same_applyAll h db).symm

/-! ### The accept -/

section Accept

-- the statements of a program do not depend on how rows are read back or dates are written
attribute [local irreducible] PrismaQuoteRepository.toDomain PrismaWalletRepository.toDomain
  Date.timestampText

variable {command : AcceptQuoteCommand} {inputs : AcceptInputs} {seen : List Db}
  {o : Option (List Write)}

/-- An aborted accept gives its reason. -/
theorem abort_told {statusCode : ℕ} {errorCode message : String}
    (h : Refuses env (fun P ↦ ∃ db ∈ seen, P db) command inputs statusCode errorCode message) :
    (AcceptQuoteUseCase.abort statusCode errorCode message).Observes postgres
      (Valid env opening) Evolves (Told env command inputs) o seen :=
  Prog.observes_raise h

/-- The key is taken: it was used for another quote, or its record is replayed. -/
theorem existing_told
    (htaken : ∃ db ∈ seen, db.idempotency.lookup (trim command.idempotencyKey) ≠ none) :
    (AcceptQuoteUseCase.existing (trim command.idempotencyKey)
      (AcceptQuoteUseCase.requestHash env (trim command.quoteId))).Observes postgres
        (Valid env opening) Evolves (Told env command inputs) (some []) seen := by
  refine Prog.observes_statement (s := Stmt.findIdempotency (trim command.idempotencyKey))
    fun db hi _ ↦ ⟨db.idempotency.lookup (trim command.idempotencyKey), [], fun _ ↦ rfl, ?_⟩
  rcases hrec : db.idempotency.lookup (trim command.idempotencyKey) with - | rec
  · obtain ⟨db₀, hdb₀, hsome⟩ := htaken
    exact Prog.observes_ret (.keyReleased ⟨db₀, List.mem_cons_of_mem _ hdb₀, hsome⟩
      ⟨db, List.mem_cons_self, hrec⟩)
  · obtain ⟨c, row, body, -, hbody, -⟩ := (hi.records _ rec hrec).completed
    have hstatus := (hi.records _ rec hrec).status
    obtain ⟨scope, hash, _, _, conversionId, createdAt⟩ := rec
    cases hstatus
    cases hbody
    show Prog.Observes _ _ _ _ (ite _ _ _) _ _
    by_cases hhash : hash = AcceptQuoteUseCase.requestHash env (trim command.quoteId)
    · rw [if_neg (not_not_intro hhash)]
      exact Prog.observes_ret trivial
    · rw [if_pos hhash]
      exact Prog.observes_ret (.keyReused ⟨db, List.mem_cons_self, _, hrec, hhash⟩)

/-- **The last part** goes through: the key that the accept has claimed is still its own. -/
theorem finish_told {quote : Quote} {vs : List Write}
    (hclaim : ∀ db, (postgres.applyAll db vs).idempotency.lookup (trim command.idempotencyKey) =
      some (claimRow env command inputs)) (hvalid : AcceptQuoteUseCase.refused command = none) :
    (AcceptQuoteUseCase.finish (trim command.idempotencyKey) quote (createdConversion quote inputs)
      inputs).Observes postgres (Valid env opening) Evolves (Told env command inputs) (some vs)
      seen := by
  rw [finish_eq]
  refine Prog.observes_call fun db₁ locked₁ _ ws₁ _ _ hx₁ ↦
    Prog.observes_call fun db₂ locked₂ _ ws₂ _ _ hx₂ ↦
      Prog.observes_statement fun db₃ _ _ ↦ ⟨(1 : ℕ), [.putIdempotency (trim command.idempotencyKey)
        (recordRow env (trim command.quoteId) quote inputs)], ?_, Prog.observes_ret trivial⟩
  have hfree : .idempotency (trim command.idempotencyKey) ∉ postgres.keysOf (ws₁ ++ ws₂) := by
    rw [postgres.keysOf_append, List.mem_append, not_or]
    refine ⟨(keys_upsertConversion hx₁).1 _, not_mem_keysOf hx₂ fun w hw ↦ ?_⟩
    cases w <;> first | exact hw.elim | simp [Write.keys]
  have hrec : (postgres.applyAll db₃ (vs ++ ws₁ ++ ws₂)).idempotency.lookup
      (trim command.idempotencyKey) = some (claimRow env command inputs) := by
    rw [List.append_assoc, postgres.applyAll_append, record_of_view hfree, hclaim]
  exact exec_completeIdempotency hrec nonBlank_scope (nonBlank_key hvalid)
    (env.nonBlank_sha256Hex _)

/-- A quote keeps its terms. -/
theorem short_of_evolves {q : Quote} {row : QuoteRow} {id : String}
    (hstored : q.StoredAs env id row)
    (hrow : a.quotes.lookup id = some row) (hev : Evolves a b)
    (hshort : ∀ w, b.wallets.lookup (row.userId, row.sourceAsset) = some w →
      w.available.1 < q.sourceAmount.amount) :
    Short id q.sourceAsset.code (trimTrailingZeros q.sourceAmount.toString) b := by
  have hdenotes := q.sourceAmount.denotes_trimTrailingZeros
  rw [← hstored.source.amount_eq] at hdenotes hshort
  obtain ⟨row', hrow', rfl | ⟨-, at', rfl⟩⟩ := hev.quotes _ row hrow
  · exact ⟨_, hrow', hstored.source.code_eq, hdenotes, hshort⟩
  · exact ⟨_, hrow', hstored.source.code_eq, hdenotes, hshort⟩

/-- The wallet that an amount was reserved in is read back. -/
theorem toDomain_reserved (hreadable : ReadableWallets env opening) (hi : Valid env opening db)
    {q : Quote} {row : QuoteRow} {id : String} (hstored : q.StoredAs env id row) {w w' : WalletRow}
    (hw : db.wallets.lookup (row.userId, row.sourceAsset) = some w)
    (hreserves : Reserves q.sourceAmount.amount w w') (hchecks : w'.violated = none) :
    ∃ wallet, PrismaWalletRepository.toDomain env row.userId row.sourceAsset w' = .ok wallet := by
  obtain ⟨userId, asset, hasset, hkey, hr⟩ := hi.readable hreadable _ w hw
  obtain ⟨huser, hcode⟩ := Prod.mk.inj hkey
  have hfixed := isFixed_of_storedAs hstored.source hasset hcode.symm
  rw [hstored.source.amount_eq] at hfixed
  rw [huser, hcode]
  exact ⟨_, WalletRow.toDomain_of_readable (hreserves.readable hr hfixed hchecks) hasset userId⟩

/-- **The middle part**: it ends here if the quote was taken, or if the wallet does not hold
enough. -/
theorem convert_told (hreadable : ReadableWallets env opening)
    (hvalid : AcceptQuoteUseCase.refused command = none) {q : Quote} {row : QuoteRow}
    (hq : Acceptable env command inputs q row)
    (hseen : ∃ db ∈ seen, db.quotes.lookup (trim command.quoteId) = some row) :
    (AcceptQuoteUseCase.convert env (trim command.idempotencyKey) (q.accepted inputs.now)
      inputs).Observes postgres (Valid env opening) Evolves (Told env command inputs)
        (some [.putIdempotency (trim command.idempotencyKey) (claimRow env command inputs)])
          seen := by
  obtain ⟨db₀, hdb₀, hrow₀⟩ := hseen
  have hid : q.id.value = trim command.quoteId := hq.stored.id_eq.symm
  have htarget : q.targetAmount.amount ≠ 0 := by
    have hpos := (QuoteRow.violated_eq_none.1 hq.checks).1.2.1
    rw [hq.stored.target.amount_eq] at hpos
    exact hpos.ne'
  rw [convert_eq _ htarget, hid, ← hq.stored.user_eq, ← hq.stored.source.code_eq]
  -- the conditional update finds the quote as it was, or taken
  refine Prog.observes_statement fun db₁ _ hlater₁ ↦ ?_
  obtain ⟨row₁, hrow₁, rfl | ⟨-, at', rfl⟩⟩ := (hlater₁ db₀ hdb₀).quotes _ row hrow₀
  swap
  · refine ⟨none, [], exec_acceptQuote_of_not_active hrow₁ (by simp), abort_told (.conflict ?_ ?_)⟩
    · exact ⟨db₀, List.mem_cons_of_mem _ hdb₀, row, hrow₀, hq.active, hq.inTime⟩
    · exact ⟨db₁, List.mem_cons_self, _, hrow₁, rfl⟩
  refine ⟨some (acceptedRow row₁ inputs),
    [.putQuote (trim command.quoteId) (acceptedRow row₁ inputs)],
    exec_acceptQuote hrow₁ hq.active hq.inTime (acceptedRow_checks hq.checks), ?_⟩
  dsimp only
  rw [(stored_accepted hq.stored).toDomain, attempt_ok]
  refine Prog.observes_call fun db₂ _ _ ws _ _ hx ↦ Prog.observes_statement fun db₃ hi₃ hlater₃ ↦ ?_
  -- nothing that the accept has written is a wallet
  have hfree : .wallet row₁.userId row₁.sourceAsset ∉ postgres.keysOf
      ([.putIdempotency (trim command.idempotencyKey) (claimRow env command inputs)] ++
        [.putQuote (trim command.quoteId) (acceptedRow row₁ inputs)] ++ ws) := by
    rw [postgres.keysOf_append, List.mem_append, not_or]
    exact ⟨by simp [Write.keys], (keys_upsertConversion hx).2 _ _⟩
  have hview := wallet_of_view hfree db₃
  have hrefused : (∀ w, db₃.wallets.lookup (row₁.userId, row₁.sourceAsset) = some w →
      w.available.1 < q.sourceAmount.amount) → Refuses env
        (fun P ↦ ∃ db ∈ db₃ :: db₂ :: db₁ :: seen, P db) command inputs 409
        "INSUFFICIENT_AVAILABLE_BALANCE"
        (s!"Insufficient available {q.sourceAsset.code} balance to reserve " ++
          trimTrailingZeros q.sourceAmount.toString) := fun hshort ↦
    .insufficient _ _ ⟨db₃, List.mem_cons_self, short_of_evolves hq.stored hrow₁
      (hlater₃ db₁ (List.mem_cons_of_mem _ List.mem_cons_self)) hshort⟩
  rcases hw : db₃.wallets.lookup (row₁.userId, row₁.sourceAsset) with - | w
  · exact ⟨none, [], exec_reserveWallet_of_none (hview.trans hw),
      abort_told (hrefused fun w hw' ↦ by
      rw [hw] at hw'
      cases hw')⟩
  by_cases hle : q.sourceAmount.amount ≤ w.available.1
  swap
  · exact ⟨none, [], exec_reserveWallet_of_lt (hview.trans hw) hle,
      abort_told (hrefused fun w' hw' ↦ by
      rw [hw] at hw'
      cases hw'
      exact not_le.1 hle)⟩
  obtain ⟨w', hreserves, hchecks, hexec⟩ := exec_reserveWallet hq.stored.source.scale_le
    (hview.trans hw) (hi₃.wallets _ w hw) hle
  obtain ⟨wallet, hdomain⟩ := toDomain_reserved hreadable hi₃ hq.stored hw hreserves hchecks
  refine ⟨some w', _, hexec, ?_⟩
  dsimp only
  rw [hdomain, attempt_ok, Prog.handle_ret]
  refine finish_told (fun db ↦ ?_) hvalid
  rw [List.append_assoc, List.append_assoc, postgres.applyAll_append, record_of_view]
  · exact Finmap.lookup_insert _
  · simp only [postgres.keysOf_append, List.mem_append, not_or]
    exact ⟨by simp [Write.keys], (keys_upsertConversion hx).1 _, by simp [Write.keys]⟩

/-- **The first part**: it ends here if there is no such quote, or none to be accepted. -/
theorem claimed_told (hreadable : ReadableWallets env opening)
    (hvalid : AcceptQuoteUseCase.refused command = none) :
    (AcceptQuoteUseCase.claimed env (trim command.quoteId) (trim command.idempotencyKey)
      inputs).Observes postgres (Valid env opening) Evolves (Told env command inputs)
        (some [.putIdempotency (trim command.idempotencyKey) (claimRow env command inputs)])
          seen := by
  have hne : trim command.quoteId ≠ "" := by
    unfold AcceptQuoteUseCase.refused at hvalid
    simp only at hvalid
    split_ifs at hvalid with h₁
    exact fun he ↦ h₁ (Or.inl he)
  have hid : QuoteId.of (trim command.quoteId) = .ok ⟨trim command.quoteId, trim_trim _, hne⟩ :=
    QuoteId.of_value ⟨trim command.quoteId, trim_trim _, hne⟩
  simp only [AcceptQuoteUseCase.claimed, Prog.bind_eq_handle, hid, attempt_ok, Prog.handle_ret,
    PrismaQuoteRepository.findById, sql, Prog.handle_stmt, Prog.handle_call]
  refine Prog.observes_statement fun db hi _ ↦ ⟨db.quotes.lookup (trim command.quoteId), [],
    fun _ ↦ rfl, ?_⟩
  rcases hrow : db.quotes.lookup (trim command.quoteId) with - | row
  · exact abort_told (.notFound ⟨db, List.mem_cons_self, hrow⟩)
  obtain ⟨⟨q, hstored⟩, hchecks, -⟩ := hi.quotes _ row hrow
  simp only [hstored.toDomain, attempt_ok, Prog.handle_ret, Prog.pure_eq_ret, Quote.accept_call]
  by_cases hacc : q.status = .ACCEPTED
  · rw [if_pos hacc]
    have htaken : QuoteTaken (trim command.quoteId) db := ⟨row, hrow, hstored.status_eq.trans hacc⟩
    have herror : q.alreadyAccepted = ⟨.QuoteAlreadyAcceptedError,
        s!"Quote {trim command.quoteId} has already been accepted"⟩ := by
      rw [hstored.id_eq]
      rfl
    rw [herror]
    exact abort_told (.alreadyAccepted ⟨db, List.mem_cons_self, htaken⟩)
  have hactive : q.status = .ACTIVE := q.lifecycle.elim And.left fun hq ↦ absurd hq.1 hacc
  have hexpiry : row.expiresAt.getTime < inputs.now.getTime ↔ q.isExpired inputs.now = true := by
    rw [hstored.expiresAt_eq]
    simp [Quote.isExpired, hactive]
  by_cases hexp : q.isExpired inputs.now = true
  · rw [if_neg hacc, if_pos hexp]
    have herror : q.expired = ⟨.QuoteExpiredError,
        s!"Quote {trim command.quoteId} has expired and cannot be accepted"⟩ := by
      rw [hstored.id_eq]
      rfl
    rw [herror]
    exact abort_told (.expired ⟨db, List.mem_cons_self, row, hrow, hstored.status_eq.trans hactive,
      hexpiry.2 hexp⟩)
  rw [if_neg hacc, if_neg hexp]
  exact convert_told hreadable hvalid ⟨hstored, hstored.status_eq.trans hactive,
    not_lt.1 (mt hexpiry.1 hexp), hchecks⟩ ⟨db, List.mem_cons_self, hrow⟩

/-- **The body of the accept transaction.** -/
theorem work_told (hreadable : ReadableWallets env opening)
    (hvalid : AcceptQuoteUseCase.refused command = none) :
    (AcceptQuoteUseCase.work env (trim command.quoteId) (trim command.idempotencyKey)
      (AcceptQuoteUseCase.requestHash env (trim command.quoteId)) inputs).Observes postgres
        (Valid env opening) Evolves (Told env command inputs) (some []) seen := by
  rw [work_eq]
  refine Prog.observes_statement fun db _ _ ↦ ?_
  rcases hrec : db.idempotency.lookup (trim command.idempotencyKey) with - | rec
  · refine ⟨true, [.putIdempotency (trim command.idempotencyKey) (claimRow env command inputs)],
      exec_insertIdempotency_of_none nonBlank_scope (nonBlank_key hvalid)
        (env.nonBlank_sha256Hex _) hrec, ?_⟩
    rw [if_pos rfl, List.nil_append]
    exact claimed_told hreadable hvalid
  · refine ⟨false, [], exec_insertIdempotency_of_some hrec, ?_⟩
    rw [if_neg Bool.false_ne_true, List.nil_append]
    exact existing_told ⟨db, List.mem_cons_self, by rw [hrec]; exact Option.some_ne_none rec⟩

/-- A command that is malformed is refused with the reason. -/
theorem told_of_refused {result : AcceptQuoteResult}
    (h : AcceptQuoteUseCase.refused command = some result) :
    Told env command inputs (.ok result) seen := by
  unfold AcceptQuoteUseCase.refused at h
  simp only at h
  split_ifs at h with h₁ h₂ h₃
  · cases h
    exact .invalidQuoteId h₁
  · cases h
    exact .missingKey h₂
  · cases h
    exact .invalidKey h₃

/-- **The accept ends with a response, or with a refusal whose reason it has read.** -/
theorem accept_told (hreadable : ReadableWallets env opening) :
    (AcceptQuoteUseCase.execute env command inputs).Observes postgres (Valid env opening) Evolves
      (fun r seen ↦ (∃ result, r = .ok result) ∧ Told env command inputs r seen) none [] := by
  rcases hvalid : AcceptQuoteUseCase.refused command with - | result
  · simp only [AcceptQuoteUseCase.execute, hvalid]
    refine Prog.observes_handle (Prog.observes_bind ((Prog.observes_transaction
      (work_told hreadable hvalid)).mono fun r seen htold o ↦ ?_))
    rcases r with (e | ⟨statusCode, errorCode, message⟩) |
      (body | ⟨statusCode, body⟩ | ⟨statusCode, errorCode, message⟩)
    · exact htold.elim
    · exact fun _ ↦ Prog.observes_ret ⟨⟨_, rfl⟩, htold⟩
    · exact Prog.observes_ret fun _ ↦ Prog.observes_ret ⟨⟨_, rfl⟩, htold⟩
    · exact Prog.observes_ret fun _ ↦ Prog.observes_ret ⟨⟨_, rfl⟩, htold⟩
    · dsimp only
      rw [if_neg (Refuses.errorCode_ne htold)]
      exact Prog.observes_ret fun _ ↦ Prog.observes_ret ⟨⟨_, rfl⟩, htold⟩
  · simp only [AcceptQuoteUseCase.execute, hvalid]
    exact Prog.observes_ret ⟨⟨result, rfl⟩, told_of_refused hvalid⟩

end Accept

/-! ### Runs -/

/-- There was a moment of the call at which the tables had the property. -/
def During (env : Platform) (opening : Table (String × String) WalletRow) (s : System) (pid : ℕ)
    (t : Task) (P : Db → Prop) : Prop :=
  ∃ s₁, System.Reaches env (System.initial opening) s₁ ∧ System.Reaches env s₁ s ∧
    s₁.Running pid t ∧ P s₁.db

/-- How an accept ends, as a call of the application. -/
theorem task_told (hreadable : ReadableWallets env opening) (t : Task) :
    (t.program env).Observes postgres (Valid env opening) Evolves
      (fun r seen ↦ ∀ command inputs, t = .acceptQuote command inputs →
        ∃ result, r = .ok (.accept result) ∧ Told env command inputs (.ok result) seen)
          none [] := by
  cases t with
  | acceptQuote command inputs =>
    refine Prog.observes_bind ((accept_told hreadable).mono ?_)
    rintro _ seen ⟨⟨result, rfl⟩, htold⟩ o
    refine Prog.observes_ret ?_
    rintro _ _ ⟨⟩
    exact ⟨result, rfl, htold⟩
  | createQuote | execute | markPublished | cleanup =>
    exact Prog.observes_of_forall fun _ _ _ _ ht ↦ by cases ht

/-- **Every accept that ends is answered.** It is a success that tells of the conversion of the
quote, or it has written nothing and the client learns why: there was a moment of the call at which
the tables gave the reason. -/
theorem accept_answered (hwallets : InitialWallets opening)
    (hreadable : ReadableWallets env opening) {s : System}
    (hrun : System.Reaches env (System.initial opening) s)
    (hinjective : Set.InjOn env.sha256Hex (QuoteIds s)) {pid : ℕ}
    {p : Proc Write Stmt Stmt.Result Thrown Task TaskResult} {command : AcceptQuoteCommand}
    {inputs : AcceptInputs} (hp : s.procs.lookup pid = some p) (hlive : p.live = true)
    (htask : p.task = .acceptQuote command inputs)
    (hended : (∃ r, p.rest = .ret r) ∨ ∃ x, p.rest = .raise x) :
    ∃ result, p.rest = .ret (.accept result) ∧ ∀ statusName requestId,
      (∃ body, AcceptQuoteController.response statusName requestId (.ok result) =
          .success 201 body ∧
        (AcceptQuoteController.handle result).metrics = [.quoteAcceptanceTotal] ∧
        Tells env s.db body ∧ NamesConversion s.db (trim command.quoteId) body) ∨
      ∃ statusCode errorCode message,
        AcceptQuoteController.response statusName requestId (.ok result) =
          .failure ⟨statusCode, errorCode, .text message, requestId.filter (· ≠ "")⟩ ∧
        (AcceptQuoteController.handle result).metrics = .quoteAcceptanceFailedTotal errorCode ::
          (if errorCode = "INSUFFICIENT_AVAILABLE_BALANCE" then [.walletReservationConflictTotal]
            else []) ∧
        Refuses env (During env opening s pid p.task) command inputs statusCode errorCode message ∧
        p.durable = [] := by
  have hsound : Sound env opening (fun _ _ ↦ True) s := sound_of_reaches hwallets hrun
  -- the moments of the call explain its ending
  obtain ⟨seen, hmoments, hobserves⟩ := State.observed_of_reaches rfl (task_told hreadable)
    (fun s₁ h₁ ↦ (sound_of_reaches hwallets h₁ : Sound env opening (fun _ _ ↦ True) s₁).inv)
    (fun s₁ s₂ h₁ h₂ ↦
      (sound_of_reaches hwallets h₁ : Sound env opening (fun _ _ ↦ True) s₁).evolves_of_reaches h₂)
    hrun pid p hp hlive
  obtain ⟨result, hrest, htold⟩ : ∃ result, p.rest = .ret (.accept result) ∧
      Told env command inputs (.ok result) seen := by
    rcases hended with ⟨r, hrest⟩ | ⟨x, hrest⟩
    · rw [hrest] at hobserves
      obtain ⟨result, hr, htold⟩ := hobserves.of_ret _ _ htask
      cases hr
      exact ⟨result, hrest, htold⟩
    · rw [hrest] at hobserves
      obtain ⟨result, hr, -⟩ := hobserves.of_raise _ _ htask
      cases hr
  have hanswered : Answered s pid (trim command.idempotencyKey) (trim command.quoteId) result
      p.durable :=
    ⟨p, command, inputs, hp, htask, rfl, rfl, answerOf_eq_some.2 ⟨hlive, hrest⟩, rfl⟩
  have hanswer := (hsound.post_of_ret hp hlive hrest).2
  rw [htask] at hanswer
  refine ⟨result, hrest, fun statusName requestId ↦ ?_⟩
  have hsuccess : ∀ body, Succeeds body result → Tells env s.db body ∧
      NamesConversion s.db (trim command.quoteId) body := fun body hsucceeds ↦
    ⟨hanswered.tells hwallets hrun hsucceeds, hanswered.names hwallets hrun hinjective hsucceeds⟩
  cases result with
  | created body => exact .inl ⟨body, rfl, rfl, hsuccess body .created⟩
  | replay statusCode body =>
    obtain ⟨-, rfl, -⟩ := hanswer
    refine .inl ⟨body, ?_, ?_, hsuccess body (.replay 201)⟩
    · rw [AcceptQuoteController.response, AcceptQuoteController.handled,
        AcceptQuoteController.handle_replay]
      rfl
    · rw [AcceptQuoteController.handle_replay]
  | error statusCode errorCode message =>
    refine .inr ⟨statusCode, errorCode, message,
      AcceptQuoteController.response_error _ _ _ _ _, rfl,
      htold.imp fun P hmoment ↦ ?_, hanswer.1⟩
    obtain ⟨db, hdb, hP⟩ := hmoment
    obtain ⟨s₁, hbefore, hafter, hrunning, rfl⟩ := hmoments db hdb
    exact ⟨s₁, hbefore, hafter, hrunning, hP⟩

/-- The wallet of the sample run does not hold the amount of the quote, and the client is told. -/
theorem accept_answered_sample : ∃ (s : System) (t : Task) (command : AcceptQuoteCommand)
    (inputs : AcceptInputs), t = .acceptQuote command inputs ∧
    Refuses .reference (During .reference sampleWallets s 2 t) command inputs 409
      "INSUFFICIENT_AVAILABLE_BALANCE" "Insufficient available USDT balance to reserve 2000" := by
  have hrun : ∃ s, System.Reaches .reference (System.initial sampleWallets) s ∧
      (s.procs.lookup 2).bind (requestOf ·.task) = some ("key-1", "q-1") ∧
      (s.procs.lookup 2).bind answerOf = some (.error 409 "INSUFFICIENT_AVAILABLE_BALANCE"
        "Insufficient available USDT balance to reserve 2000") :=
    System.exists_of_play (callFor 1 (.createQuote ⟨"u-1", "USDT", "BTC", "2000"⟩ sampleQuoteId
      sampleTime) 1 ++ callFor 2 sampleAccept 7) _ (by decide +kernel)
  obtain ⟨s, hreaches, hrequest, hanswer⟩ := hrun
  obtain ⟨_, p, command, inputs, hp, htask, -, -, hresult, -⟩ :=
    answered_of_requestOf hrequest hanswer
  obtain ⟨hlive, hrest⟩ := answerOf_eq_some.1 hresult
  obtain ⟨result, hresult, hresponse⟩ := accept_answered (by decide +kernel) readable_sampleWallets
    hreaches referenceDigest_injective.injOn hp hlive htask (.inl ⟨_, hrest⟩)
  rw [hrest] at hresult
  cases hresult
  rcases hresponse (fun _ ↦ none) none with ⟨body, hsuccess, -⟩ |
    ⟨statusCode, errorCode, message, hfailure, -, hrefusal, -⟩
  · rw [AcceptQuoteController.response_error] at hsuccess
    cases hsuccess
  · rw [AcceptQuoteController.response_error] at hfailure
    cases hfailure
    exact ⟨s, p.task, command, inputs, htask, hrefusal⟩

end Ledger

end WalletConversion
