import WalletConversion.Application.Reference
import WalletConversion.Ledger.Calls

/-!
# Idempotency keys

What a client may rely on when it repeats an accept with the same key, over any interleaving of any
number of calls: while the record of a key is kept, all requests with the key tell one story. At
most one of them creates the conversion, the others replay its response or fail, and only the
creation writes (`idempotency_contract`).
-/

namespace WalletConversion

open Transactional Relation

namespace Ledger

variable {env : Platform} {wallets : Table (String × String) WalletRow} {s : System} {t : Task}
  {a b db : Db} {key : String}

/-! ### Records that are kept -/

/-- The record of the key is not deleted. -/
def RecordKept (key : String) (a b : Db) : Prop :=
  (a.idempotency.lookup key).isSome → (b.idempotency.lookup key).isSome

instance (key : String) (a b : Db) : Decidable (RecordKept key a b) :=
  inferInstanceAs (Decidable (_ → _))

/-- The record of the key stays as it is. -/
def RecordFixed (key : String) (a b : Db) : Prop :=
  ∀ rec, a.idempotency.lookup key = some rec → b.idempotency.lookup key = some rec

theorem RecordFixed.of_eq (h : b.idempotency = a.idempotency) : RecordFixed key a b :=
  fun _ hrec ↦ by rwa [h]

theorem RecordFixed.of_reflTransGen (h : ReflTransGen (RecordFixed key) a b) :
    RecordFixed key a b := by
  induction h with
  | refl => exact fun _ hrec ↦ hrec
  | tail _ hstep ih => exact fun rec hrec ↦ hstep rec (ih rec hrec)

/-- A commit changes a record by deleting it only. -/
theorem Commit.recordFixed (h : Commit env t a b) (hkept : RecordKept key a b) :
    RecordFixed key a b := by
  cases h with
  | @accepted command _ _ _ _ _ _ _ unclaimed =>
    intro rec hrec
    have hne : key ≠ trim command.idempotencyKey := by
      rintro rfl
      rw [hrec] at unclaimed
      cases unclaimed
    exact (Finmap.lookup_insert_of_ne _ hne).trans hrec
  | cleaned keys =>
    intro rec hrec
    obtain ⟨rec', hrec'⟩ := Option.isSome_iff_exists.1 (hkept (by rw [hrec]; rfl))
    have hold : a.idempotency.lookup key = some rec' := Table.lookup_of_foldl_erase hrec'
    rw [hrec] at hold
    cases hold
    exact hrec'
  | _ => exact .of_eq rfl

/-- **A run that keeps the record keeps it as it is.** -/
theorem reaches_fixed (hwallets : InitialWallets wallets)
    (h : ReachesWithin env (RecordKept key) (System.initial wallets) s) :
    ReachesWithin env (RecordFixed key) (System.initial wallets) s := by
  induction h with
  | refl => exact .refl
  | tail hrun hstep ih =>
    have hsound := sound_of_reaches hwallets hrun
    refine .tail ih ?_
    have hchange := hsound.change_of_step hstep
    obtain ⟨m, hadmissible, hm, hkept⟩ := hstep
    refine ⟨m, hadmissible, hm, ?_⟩
    rcases hchange with heq | ⟨_, _, _, _, _, _, _, _, _, _, hcommit⟩
    · exact .of_eq (by rw [heq])
    · exact Commit.recordFixed hcommit hkept

/-! ### Requests and their answers -/

/-- The answer of a request, once it has got one. -/
def answerOf (p : Proc Write Stmt Stmt.Result Thrown Task TaskResult) : Option AcceptQuoteResult :=
  match p.live, p.rest with
  | true, .ret (.accept result) => some result
  | _, _ => none

theorem answerOf_eq_some {p : Proc Write Stmt Stmt.Result Thrown Task TaskResult}
    {result : AcceptQuoteResult} :
    answerOf p = some result ↔ p.live = true ∧ p.rest = .ret (.accept result) := by
  unfold answerOf
  split
  · rename_i hlive hrest
    simp [hlive, hrest]
  · rename_i hother
    refine ⟨fun h ↦ (by cases h), fun ⟨hlive, hrest⟩ ↦ ?_⟩
    exact (hother result hlive hrest).elim

/-- A request with the key for the quote, with the answer it got and what it has written. -/
def Answered (s : System) (pid : ℕ) (key quoteId : String) (result : AcceptQuoteResult)
    (written : List Write) : Prop :=
  ∃ p command inputs, s.procs.lookup pid = some p ∧ p.task = .acceptQuote command inputs ∧
    trim command.idempotencyKey = key ∧ trim command.quoteId = quoteId ∧
    answerOf p = some result ∧ p.durable = written

/-- A request with the key that threw, with what it has written. -/
def Threw (s : System) (pid : ℕ) (key : String) (written : List Write) : Prop :=
  ∃ p command inputs x, s.procs.lookup pid = some p ∧ p.live = true ∧
    p.task = .acceptQuote command inputs ∧ trim command.idempotencyKey = key ∧
    p.rest = .raise x ∧ p.durable = written

/-- The quote ids that requests or quotes of the state have. -/
def QuoteIds (s : System) : Set String :=
  {id | (∃ row, s.db.quotes.lookup id = some row) ∨ ∃ pid p command inputs,
    s.procs.lookup pid = some p ∧ p.task = .acceptQuote command inputs ∧ trim command.quoteId = id}

/-- What a request may be answered, and what it may have written, when the record of its key holds
the body for the quote. -/
inductive Answers (quoteId : String) (body : AcceptQuoteSuccessBody) :
    String → AcceptQuoteResult → List Write → Prop
  | created (written : List Write) : Answers quoteId body quoteId (.created body) written
  | replay : Answers quoteId body quoteId (.replay 201 body) []
  | error (other : String) (statusCode : ℕ) (errorCode message : String) :
    Answers quoteId body other (.error statusCode errorCode message) []

/-- The body names the one conversion of the quote. -/
def NamesConversion (db : Db) (quoteId : String) (body : AcceptQuoteSuccessBody) : Prop :=
  body.quoteId = quoteId ∧
    (∃ row, db.conversions.lookup body.conversionId = some row ∧ row.quoteId = quoteId) ∧
    ∀ c row, db.conversions.lookup c = some row → row.quoteId = quoteId → c = body.conversionId

/-- **What all requests with one key agree on.** -/
structure KeyContract (s : System) (key : String) : Prop where
  /-- At most one request creates. -/
  createdOnce : ∀ pid pid' quoteId quoteId' body body' ws ws',
    Answered s pid key quoteId (.created body) ws →
    Answered s pid' key quoteId' (.created body') ws' → pid = pid'
  /-- Without a record no request has succeeded, and none has written. -/
  unclaimed : s.db.idempotency.lookup key = none → ∀ pid quoteId result ws,
    Answered s pid key quoteId result ws →
    ws = [] ∧ ∃ statusCode errorCode message, result = .error statusCode errorCode message
  /-- With a record every request is the creation, a replay of its body, or an error. -/
  claimed : ∀ rec, s.db.idempotency.lookup key = some rec → ∃ quoteId body,
    rec.responseBody = some body ∧ NamesConversion s.db quoteId body ∧
    ∀ pid other result ws, Answered s pid key other result ws →
      Answers quoteId body other result ws
  /-- A request that threw has written nothing. -/
  threw : ∀ pid ws, Threw s pid key ws → ws = []

section Contract

variable {pid : ℕ} {quoteId : String} {result : AcceptQuoteResult} {ws : List Write}

theorem Answered.answer {observed : Db → Db → Prop} (h : Sound env wallets observed s)
    (hanswered : Answered s pid key quoteId result ws) : ∃ p command inputs,
    s.procs.lookup pid = some p ∧ p.task = .acceptQuote command inputs ∧
    trim command.idempotencyKey = key ∧ trim command.quoteId = quoteId ∧
    AcceptAnswer env wallets observed command inputs (.ok result) ws s.db := by
  obtain ⟨p, command, inputs, hp, htask, hkey, hquote, hresult, rfl⟩ := hanswered
  obtain ⟨hlive, hrest⟩ := answerOf_eq_some.1 hresult
  have hanswer := (h.post_of_ret hp hlive hrest).2
  rw [htask] at hanswer
  exact ⟨p, command, inputs, hp, htask, hkey, hquote, hanswer⟩

/-- A record that was seen is still there. -/
theorem Recorded.lookup {rec : IdempotencyRow}
    (h : Recorded env wallets (RecordFixed key) key rec db) :
    db.idempotency.lookup key = some rec := by
  obtain ⟨db₀, -, hrec, -, hfixed⟩ := h
  exact RecordFixed.of_reflTransGen hfixed rec hrec

/-- The record a successful request leaves or finds: it is about the quote of the request. -/
theorem Answered.record (h : Sound env wallets (RecordFixed key) s)
    (hanswered : Answered s pid key quoteId result ws) :
    (ws = [] ∧ ∃ statusCode errorCode message, result = .error statusCode errorCode message) ∨
    ∃ rec body, s.db.idempotency.lookup key = some rec ∧
      rec.requestHash = AcceptQuoteUseCase.requestHash env quoteId ∧
      rec.responseBody = some body ∧
      (result = .created body ∨ (result = .replay 201 body ∧ ws = [])) := by
  obtain ⟨p, command, inputs, -, -, rfl, rfl, hanswer⟩ := hanswered.answer h
  cases result with
  | created body =>
    obtain ⟨-, rec, hrec, hhash, hbody, -⟩ := hanswer
    exact Or.inr ⟨rec, body, hrec.lookup, hhash, hbody, Or.inl rfl⟩
  | replay statusCode body =>
    obtain ⟨hws, rfl, rec, hrec, hhash, hbody⟩ := hanswer
    exact Or.inr ⟨rec, body, hrec.lookup, hhash, hbody, Or.inr ⟨rfl, hws⟩⟩
  | error statusCode errorCode message =>
    exact Or.inl ⟨hanswer.1, statusCode, errorCode, message, rfl⟩

theorem Answered.mentions (h : Answered s pid key quoteId result ws) : quoteId ∈ QuoteIds s := by
  obtain ⟨p, command, inputs, hp, htask, -, hquote, -, -⟩ := h
  exact Or.inr ⟨pid, p, command, inputs, hp, htask, hquote⟩

theorem Sound.keyContract (h : Sound env wallets (RecordFixed key) s)
    (hinjective : Set.InjOn env.sha256Hex (QuoteIds s)) : KeyContract s key where
  createdOnce := by
    intro pid pid' quoteId quoteId' body body' ws ws' hcreated hcreated'
    obtain ⟨p, command, inputs, hp, htask, hkey, -, -, rec, hrec, -, -, hid⟩ := hcreated.answer h
    obtain ⟨p', command', inputs', hp', htask', hkey', -, -, rec', hrec', -, -, hid'⟩ :=
      hcreated'.answer h
    rw [hkey] at hrec
    rw [hkey'] at hrec'
    -- both generated the conversion id of the one record
    have hsame : inputs.conversionId.value = inputs'.conversionId.value := by
      have hrecs := hrec.lookup.symm.trans hrec'.lookup
      cases hrecs
      exact Option.some.inj (hid.symm.trans hid')
    by_contra hne
    have hdisjoint : p.task.generatedIds.Disjoint p'.task.generatedIds :=
      h.compat pid pid' p p' hne hp hp'
    rw [htask, htask'] at hdisjoint
    exact hdisjoint List.mem_cons_self (hsame ▸ List.mem_cons_self)
  unclaimed := by
    intro hnone pid quoteId result ws hanswered
    rcases hanswered.record h with herror | ⟨rec, body, hrec, -⟩
    · exact herror
    · rw [hnone] at hrec
      cases hrec
  claimed := by
    intro rec hrec
    obtain ⟨c, row, body, -, hbody, hrow, hc, hquote, hhash⟩ :=
      (h.inv.records key rec hrec).completed
    refine ⟨row.quoteId, body, hbody, ⟨hquote, ⟨row, hc ▸ hrow, rfl⟩, ?_⟩, ?_⟩
    · intro c' row' hrow' hid
      rw [hc]
      exact h.inv.oneConversion _ _ _ _ hrow' hrow hid
    · intro pid other result ws hanswered
      rcases hanswered.record h with
        ⟨rfl, statusCode, errorCode, message, rfl⟩ | ⟨rec', body', hrec', hhash', hbody', hresult⟩
      · exact .error _ _ _ _
      · rw [hrec] at hrec'
        cases hrec'
        rw [hbody] at hbody'
        cases hbody'
        -- the record has the hash of one quote id only
        have hother : other = row.quoteId := by
          obtain ⟨q, hq, -⟩ := (h.inv.conversions c row hrow).quote
          exact hinjective hanswered.mentions (Or.inl ⟨q, hq⟩) (hhash'.symm.trans hhash)
        subst hother
        rcases hresult with rfl | ⟨rfl, rfl⟩
        · exact .created _
        · exact .replay
  threw := by
    rintro pid ws ⟨p, command, inputs, x, hp, hlive, htask, -, hrest, rfl⟩
    have hanswer := (h.post_of_raise hp hlive hrest).2
    rw [htask] at hanswer
    exact hanswer

end Contract

/-- **The contract of an idempotency key**, as long as its record is not deleted and the digests of
different quote ids differ. -/
theorem idempotency_contract (hwallets : InitialWallets wallets)
    (hrun : ReachesWithin env (RecordKept key) (System.initial wallets) s)
    (hinjective : Set.InjOn env.sha256Hex (QuoteIds s)) : KeyContract s key :=
  Sound.keyContract (sound_of_reaches hwallets (reaches_fixed hwallets hrun)) hinjective

/-- One request creates, the second replays, and a third for another quote fails. -/
theorem idempotency_contract_sample : ∃ (s : System) (body : AcceptQuoteSuccessBody),
    (((s.procs.lookup 2).bind answerOf) = some (.created body) ∧
      ((s.procs.lookup 3).bind answerOf) = some (.replay 201 body) ∧
      ((s.procs.lookup 4).bind answerOf) = some (.error 409 "IDEMPOTENCY_KEY_REUSE"
        "Idempotency-Key was already used with a different request fingerprint")) ∧
    KeyContract s "key-1" := by
  have hrun : ∃ s, ReachesWithin .reference (RecordKept "key-1") (System.initial sampleWallets) s ∧
      (((s.procs.lookup 2).bind answerOf) = some (.created sampleBody) ∧
        ((s.procs.lookup 3).bind answerOf) = some (.replay 201 sampleBody) ∧
        ((s.procs.lookup 4).bind answerOf) = some (.error 409 "IDEMPOTENCY_KEY_REUSE"
          "Idempotency-Key was already used with a different request fingerprint")) :=
    System.exists_of_play (sampleAccepted ++
      callFor 3 (.acceptQuote ⟨"q-1", " key-1 "⟩
        ⟨sampleTime, .ofText "c-2", .ofText "e-2", sampleTime, 0⟩) 4 ++
      callFor 4 (.acceptQuote ⟨"q-2", "key-1"⟩
        ⟨sampleTime, .ofText "c-3", .ofText "e-3", sampleTime, 0⟩) 4) _ (by decide +kernel)
  obtain ⟨s, hreaches, hs⟩ := hrun
  exact ⟨s, sampleBody, hs, idempotency_contract (by decide +kernel) hreaches
    referenceDigest_injective.injOn⟩

end Ledger

end WalletConversion
