import WalletConversion.Ledger.Exchange

/-!
# The settlement transaction keeps the contract

The settlement claims the event, reads the conversion again, moves the money, and stores the
conversion. The claim decides between the workers of one event: whoever loses it changes nothing,
and whoever wins it finds the conversion still waiting (`Settling`), whatever it read before.

The statements are treated from the last to the first: `save_wp`, `credit_wp`, `pay_wp` and
`release_wp`, and `settlement_wp` for the whole transaction.
-/

namespace WalletConversion

open DecimalNotation Transactional Escrow

namespace Ledger

variable {env : Platform} {opening : Table (String × String) WalletRow}
  {observed : Db → Db → Prop} {t : Task} {a b db : Db}
  {payload : ConversionExecutionRequestedPayload} {inputs : ExecuteInputs} {row : ConversionRow}
  {outcome : ExecutionOutcome} {k : Conversion}

/-! ### The statements of a settlement -/

-- the statements of a program do not depend on how rows are read back
attribute [local irreducible] PrismaWalletRepository.toDomain PrismaConversionRepository.toDomain

/-- The conversion after its result arrived. -/
def outcomeConversion (k : Conversion) (outcome : ExecutionOutcome) (now : Date) : Conversion :=
  match outcome with
  | .SUCCESS => k.completed now
  | .FAILURE => k.failed now (some "simulated_exchange_failure")
  | .UNKNOWN => k.reconciling (some "simulated_exchange_timeout")

theorem applyExecutionResult_requested {k : Conversion} (hs : k.status = .EXECUTION_REQUESTED)
    (order : ExecuteConversionCommand) (now : Date) :
    (Conversion.applyExecutionResult outcome now
      (FakeExchangeAdapter.buildResult order outcome).reason).call k =
      .ok (outcomeConversion k outcome now) := by
  cases outcome <;> simp only [Mutation.call, Conversion.applyExecutionResult, hs] <;> rfl

/-- The reasons of the outcomes are two texts. -/
theorem storable_outcome {k : Conversion} (h : k.Storable) (outcome : ExecutionOutcome)
    (now : Date) : (outcomeConversion k outcome now).Storable := by
  cases outcome with
  | SUCCESS => exact { h with reason := fun _ hreason ↦ by cases hreason }
  | FAILURE => exact { h with reason := by rintro _ ⟨⟩; decide }
  | UNKNOWN => exact { h with reason := by rintro _ ⟨⟩; decide }

/-- What a settlement stores is the settled row. -/
theorem settledRow_eq {k : Conversion} {c : String} (hk : k.StoredAs env c row) (now : Date) :
    settledRow row outcome now =
      { row with
        status := (outcomeConversion k outcome now).status
        exchangeExecutionId := (outcomeConversion k outcome now).exchangeExecutionId
        failureReason := (outcomeConversion k outcome now).failureReason
        completedAt := (outcomeConversion k outcome now).completedAt } := by
  cases outcome <;>
    simp [settledRow, outcomeConversion, Conversion.completed, Conversion.failed,
      Conversion.reconciling, hk.execution_eq, hk.completedAt_eq]

/-! The statements of a settlement, from the last to the first. -/

/-- Store the conversion. -/
def savePart (k : Conversion) (settled : Bool) : App (Option Bool) :=
  .call (.upsertConversion (PrismaConversionRepository.data k)) fun _ ↦ .ret (some settled)

/-- Read a wallet row back, if one was updated, and go on. -/
def thenRead (env : Platform) (userId : UserId) (asset : Asset) (missing : JsError)
    (next : App (Option Bool)) : Option WalletRow → App (Option Bool)
  | none => attempt (.error missing)
  | some row =>
    (attempt (PrismaWalletRepository.toDomain env userId.value asset.code row)).handle
      (fun _ ↦ next) .raise

/-- Credit the target wallet. -/
def creditPart (env : Platform) (k : Conversion) (next : App (Option Bool)) : App (Option Bool) :=
  .call (.creditWallet k.userId.value k.targetAmount.asset.code k.targetAmount.toString)
    (thenRead env k.userId k.targetAmount.asset ⟨.WalletNotFoundError,
      s!"No wallet found for user {k.userId.value} in {k.targetAmount.asset.code}"⟩ next)

/-- Pay the source amount and open the target wallet. -/
def payPart (env : Platform) (k : Conversion) (walletId : Uuid) (next : App (Option Bool)) :
    App (Option Bool) :=
  .call (.commitWallet k.userId.value k.sourceAmount.asset.code k.sourceAmount.toString)
    (thenRead env k.userId k.sourceAmount.asset
      (PrismaWalletRepository.cannot "commit reservation of" k.userId k.sourceAmount.asset
        k.sourceAmount)
      (.call (.insertWallet walletId.value k.userId.value k.targetAmount.asset.code) fun _ ↦
        creditPart env k next))

/-- Free the source amount. -/
def releasePart (env : Platform) (k : Conversion) (next : App (Option Bool)) :
    App (Option Bool) :=
  .call (.releaseWallet k.userId.value k.sourceAmount.asset.code k.sourceAmount.toString)
    (thenRead env k.userId k.sourceAmount.asset
      (PrismaWalletRepository.cannot "release" k.userId k.sourceAmount.asset k.sourceAmount) next)

/-- **The code of a registered asset is not blank.** -/
theorem nonBlank_code {asset : Asset} (h : asset ∈ env.registry.assets) :
    nonBlank asset.code = true := by
  have hnormal := env.registry.normalized _ h
  by_contra hblank
  have hall : ∀ c ∈ asset.code.toList, isWhiteSpace c = true := by
    intro c hc
    rw [nonBlank, List.any_eq_true] at hblank
    have hspace : c = ' ' := by
      by_contra hne
      exact hblank ⟨c, hc, by simpa using hne⟩
    rw [hspace]
    decide
  have htrim : trim asset.code = "" := by
    rw [trim, List.dropWhile_eq_nil_iff.2 hall, List.rdropWhile_nil, String.ofList_nil]
  rw [Asset.normalize, htrim] at hnormal
  cases hnormal

/-- `ensureTargetWallet` is one statement. -/
theorem ensureTargetWallet_eq {asset : Asset} (hscale : asset.scale ≤ 18) (userId : UserId)
    (walletId : Uuid) : ProcessConversionExecutionUseCase.ensureTargetWallet userId asset walletId =
      sql (.insertWallet walletId.value userId.value asset.code) := by
  have hreadable : (emptyWallet walletId.value).Readable asset :=
    readable_of_zero rfl rfl rfl asset
  have hzero : (WalletRow.account userId hreadable).balance = Money.zero asset := rfl
  have hinvariant := WalletRow.assertInvariant_account hreadable hscale userId
  have hopened : WalletAccount.opened walletId.value userId asset (Money.zero asset) =
      .ok (WalletRow.account userId hreadable) := by
    refine (if_pos rfl).trans ?_
    show ((WalletRow.account userId hreadable).assertInvariant.bind fun _ ↦
      .ok (WalletRow.account userId hreadable)) = _
    rw [hinvariant]
    rfl
  rw [ProcessConversionExecutionUseCase.ensureTargetWallet, hopened, attempt_ok]
  show PrismaWalletRepository.createIfMissing (WalletRow.account userId hreadable) = _
  rw [PrismaWalletRepository.createIfMissing, hzero, Money.isZero, if_pos (by simp [Money.zero])]
  rfl

/-- A wallet row whose reading back is only checked. -/
theorem thenRead_some {userId : UserId} {asset : Asset} {missing : JsError}
    {next : App (Option Bool)} {f : WalletAccount → App (Option Bool)}
    {g : Thrown → App (Option Bool)} {row : WalletRow} (hf : ∀ w, f w = next)
    (hg : ∀ x, g x = .raise x) :
    (attempt (PrismaWalletRepository.toDomain env userId.value asset.code row)).handle f g =
      thenRead env userId asset missing next (some row) := by
  obtain rfl : f = fun _ ↦ next := funext hf
  obtain rfl : g = Prog.raise := funext hg
  rfl

/-- The statements of a settlement with its outcome. -/
theorem applyOutcome_eq (hs : k.status = .EXECUTION_REQUESTED)
    (hscale : k.targetAmount.asset.scale ≤ 18) (order : ExecuteConversionCommand) (now : Date)
    (walletId : Uuid) (settled : Bool) :
    (ProcessConversionExecutionUseCase.applyOutcome env k outcome now
      (FakeExchangeAdapter.buildResult order outcome).reason walletId).handle
        (fun _ ↦ .ret (some settled)) .raise =
      match outcome with
      | .SUCCESS => payPart env k walletId (savePart (outcomeConversion k .SUCCESS now) settled)
      | .FAILURE => releasePart env k (savePart (outcomeConversion k .FAILURE now) settled)
      | .UNKNOWN => savePart (outcomeConversion k .UNKNOWN now) settled := by
  have hmoves : ProcessConversionExecutionUseCase.movesFunds k = true := by
    simp [ProcessConversionExecutionUseCase.movesFunds, hs]
  have hsave : ∀ outcome, (ProcessConversionExecutionUseCase.saveOutcome k outcome now
      (FakeExchangeAdapter.buildResult order outcome).reason).handle
        (fun _ ↦ Prog.ret (some settled)) .raise =
      savePart (outcomeConversion k outcome now) settled := fun outcome ↦ by
    rw [ProcessConversionExecutionUseCase.saveOutcome, applyExecutionResult_requested hs]
    rfl
  cases outcome with
  | SUCCESS =>
    simp only [ProcessConversionExecutionUseCase.applyOutcome, hs, reduceCtorEq, if_false,
      ProcessConversionExecutionUseCase.settleWallets, hmoves, if_true, Prog.bind_eq_handle,
      PrismaWalletRepository.commitReservation, PrismaWalletRepository.credit,
      ensureTargetWallet_eq hscale, sql, Prog.handle_handle, Prog.handle_stmt, Prog.handle_call,
      payPart, creditPart]
    refine congrArg (Prog.call _) (funext fun r ↦ ?_)
    cases r with
    | none => rfl
    | some r =>
      refine thenRead_some (fun _ ↦ congrArg (Prog.call _) (funext fun _ ↦
        congrArg (Prog.call _) (funext fun v ↦ ?_))) fun _ ↦ rfl
      cases v with
      | none => rfl
      | some v => exact thenRead_some (fun _ ↦ hsave .SUCCESS) fun _ ↦ rfl
  | FAILURE =>
    simp only [ProcessConversionExecutionUseCase.applyOutcome, hs, reduceCtorEq, if_false,
      ProcessConversionExecutionUseCase.releaseWallet, hmoves, if_true, Prog.bind_eq_handle,
      PrismaWalletRepository.release, sql, Prog.handle_handle, Prog.handle_stmt, releasePart]
    refine congrArg (Prog.call _) (funext fun r ↦ ?_)
    cases r with
    | none => rfl
    | some r => exact thenRead_some (fun _ ↦ hsave .FAILURE) fun _ ↦ rfl
  | UNKNOWN => exact hsave .UNKNOWN

/-! ### From the last statement to the first -/

/-- The claim of the event is won: its conversion waits for the result the exchange has recorded. -/
structure Settling (env : Platform) (payload : ConversionExecutionRequestedPayload)
    (row : ConversionRow) (outcome : ExecutionOutcome) (db : Db) : Prop where
  terms : Matches env payload row
  status : row.status = .EXECUTION_REQUESTED
  lookup : db.conversions.lookup payload.conversionId = some row
  unclaimed : db.processed.lookup payload.eventId = none
  exchange : Exchanged payload row outcome db

/-- The claim of the event keeps its conversion waiting. -/
theorem Settling.of_rely {held : List LockKey} (h : Settling env payload row outcome a)
    (hr : (ledger env opening observed).Rely t held a b) (hi : Valid env opening b)
    (hheld : .processed payload.eventId ∈ held) : Settling env payload row outcome b := by
  have hev := evolves_of_rely hr
  have hunclaimed : b.processed.lookup payload.eventId = none :=
    (hr.same hheld).symm.trans h.unclaimed
  exact
    { terms := h.terms
      status := h.status
      lookup := hi.waiting (Known.evolves ⟨h.terms, row, h.lookup, .refl row⟩ hev) h.status
        hunclaimed
      unclaimed := hunclaimed
      exchange := hev.exchange _ _ h.exchange }

theorem Settling.settles (h : Settling env payload row outcome a) (hi : Valid env opening a) :
    Settles a payload payload.conversionId row outcome where
  id_eq := rfl
  lookup := h.lookup
  status := h.status
  event := h.terms.event
  distinct := (ConversionRow.violated_eq_none.1 (hi.conversions _ _ h.lookup).checks).2.1
  unclaimed := h.unclaimed
  exchange := h.exchange

/-- A settlement may lock its source wallet. -/
theorem Settling.mayLock_source (h : Settling env payload row outcome db)
    (hk : k.StoredAs env payload.conversionId row) {w' : WalletRow} :
    ∀ key ∈ postgres.keysOf [.putWallet k.userId.value k.sourceAmount.asset.code w'],
      MayLock (.execute payload inputs) db key := by
  rw [← hk.user_eq, ← hk.source.code_eq]
  simp [Write.keys, MayLock, h.lookup]

/-- The row of the claim. -/
def claimedRow (payload : ConversionExecutionRequestedPayload) (outcome : ExecutionOutcome)
    (inputs : ExecuteInputs) : ProcessedRow :=
  ⟨payload.conversionId, outcome, inputs.databaseNow⟩

/-- What the body of a settlement establishes. -/
def SettlementBody (env : Platform) (opening : Table (String × String) WalletRow)
    (payload : ConversionExecutionRequestedPayload) (inputs : ExecuteInputs)
    (r : Except Thrown (Option Bool)) (o : Option (List Write)) (_ : List Write) (db : Db) : Prop :=
  Valid env opening db ∧ ∃ vs, o = some vs ∧
    match r with
    | .ok none => vs = [] ∧ Settled payload db
    | .ok (some _) => Commit env (.execute payload inputs) db (postgres.applyAll db vs) ∧
        Settled payload (postgres.applyAll db vs)
    | .error _ => ¬ ReadableWallets env opening

/-- **The last statement** stores the conversion, and the transaction is a commit. -/
theorem save_wp {vs d : List Write} (hset : Settling env payload row outcome db)
    (hk : k.StoredAs env payload.conversionId row)
    (hview : ∀ db, (postgres.applyAll db vs).conversions = db.conversions)
    (hheld : .processed payload.eventId ∈ postgres.keysOf vs)
    (hrank : ∀ key ∈ postgres.keysOf vs, key.rank < 4)
    (hcommit : ∀ db', (ledger env opening observed).Rely (.execute payload inputs)
        (postgres.keysOf vs) db db' → Valid env opening db' →
      Settling env payload row outcome db' →
      Commit env (.execute payload inputs) db' (postgres.applyAll db' (vs ++
        [.updateConversion payload.conversionId (settledRow row outcome inputs.now)]))) :
    (ledger env opening observed).wp (.execute payload inputs)
      (savePart (outcomeConversion k outcome inputs.now) true)
      (SettlementBody env opening payload inputs) (some vs) d db := by
  have hid : (outcomeConversion k outcome inputs.now).id.value = payload.conversionId := by
    rw [hk.id_eq]
    cases outcome <;> rfl
  refine wp_statement fun db₁ hr₁ hi₁ ↦ ?_
  have hset₁ := hset.of_rely hr₁ hi₁ hheld
  have hchecks : (settledRow row outcome inputs.now).violated = none :=
    ConversionEvolves.checks (Or.inr (Or.inr ⟨Or.inr hset.status, outcome, inputs.now, rfl⟩))
      (hi₁.conversions _ row hset₁.lookup).checks
  have hold : (postgres.applyAll db₁ vs).conversions.lookup
      (outcomeConversion k outcome inputs.now).id.value = some row := by
    rw [hview, hid]
    exact hset₁.lookup
  have hexec := exec_saveConversion_old (storable_outcome hk.storable outcome inputs.now) hold
    (settledRow_eq hk inputs.now) hchecks
  rw [hid] at hexec
  refine ⟨(), _, hexec, .of_lt (by simp [Write.keys, MayLock]) ?_,
    Contract.wp_ret fun db₂ hr₂ hi₂ ↦ ?_⟩
  · intro key hkey held hmem
    obtain rfl : key = .conversion payload.conversionId := by simpa [Write.keys] using hkey
    exact hrank held hmem
  · rw [postgres.held_some, postgres.keysOf_append] at hr₂
    have hr₂' := hr₂.weaken fun key hkey ↦ List.mem_append_left _ hkey
    have hset₂ := hset₁.of_rely hr₂' hi₂ hheld
    refine ⟨hi₂, _, rfl, hcommit db₂ (hr₁.trans hr₂') hi₂ hset₂, settledRow row outcome inputs.now,
      ?_, by simp⟩
    rw [postgres.applyAll_append]
    simp only [Store.applyAll_cons, Store.applyAll_nil, postgres_apply, Db.write, hview,
      hset₂.lookup, reduceCtorEq, if_false, Finmap.lookup_insert]

/-- The writes of a settlement so far: the claim and the wallets. -/
def claimWrites (payload : ConversionExecutionRequestedPayload) (outcome : ExecutionOutcome)
    (inputs : ExecuteInputs) (wallets : List Write) : List Write :=
  .putProcessed payload.eventId (claimedRow payload outcome inputs) :: wallets

/-- Reading a wallet back succeeds when the wallets of the beginning could be read. -/
theorem thenRead_wp {vs d : List Write} {userId : UserId} {asset : Asset} {missing : JsError}
    {next : App (Option Bool)} {w : WalletRow}
    (hread : ReadableWallets env opening → w.Readable asset)
    (hasset : asset ∈ env.registry.assets)
    (hnext : (ledger env opening observed).wp t next (SettlementBody env opening payload inputs)
      (some vs) d db) :
    (ledger env opening observed).wp t (thenRead env userId asset missing next (some w))
      (SettlementBody env opening payload inputs) (some vs) d db := by
  show (ledger env opening observed).wp t
    ((attempt (PrismaWalletRepository.toDomain env userId.value asset.code w)).handle
      (fun _ ↦ next) .raise) _ _ _ _
  rcases hrow : PrismaWalletRepository.toDomain env userId.value asset.code w with e | wallet
  · refine Contract.wp_raise fun _ _ hi ↦ ⟨hi, _, rfl, fun hopening ↦ ?_⟩
    rw [WalletRow.toDomain_of_readable (hread hopening) hasset] at hrow
    cases hrow
  · exact hnext

/-- **Releasing the funds** of a failed conversion. -/
theorem release_wp {d : List Write} (hset : Settling env payload row .FAILURE db)
    (hk : k.StoredAs env payload.conversionId row) :
    (ledger env opening observed).wp (.execute payload inputs)
      (releasePart env k (savePart (outcomeConversion k .FAILURE inputs.now) true))
      (SettlementBody env opening payload inputs) (some (claimWrites payload .FAILURE inputs [])) d
      db := by
  have hheld : ∀ wallets, .processed payload.eventId ∈ postgres.keysOf
      (claimWrites payload .FAILURE inputs wallets) := by simp [claimWrites, Write.keys]
  refine wp_statement fun db₁ hr₁ hi₁ ↦ ?_
  have hset₁ := hset.of_rely hr₁ hi₁ (hheld [])
  obtain ⟨w, hw, hle⟩ := hi₁.backed hset₁.lookup (by rw [hset.status]; rfl)
  rw [hk.source.amount_eq] at hle
  have hview : (postgres.applyAll db₁ (claimWrites payload .FAILURE inputs [])).wallets.lookup
      (row.userId, row.sourceAsset) = some w := hw
  obtain ⟨w', hreleases, hchecks, hexec⟩ :=
    exec_releaseWallet hk.source.scale_le hview (hi₁.wallets _ w hw) hle
  rw [← hk.source.amount_eq] at hreleases
  rw [hk.user_eq, hk.source.code_eq] at hexec
  refine ⟨some w', _, hexec, .of_lt ?_ (by simp [claimWrites, Write.keys, LockKey.rank]), ?_⟩
  · exact hset₁.mayLock_source hk
  refine thenRead_wp (fun hopening ↦ hreleases.readable
    (hi₁.readable_wallet hopening hw hk.source.registered hk.source.code_eq.symm)
    (isFixed_of_storedAs hk.source hk.source.registered hk.source.code_eq.symm) hchecks)
    hk.source.registered (save_wp hset₁ hk (fun _ ↦ rfl) (hheld [_])
      (by simp [claimWrites, Write.keys, LockKey.rank]) fun db₂ hr₂ hi₂ hset₂ ↦ ?_)
  rw [← hk.user_eq, ← hk.source.code_eq] at hr₂ ⊢
  have hlock : .wallet row.userId row.sourceAsset ∈ postgres.keysOf
      (claimWrites payload .FAILURE inputs [] ++ [.putWallet row.userId row.sourceAsset w']) := by
    simp [claimWrites, Write.keys]
  have hw₂ : db₂.wallets.lookup (row.userId, row.sourceAsset) = some w :=
    (hr₂.same hlock).symm.trans hw
  have hdb : postgres.applyAll db₂ (claimWrites payload .FAILURE inputs [] ++
      [.putWallet row.userId row.sourceAsset w'] ++
      [.updateConversion payload.conversionId (settledRow row .FAILURE inputs.now)]) =
      { settledDb db₂ payload.conversionId payload.eventId row .FAILURE inputs with
        wallets := db₂.wallets.insert (row.userId, row.sourceAsset) w' } := by
    simp [claimWrites, Db.write, settledDb, hset₂.lookup, claimedRow]
  rw [hdb]
  exact .failed (hset₂.settles hi₂) hw₂ hreleases hchecks

/-- What a payment has written before its credit. -/
def payWrites (payload : ConversionExecutionRequestedPayload) (row : ConversionRow)
    (inputs : ExecuteInputs) (w' : WalletRow) (opened : List Write) : List Write :=
  claimWrites payload .SUCCESS inputs (.putWallet row.userId row.sourceAsset w' :: opened)

/-- The target wallet as the credit finds it: it exists, or the payment has just opened it. -/
inductive Opened (row : ConversionRow) (inputs : ExecuteInputs) (db : Db) (v : WalletRow) :
    List Write → Prop where
  | existing (lookup : db.wallets.lookup (row.userId, row.targetAsset) = some v) :
      Opened row inputs db v []
  | new (lookup : db.wallets.lookup (row.userId, row.targetAsset) = none)
      (empty : v = emptyWallet inputs.walletId.value) :
      Opened row inputs db v [.putWallet row.userId row.targetAsset v]

theorem Opened.target {v : WalletRow} {opened : List Write} (h : Opened row inputs db v opened) :
    TargetWallet db (row.userId, row.targetAsset) inputs.walletId.value v := by
  cases h with
  | existing lookup => exact Or.inl lookup
  | new lookup empty =>
    subst empty
    exact Or.inr ⟨lookup, rfl, rfl, rfl, rfl⟩

/-- The settlement sees the target wallet. -/
theorem Opened.view {v w' : WalletRow} {opened : List Write} (h : Opened row inputs db v opened)
    (hne : row.sourceAsset ≠ row.targetAsset) :
    (postgres.applyAll db (payWrites payload row inputs w' opened)).wallets.lookup
      (row.userId, row.targetAsset) = some v := by
  have hkey : (row.userId, row.targetAsset) ≠ (row.userId, row.sourceAsset) := by
    simp [hne.symm]
  cases h with
  | existing lookup =>
    simpa [payWrites, claimWrites, Db.write, Finmap.lookup_insert_of_ne _ hkey] using lookup
  | new lookup empty => simp [payWrites, claimWrites, Db.write]

theorem Opened.checks {v : WalletRow} {opened : List Write} (h : Opened row inputs db v opened)
    (hi : Valid env opening db) : v.violated = none := by
  cases h with
  | existing lookup => exact hi.wallets _ v lookup
  | new _ empty =>
    subst empty
    exact emptyWallet_checks _

theorem Opened.readable {v : WalletRow} {opened : List Write} (h : Opened row inputs db v opened)
    (hi : Valid env opening db) (hopening : ReadableWallets env opening) {asset : Asset}
    (hasset : asset ∈ env.registry.assets) (hcode : asset.code = row.targetAsset) :
    v.Readable asset := by
  cases h with
  | existing lookup => exact hi.readable_wallet hopening lookup hasset hcode
  | new _ empty =>
    subst empty
    exact readable_of_zero rfl rfl rfl asset

/-- A new wallet can hold any amount of its column. -/
theorem Opened.overflows {v : WalletRow} {opened : List Write} (h : Opened row inputs db v opened)
    (hset : Settling env payload row outcome db)
    (hge : ¬ v.balance.1 + row.targetAmount.1 < 10 ^ 20) : CreditOverflows payload db := by
  cases h with
  | existing lookup => exact ⟨row, v, hset.lookup, hset.status, lookup, hge⟩
  | new _ empty =>
    subst empty
    refine absurd ?_ hge
    show (0 : ℚ) + row.targetAmount.1 < 10 ^ 20
    rw [zero_add]
    exact lt_of_le_of_lt (le_abs_self _) row.targetAmount.2.2

theorem Opened.keys {v : WalletRow} {opened : List Write} (h : Opened row inputs db v opened) :
    ∀ key ∈ postgres.keysOf opened, key = .wallet row.userId row.targetAsset := by
  cases h <;> simp [Write.keys]

/-- A payment asks for its target wallet while it holds its source wallet. -/
theorem takes_target {w' v : WalletRow} {opened : List Write}
    (hset : Settling env payload row .SUCCESS db)
    (hopened : ∀ key ∈ postgres.keysOf opened, key = .wallet row.userId row.targetAsset) :
    Takes (.execute payload inputs) db (payWrites payload row inputs w' opened)
      [.putWallet row.userId row.targetAsset v] := by
  refine ⟨by simp [Write.keys, MayLock, hset.lookup], fun key hkey held hheld ↦ ?_⟩
  obtain rfl : key = .wallet row.userId row.targetAsset := by simpa [Write.keys] using hkey
  rw [payWrites, claimWrites, Store.keysOf_cons, Store.keysOf_cons, List.mem_append,
    List.mem_append] at hheld
  rcases hheld with hclaim | hsource | hmem
  · obtain rfl : held = .processed payload.eventId := by simpa [Write.keys] using hclaim
    exact Or.inr (Or.inl (by simp [LockKey.rank]))
  · obtain rfl : held = .wallet row.userId row.sourceAsset := by simpa [Write.keys] using hsource
    exact Or.inr (Or.inr ⟨payload, inputs, row, _, rfl, hset.lookup, hset.terms.event, hset.status,
      hset.exchange, rfl, rfl, rfl⟩)
  · refine Or.inl ?_
    rw [payWrites, claimWrites, Store.keysOf_cons, Store.keysOf_cons, ← hopened held hmem]
    exact List.mem_append_right _ (List.mem_append_right _ hmem)

/-- An existing target wallet may have changed, but not vanished; a new one is locked. -/
theorem Opened.of_rely {v : WalletRow} {opened : List Write} {held : List LockKey}
    (h : Opened row inputs a v opened) (hr : (ledger env opening observed).Rely t held a b)
    (hheld : ∀ key ∈ postgres.keysOf opened, key ∈ held) :
    ∃ v', Opened row inputs b v' opened := by
  cases h with
  | existing lookup =>
    obtain ⟨v', hv', -⟩ := (evolves_of_rely hr).wallets _ v lookup
    exact ⟨v', .existing hv'⟩
  | new lookup empty =>
    have hlock : LockKey.wallet row.userId row.targetAsset ∈ held := hheld _ (by simp [Write.keys])
    exact ⟨v, .new ((hr.same hlock).symm.trans lookup) empty⟩

/-- The tables after a payment. -/
theorem Opened.applyAll {v w' v' : WalletRow} {opened : List Write}
    (h : Opened row inputs db v opened) (hset : Settling env payload row .SUCCESS db) :
    postgres.applyAll db (payWrites payload row inputs w' opened ++
      [.putWallet row.userId row.targetAsset v'] ++
      [.updateConversion payload.conversionId (settledRow row .SUCCESS inputs.now)]) =
      { settledDb db payload.conversionId payload.eventId row .SUCCESS inputs with
        wallets := (db.wallets.insert (row.userId, row.sourceAsset) w').insert
          (row.userId, row.targetAsset) v' } := by
  cases h <;> simp [payWrites, claimWrites, Db.write, settledDb, hset.lookup, claimedRow]

/-- **Crediting the target wallet** of a payment. A credit out of range is refused. -/
theorem credit_wp {d : List Write} {w w' v : WalletRow} {opened : List Write}
    (hset : Settling env payload row .SUCCESS db) (hi : Valid env opening db)
    (hk : k.StoredAs env payload.conversionId row) (hcommits : Commits row.sourceAmount.1 w w')
    (hchecks : w'.violated = none)
    (hw : db.wallets.lookup (row.userId, row.sourceAsset) = some w)
    (hopened : Opened row inputs db v opened) :
    (ledger env opening observed).wp (.execute payload inputs)
      (creditPart env k (savePart (outcomeConversion k .SUCCESS inputs.now) true))
      (SettlementBody env opening payload inputs) (some (payWrites payload row inputs w' opened)) d
      db := by
  have hheld : ∀ ws, .processed payload.eventId ∈ postgres.keysOf
      (payWrites payload row inputs w' opened ++ ws) := by
    simp [payWrites, claimWrites, Write.keys]
  have hsource : ∀ ws, .wallet row.userId row.sourceAsset ∈ postgres.keysOf
      (payWrites payload row inputs w' opened ++ ws) := by
    simp [payWrites, claimWrites, Write.keys]
  have hkeys : ∀ ws, ∀ key ∈ postgres.keysOf opened, key ∈ postgres.keysOf
      (payWrites payload row inputs w' opened ++ ws) := fun ws key hkey ↦ by
    simp [payWrites, claimWrites, Store.keysOf_append, hkey]
  have hne := (hset.settles hi).distinct
  refine wp_statement_or_refused fun db₁ hr₁ hi₁ ↦ ?_
  rw [← List.append_nil (payWrites payload row inputs w' opened)] at hr₁
  have hset₁ := hset.of_rely hr₁ hi₁ (hheld [])
  have hw₁ : db₁.wallets.lookup (row.userId, row.sourceAsset) = some w :=
    (hr₁.same (hsource [])).symm.trans hw
  obtain ⟨v, hopened₁⟩ := hopened.of_rely hr₁ (hkeys [])
  have hview : (postgres.applyAll db₁ (payWrites payload row inputs w' opened)).wallets.lookup
      (row.userId, row.targetAsset) = some v := hopened₁.view hne
  by_cases hlt : v.balance.1 + row.targetAmount.1 < 10 ^ 20
  swap
  · refine Or.inl ⟨_, .inl ⟨rfl, hopened₁.overflows hset₁ hlt⟩, ?_⟩
    rw [hk.user_eq, hk.target.code_eq] at hview
    rw [hk.target.amount_eq] at hlt
    exact exec_creditWallet_overflow hk.target.scale_le hview (hopened₁.checks hi₁) hlt
  rw [hk.target.amount_eq] at hlt
  obtain ⟨v', hcredits, hchecks', hexec⟩ :=
    exec_creditWallet hk.target.scale_le hview (hopened₁.checks hi₁) hlt
  rw [← hk.target.amount_eq] at hcredits
  rw [hk.user_eq, hk.target.code_eq] at hexec
  refine Or.inr ⟨some v', _, hexec, ?_, ?_⟩
  · rw [← hk.user_eq, ← hk.target.code_eq]
    exact takes_target hset₁ hopened.keys
  rw [← hk.user_eq, ← hk.target.code_eq]
  refine thenRead_wp (fun hopening ↦ hcredits.readable
    (hopened₁.readable hi₁ hopening hk.target.registered hk.target.code_eq.symm)
    (isFixed_of_storedAs hk.target hk.target.registered hk.target.code_eq.symm) hchecks')
    hk.target.registered (save_wp hset₁ hk (fun _ ↦ ?_) (hheld _) ?_ fun db₂ hr₂ hi₂ hset₂ ↦ ?_)
  · cases hopened <;> rfl
  · cases hopened <;> simp [payWrites, claimWrites, Write.keys, LockKey.rank]
  · have hw₂ : db₂.wallets.lookup (row.userId, row.sourceAsset) = some w :=
      (hr₂.same (hsource _)).symm.trans hw₁
    -- the credited wallet is locked, so it is still the one the credit saw
    have hopened₂ : Opened row inputs db₂ v opened := by
      have hlock : .wallet row.userId row.targetAsset ∈ postgres.keysOf
          (payWrites payload row inputs w' opened ++
            [.putWallet row.userId row.targetAsset v']) := by
        simp [Store.keysOf_append, Write.keys]
      have hsame : db₁.wallets.lookup (row.userId, row.targetAsset) =
        db₂.wallets.lookup (row.userId, row.targetAsset) := hr₂.same hlock
      cases hopened₁ with
      | existing lookup => exact .existing (hsame.symm.trans lookup)
      | new lookup empty => exact .new (hsame.symm.trans lookup) empty
    rw [hopened₂.applyAll hset₂]
    exact .completed (hset₂.settles hi₂) hw₂ hcommits hchecks hopened₂.target hcredits hchecks'

/-- **Paying** a completed conversion: take the reserved amount, open the target wallet unless it
exists, and credit it. -/
theorem pay_wp {d : List Write} (hset : Settling env payload row .SUCCESS db)
    (hi : Valid env opening db) (hk : k.StoredAs env payload.conversionId row)
    (hfresh : (Task.execute payload inputs).Fresh db) :
    (ledger env opening observed).wp (.execute payload inputs)
      (payPart env k inputs.walletId (savePart (outcomeConversion k .SUCCESS inputs.now) true))
      (SettlementBody env opening payload inputs) (some (claimWrites payload .SUCCESS inputs [])) d
      db := by
  have hne := (hset.settles hi).distinct
  refine wp_statement fun db₁ hr₁ hi₁ ↦ ?_
  have hset₁ := hset.of_rely hr₁ hi₁ (by simp [claimWrites, Write.keys])
  -- the reservation is there, so that committing it does not fail
  obtain ⟨w, hw, hle⟩ := hi₁.backed hset₁.lookup (by rw [hset.status]; rfl)
  rw [hk.source.amount_eq] at hle
  have hview : (postgres.applyAll db₁ (claimWrites payload .SUCCESS inputs [])).wallets.lookup
      (row.userId, row.sourceAsset) = some w := hw
  obtain ⟨w', hcommits, hchecks, hexec⟩ :=
    exec_commitWallet hk.source.scale_le hview (hi₁.wallets _ w hw) hle
  rw [← hk.source.amount_eq] at hcommits
  rw [hk.user_eq, hk.source.code_eq] at hexec
  refine ⟨some w', _, hexec, .of_lt ?_ (by simp [claimWrites, Write.keys, LockKey.rank]), ?_⟩
  · exact hset₁.mayLock_source hk
  rw [← hk.user_eq, ← hk.source.code_eq]
  refine thenRead_wp (fun hopening ↦ hcommits.readable
    (hi₁.readable_wallet hopening hw hk.source.registered hk.source.code_eq.symm)
    (isFixed_of_storedAs hk.source hk.source.registered hk.source.code_eq.symm) hchecks)
    hk.source.registered ?_
  refine wp_statement fun db₂ hr₂ hi₂ ↦ ?_
  have hset₂ := hset₁.of_rely hr₂ hi₂ (by simp [claimWrites, Write.keys])
  have hlock : .wallet row.userId row.sourceAsset ∈ postgres.keysOf
      (claimWrites payload .SUCCESS inputs [] ++ [.putWallet row.userId row.sourceAsset w']) := by
    simp [claimWrites, Write.keys]
  have hw₂ : db₂.wallets.lookup (row.userId, row.sourceAsset) = some w :=
    (hr₂.same hlock).symm.trans hw
  have hkey : (row.userId, row.targetAsset) ≠ (row.userId, row.sourceAsset) := by
    simp [hne.symm]
  have hwallets : (postgres.applyAll db₂ (claimWrites payload .SUCCESS inputs [] ++
      [.putWallet row.userId row.sourceAsset w'])).wallets =
      db₂.wallets.insert (row.userId, row.sourceAsset) w' := rfl
  rw [← hk.target.code_eq]
  have hasset : nonBlank row.targetAsset = true := by
    rw [hk.target.code_eq]
    exact nonBlank_code hk.target.registered
  -- the target wallet is new, or is there
  rcases hv : db₂.wallets.lookup (row.userId, row.targetAsset) with - | v
  · refine ⟨(), _, exec_insertWallet_of_none hasset ?_ ?_, takes_target hset₂ (by simp),
      credit_wp hset₂ hi₂ hk hcommits hchecks hw₂ (.new hv rfl)⟩
    · rw [hwallets, Finmap.lookup_insert_of_ne _ hkey, hv]
    · -- no wallet has the id of the new one
      have hfresh₂ : (Task.execute payload inputs).Fresh db₂ :=
        fresh_of_rely hr₂ (fresh_of_rely hr₁ hfresh)
      intro key u hu
      rw [hwallets] at hu
      rcases Table.lookup_insert_cases hu with ⟨-, rfl⟩ | ⟨-, hu⟩
      · rw [hcommits.id_eq]
        exact hfresh₂ _ w hw₂
      · exact hfresh₂ key u hu
  · refine ⟨(), [], exec_insertWallet_of_some (w := v) hasset ?_, .nil_right _ _ _, ?_⟩
    · rw [hwallets, Finmap.lookup_insert_of_ne _ hkey, hv]
    · rw [List.append_nil]
      exact credit_wp hset₂ hi₂ hk hcommits hchecks hw₂ (.existing hv)

/-! ### The transaction -/

/-- The conversion of a won claim is found, and settled. -/
theorem settle_wp {d : List Write} (hset : Settling env payload row outcome db)
    (hi : Valid env opening db) (hfresh : (Task.execute payload inputs).Fresh db)
    (hk : k.StoredAs env payload.conversionId row) :
    (ledger env opening observed).wp (.execute payload inputs)
      ((ProcessConversionExecutionUseCase.applyOutcome env k outcome inputs.now
        (FakeExchangeAdapter.buildResult (orderOf payload) outcome).reason inputs.walletId).handle
          (fun _ ↦ .ret (some true)) .raise)
      (SettlementBody env opening payload inputs) (some (claimWrites payload outcome inputs [])) d
      db := by
  rw [applyOutcome_eq (hk.status_eq.symm.trans hset.status) hk.target.scale_le]
  cases outcome with
  | SUCCESS => exact pay_wp hset hi hk hfresh
  | FAILURE => exact release_wp hset hk
  | UNKNOWN =>
    refine save_wp hset hk (fun _ ↦ rfl) (by simp [claimWrites, Write.keys])
      (by simp [claimWrites, Write.keys, LockKey.rank]) fun db₁ _ hi₁ hset₁ ↦ ?_
    have hdb : postgres.applyAll db₁ (claimWrites payload .UNKNOWN inputs [] ++
        [.updateConversion payload.conversionId (settledRow row .UNKNOWN inputs.now)]) =
        settledDb db₁ payload.conversionId payload.eventId row .UNKNOWN inputs := by
      simp [claimWrites, Db.write, settledDb, hset₁.lookup, claimedRow]
    rw [hdb]
    exact .reconciling (hset₁.settles hi₁)

/-- **The body of the settlement transaction.** Whoever loses the claim changes nothing, and finds
the conversion settled. -/
theorem settlement_wp {d : List Write} {conversionId : ConversionId}
    (hid : conversionId.value = payload.conversionId) (hknown : Known env payload row db)
    (hs : row.status = .EXECUTION_REQUESTED) (hx : Exchanged payload row outcome db)
    (hfresh : (Task.execute payload inputs).Fresh db) :
    (ledger env opening observed).wp (.execute payload inputs)
      (ProcessConversionExecutionUseCase.settlement env payload conversionId
        (FakeExchangeAdapter.buildResult (orderOf payload) outcome) inputs)
      (SettlementBody env opening payload inputs) (some []) d db := by
  simp only [ProcessConversionExecutionUseCase.settlement, Prog.bind_eq_handle,
    PrismaProcessedMessageRepository.tryRecord, PrismaConversionRepository.findById, sql,
    Prog.handle_stmt, hid]
  refine wp_statement fun db₁ hr₁ hi₁ ↦ ?_
  have hev₁ := evolves_of_rely hr₁
  have hknown₁ := hknown.evolves hev₁
  rcases hp : db₁.processed.lookup payload.eventId with - | p
  swap
  · refine ⟨false, [], fun _ ↦ ?_, .nil_right _ _ _, Contract.wp_ret fun db₂ hr₂ hi₂ ↦
      ⟨hi₂, [], rfl, rfl, (hi₁.settled_of_processed hknown₁ hp).evolves (evolves_of_rely hr₂)⟩⟩
    simp [exec, hp]
  have hset₁ : Settling env payload row outcome db₁ :=
    ⟨hknown.1, hs, hi₁.waiting hknown₁ hs hp, hp, hev₁.exchange _ _ hx⟩
  refine ⟨true, [.putProcessed payload.eventId (claimedRow payload outcome inputs)], fun _ ↦ ?_,
    .nil_left (by simp [Write.keys, MayLock]), ?_⟩
  · simp [exec, hp, claimedRow, FakeExchangeAdapter.buildResult]
  rw [if_pos rfl, List.nil_append]
  refine wp_read fun db₂ hr₂ hi₂ ↦ ?_
  have hset₂ := hset₁.of_rely hr₂ hi₂ (by simp [Write.keys])
  obtain ⟨k, hk⟩ := (hi₂.conversions _ row hset₂.lookup).stored
  have hfound : db₂.conversions.lookup conversionId.value = some row := by
    rw [hid]
    exact hset₂.lookup
  refine ⟨some row, fun _ ↦ ?_, ?_⟩
  · simp [exec, Db.write, hfound]
  have hstatus : k.status = .EXECUTION_REQUESTED := hk.status_eq.symm.trans hs
  simp only [hk.toDomain, attempt_ok, Prog.handle_ret, hstatus, reduceCtorEq, if_false,
    Prog.pure_eq_ret]
  exact settle_wp hset₂ hi₂ (fresh_of_rely hr₂ (fresh_of_rely hr₁ hfresh)) hk

end Ledger

end WalletConversion
