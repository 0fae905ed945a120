import WalletConversion.Guarantees.Accounts
import WalletConversion.Ledger.Settlement

/-!
# The wallet in SQL refines the wallet aggregate

The rules for money exist twice: in `WalletAccount`, with decimals of 40 significant digits, and in
the `UPDATE` statements of `PrismaWalletRepository`, with columns of type `NUMERIC(38,18)`. Only the
second runs. `repository_refines` says that on any row that can be read back the two do the same.

A row has at most 20 digits before the point and 18 behind it, so all sums and differences of its
columns have at most 40 digits, and the aggregate rounds nothing (`fits_account`).
-/

namespace WalletConversion

open DecimalNotation Transactional WalletAccount

namespace Ledger

variable {env : Platform} {userId : UserId} {asset : Asset} {w w' : WalletRow} {db : Db} {c : Call}

/-! ### One statement -/

/-- The program issues one statement, which takes the tables it sees to others, whatever is locked,
and goes on as the last argument. -/
def Issues {α : Type} (p : App α) (db db' : Db) (rest : App α) : Prop :=
  ∃ (s : Stmt) (k : s.Result → App α) (r : s.Result) (ws : List Write), p = .call s k ∧
    (∀ locked, exec s locked db = .ok (r, ws)) ∧ postgres.applyAll db ws = db' ∧ k r = rest

/-- The method of the repository for a method of the aggregate. It answers with the new aggregate,
or with nothing when `reserve` finds too little. -/
def method (env : Platform) (userId : UserId) (asset : Asset) : Call → App (Option WalletAccount)
  | .reserve amount => do
    match ← PrismaWalletRepository.reserve env userId asset amount with
    | .reserved wallet => return some wallet
    | .insufficientOrConflict => return none
  | .release amount => do
    return some (← PrismaWalletRepository.release env userId asset amount)
  | .commitReservation amount => do
    return some (← PrismaWalletRepository.commitReservation env userId asset amount)
  | .credit amount => do
    return some (← PrismaWalletRepository.credit env userId asset amount)

attribute [local irreducible] PrismaWalletRepository.toDomain

/-- What the methods do with the row that was updated, or with none. -/
def reading (env : Platform) (userId : UserId) (asset : Asset)
    (missing : App (Option WalletAccount)) :
    Option WalletRow → App (Option WalletAccount)
  | none => missing
  | some row => do
    return some (← attempt (PrismaWalletRepository.toDomain env userId.value asset.code row))

theorem reading_some {missing : App (Option WalletAccount)} {row : WalletRow}
    {moved : WalletAccount}
    (h : PrismaWalletRepository.toDomain env userId.value asset.code row = .ok moved) :
    reading env userId asset missing (some row) = .ret (some moved) := by
  rw [reading, h]
  rfl

/-- A reservation is one statement and the reading of its row. -/
theorem method_reserve (amount : Money) : method env userId asset (.reserve amount) =
    .call (.reserveWallet userId.value asset.code amount.toString)
      (reading env userId asset (.ret none)) := by
  refine congrArg (Prog.call _) (funext fun r ↦ ?_)
  rcases r with - | row
  · rfl
  · show ((attempt (PrismaWalletRepository.toDomain env userId.value asset.code row)).handle
      (fun wallet ↦ .ret (ReservationOutcome.reserved wallet)) .raise).handle _ _ = _
    rw [Prog.handle_handle]
    rfl

/-- So is a release. -/
theorem method_release (amount : Money) : method env userId asset (.release amount) =
    .call (.releaseWallet userId.value asset.code amount.toString) (reading env userId asset
      (.raise (.error (PrismaWalletRepository.cannot "release" userId asset amount)))) := by
  refine congrArg (Prog.call _) (funext fun r ↦ ?_)
  cases r <;> rfl

/-- So is the commit of a reservation. -/
theorem method_commitReservation (amount : Money) :
    method env userId asset (.commitReservation amount) =
      .call (.commitWallet userId.value asset.code amount.toString) (reading env userId asset
        (.raise (.error (PrismaWalletRepository.cannot "commit reservation of" userId
          asset amount)))) := by
  refine congrArg (Prog.call _) (funext fun r ↦ ?_)
  cases r <;> rfl

/-- And so is a credit. -/
theorem method_credit (amount : Money) : method env userId asset (.credit amount) =
    .call (.creditWallet userId.value asset.code amount.toString) (reading env userId asset
      (.raise (.error ⟨.WalletNotFoundError,
        s!"No wallet found for user {userId.value} in {asset.code}"⟩))) := by
  refine congrArg (Prog.call _) (funext fun r ↦ ?_)
  cases r <;> rfl

/-- A refused call: nothing is answered, or an error is thrown. -/
def Refusal (rest : App (Option WalletAccount)) : Prop :=
  rest = .ret none ∨ ∃ e, rest = .raise (.error e)

/-! ### The row and the aggregate -/

/-- The result of the call fits the column. Only a credit can leave it. -/
def InRange (w : WalletRow) : Call → Prop
  | .credit amount => w.balance.1 + amount.amount < 10 ^ 20
  | _ => True

/-- The update of the row for a call. -/
def Updates (w w' : WalletRow) : Call → Prop
  | .reserve amount => Reserves amount.amount w w'
  | .release amount => Releases amount.amount w w'
  | .commitReservation amount => Commits amount.amount w w'
  | .credit amount => Credits amount.amount w w'

/-- A number of a column is neither rounded nor out of range. -/
theorem holds_of_lt {q : ℚ} (hq : IsFixed asset.scale q) (hscale : asset.scale ≤ 18)
    (h0 : 0 ≤ q) (hlt : q < 10 ^ 20) : Decimal.Holds q :=
  Decimal.holds_of_isFixed hq (by rwa [abs_of_nonneg h0]) (by
    show 20 + asset.scale ≤ 40
    omega)

/-- A row that can be read is a balanced account. -/
theorem balanced_account (h : w.Readable asset) (hscale : asset.scale ≤ 18) :
    (WalletRow.account userId h).Balanced := by
  obtain ⟨havailable, hreserved, hsum, hlt⟩ := WalletRow.bounds h.checks
  exact
    { availableAsset := rfl
      reservedAsset := rfl
      sum := hsum
      rounded := (holds_of_lt h.balance hscale (by linarith) hlt).digits.roundSig
      code := rfl
      finite :=
        { balance := Money.isFinite_of_inRange
            (holds_of_lt h.balance hscale (by linarith) hlt).inRange
          available := Money.isFinite_of_inRange
            (holds_of_lt h.available hscale havailable (by linarith)).inRange
          reserved := Money.isFinite_of_inRange
            (holds_of_lt h.reserved hscale hreserved (by linarith)).inRange } }

/-- **Nothing is rounded** in a call whose guards pass. -/
theorem fits_account (h : w.Readable asset) (hscale : asset.scale ≤ 18)
    (hallowed : c.Allowed (WalletRow.account userId h)) (hrange : InRange w c) :
    c.Fits (WalletRow.account userId h) := by
  obtain ⟨havailable, hreserved, hsum, hlt⟩ := WalletRow.bounds h.checks
  have hpos := c.money.nonneg
  cases c with
  | reserve amount =>
    obtain ⟨(hasset : amount.asset = asset), (hle : amount.amount ≤ w.available.1)⟩ := hallowed
    have hfixed : IsFixed asset.scale amount.amount := hasset ▸ amount.fixed
    have hpos : 0 ≤ amount.amount := hpos
    show Decimal.Holds (w.available.1 - amount.amount) ∧
      Decimal.Holds (w.reserved.1 + amount.amount)
    exact ⟨holds_of_lt (h.available.sub hfixed) hscale (by linarith) (by linarith),
      holds_of_lt (h.reserved.add hfixed) hscale (by linarith) (by linarith)⟩
  | release amount =>
    obtain ⟨(hasset : amount.asset = asset), (hle : amount.amount ≤ w.reserved.1)⟩ := hallowed
    have hfixed : IsFixed asset.scale amount.amount := hasset ▸ amount.fixed
    have hpos : 0 ≤ amount.amount := hpos
    show Decimal.Holds (w.reserved.1 - amount.amount) ∧
      Decimal.Holds (w.available.1 + amount.amount)
    exact ⟨holds_of_lt (h.reserved.sub hfixed) hscale (by linarith) (by linarith),
      holds_of_lt (h.available.add hfixed) hscale (by linarith) (by linarith)⟩
  | commitReservation amount =>
    obtain ⟨(hasset : amount.asset = asset), (hle : amount.amount ≤ w.reserved.1)⟩ := hallowed
    have hfixed : IsFixed asset.scale amount.amount := hasset ▸ amount.fixed
    have hpos : 0 ≤ amount.amount := hpos
    show Decimal.Holds (w.reserved.1 - amount.amount) ∧ Decimal.Holds (w.balance.1 - amount.amount)
    exact ⟨holds_of_lt (h.reserved.sub hfixed) hscale (by linarith) (by linarith),
      holds_of_lt (h.balance.sub hfixed) hscale (by linarith) (by linarith)⟩
  | credit amount =>
    have hasset : amount.asset = asset := hallowed
    have hfixed : IsFixed asset.scale amount.amount := hasset ▸ amount.fixed
    have hrange : w.balance.1 + amount.amount < 10 ^ 20 := hrange
    have hpos : 0 ≤ amount.amount := hpos
    show Decimal.Holds (w.balance.1 + amount.amount) ∧ Decimal.Holds (w.available.1 + amount.amount)
    exact ⟨holds_of_lt (h.balance.add hfixed) hscale (by linarith) (by linarith),
      holds_of_lt (h.available.add hfixed) hscale (by linarith) (by linarith)⟩

/-- The updated row can be read back. -/
theorem Updates.readable (hupdates : Updates w w' c) (h : w.Readable asset)
    (hasset : c.money.asset = asset) (hchecks : w'.violated = none) : w'.Readable asset := by
  have hfixed : IsFixed asset.scale c.money.amount := hasset ▸ c.money.fixed
  cases c with
  | reserve amount => exact Reserves.readable hupdates h hfixed hchecks
  | release amount => exact Releases.readable hupdates h hfixed hchecks
  | commitReservation amount => exact Commits.readable hupdates h hfixed hchecks
  | credit amount => exact Credits.readable hupdates h hfixed hchecks

/-- **The updated row is the row of the moved aggregate.** -/
theorem Updates.account_eq (hupdates : Updates w w' c) (h : w.Readable asset)
    (h' : w'.Readable asset) {moved : WalletAccount} (hbalanced : moved.Balanced)
    (hmoves : c.Moves (WalletRow.account userId h) moved)
    (hsame : Reassigned (WalletRow.account userId h) moved) :
    WalletRow.account userId h' = moved := by
  have hasset : moved.balance.asset = asset := hsame.amounts
  have hcolumns : w'.id = w.id ∧ w'.balance.1 = moved.balance.amount ∧
      w'.available.1 = moved.available.amount ∧ w'.reserved.1 = moved.reserved.amount := by
    cases c with
    | reserve amount | release amount | commitReservation amount | credit amount =>
      obtain ⟨hbalance, havailable, hreserved⟩ := hmoves
      rw [hbalance, havailable, hreserved]
      obtain ⟨hid, hb, ha, hr⟩ := hupdates
      exact ⟨hid, by first | exact hb | rw [hb]; rfl, by first | exact ha | rw [ha]; rfl,
        by first | exact hr | rw [hr]; rfl⟩
  obtain ⟨hid, hbalance, havailable, hreserved⟩ := hcolumns
  refine WalletAccount.ext (hid.trans hsame.id.symm) hsame.userId.symm hsame.asset.symm
    (Money.ext hasset.symm hbalance) (Money.ext ?_ havailable) (Money.ext ?_ hreserved)
  · exact (hbalanced.availableAsset.trans hasset).symm
  · exact (hbalanced.reservedAsset.trans hasset).symm

/-! ### The two implementations -/

/-- The tables with another row for the wallet. -/
def putRow (db : Db) (userId : UserId) (asset : Asset) (w : WalletRow) : Db :=
  { db with wallets := db.wallets.insert (userId.value, asset.code) w }

/-- The method of the repository does on the tables what the method of the aggregate does on the
aggregate of the row. -/
structure Refines (env : Platform) (userId : UserId) (c : Call) (db : Db) (h : w.Readable asset) :
    Prop where
  succeeds : ∀ moved, c.run (WalletRow.account userId h) = (.ok (), moved) → ∃ w',
    PrismaWalletRepository.toDomain env userId.value asset.code w' = .ok moved ∧
    Issues (method env userId asset c) db (putRow db userId asset w') (.ret (some moved))
  refuses : ∀ e left, c.run (WalletRow.account userId h) = (.error e, left) →
    left = WalletRow.account userId h ∧ ∃ rest, Refusal rest ∧
      Issues (method env userId asset c) db db rest

/-- **A call whose guards pass updates the row** and answers with what the new row is read as. -/
theorem issues_of_allowed (env : Platform) (hscale : asset.scale ≤ 18)
    (hlookup : db.wallets.lookup (userId.value, asset.code) = some w) (h : w.Readable asset)
    (hallowed : c.Allowed (WalletRow.account userId h)) (hrange : InRange w c) :
    ∃ w', Updates w w' c ∧ w'.violated = none ∧ ∀ moved,
      PrismaWalletRepository.toDomain env userId.value asset.code w' = .ok moved →
      Issues (method env userId asset c) db (putRow db userId asset w') (.ret (some moved)) := by
  cases c with
  | reserve amount =>
    obtain ⟨(hasset : amount.asset = asset), (hle : amount.amount ≤ w.available.1)⟩ := hallowed
    obtain ⟨w', hw', hchecks, hexec⟩ := exec_reserveWallet (hasset ▸ hscale) hlookup h.checks hle
    exact ⟨w', hw', hchecks, fun moved hread ↦
      ⟨_, _, _, _, method_reserve amount, hexec, rfl, reading_some hread⟩⟩
  | release amount =>
    obtain ⟨(hasset : amount.asset = asset), (hle : amount.amount ≤ w.reserved.1)⟩ := hallowed
    obtain ⟨w', hw', hchecks, hexec⟩ := exec_releaseWallet (hasset ▸ hscale) hlookup h.checks hle
    exact ⟨w', hw', hchecks, fun moved hread ↦
      ⟨_, _, _, _, method_release amount, hexec, rfl, reading_some hread⟩⟩
  | commitReservation amount =>
    obtain ⟨(hasset : amount.asset = asset), (hle : amount.amount ≤ w.reserved.1)⟩ := hallowed
    obtain ⟨w', hw', hchecks, hexec⟩ := exec_commitWallet (hasset ▸ hscale) hlookup h.checks hle
    exact ⟨w', hw', hchecks, fun moved hread ↦
      ⟨_, _, _, _, method_commitReservation amount, hexec, rfl, reading_some hread⟩⟩
  | credit amount =>
    have hasset : amount.asset = asset := hallowed
    obtain ⟨w', hw', hchecks, hexec⟩ := exec_creditWallet (hasset ▸ hscale) hlookup h.checks hrange
    exact ⟨w', hw', hchecks, fun moved hread ↦
      ⟨_, _, _, _, method_credit amount, hexec, rfl, reading_some hread⟩⟩

/-- **A call that fails a guard leaves the row alone.** -/
theorem issues_of_not_allowed (env : Platform)
    (hlookup : db.wallets.lookup (userId.value, asset.code) = some w)
    (h : w.Readable asset) (hasset : c.money.asset = asset)
    (hnot : ¬ c.Allowed (WalletRow.account userId h)) :
    ∃ rest, Refusal rest ∧ Issues (method env userId asset c) db db rest := by
  cases c with
  | reserve amount =>
    have hlt : ¬ amount.amount ≤ w.available.1 := fun hle ↦ hnot ⟨hasset, hle⟩
    exact ⟨_, .inl rfl, _, _, _, _, method_reserve amount,
      exec_reserveWallet_of_lt hlookup hlt, rfl,
      rfl⟩
  | release amount =>
    have hlt : ¬ amount.amount ≤ w.reserved.1 := fun hle ↦ hnot ⟨hasset, hle⟩
    exact ⟨_, .inr ⟨_, rfl⟩, _, _, _, _, method_release amount,
      exec_releaseWallet_of_lt hlookup hlt,
      rfl, rfl⟩
  | commitReservation amount =>
    have hlt : ¬ amount.amount ≤ w.reserved.1 := fun hle ↦ hnot ⟨hasset, hle⟩
    exact ⟨_, .inr ⟨_, rfl⟩, _, _, _, _, method_commitReservation amount,
      exec_commitWallet_of_lt hlookup hlt, rfl, rfl⟩
  | credit amount => exact absurd hasset hnot

/-- **The two implementations agree on a row.** -/
theorem refines_of_readable (hasset : asset ∈ env.registry.assets)
    (hlookup : db.wallets.lookup (userId.value, asset.code) = some w) (h : w.Readable asset)
    (hmoney : c.money.asset = asset) (hrange : InRange w c) : Refines env userId c db h := by
  have hscale := env.registry.scale_le _ hasset
  have hbalanced : (WalletRow.account userId h).Balanced := balanced_account h hscale
  by_cases hallowed : c.Allowed (WalletRow.account userId h)
  · obtain ⟨moved, hrun, hmoved, hmoves, hsame⟩ :=
      Call.run_of_allowed hbalanced hallowed (fits_account h hscale hallowed hrange)
    obtain ⟨w', hupdates, hchecks, hissues⟩ :=
      issues_of_allowed env hscale hlookup h hallowed hrange
    have h' := hupdates.readable h hmoney hchecks
    have hread : PrismaWalletRepository.toDomain env userId.value asset.code w' = .ok moved := by
      rw [WalletRow.toDomain_of_readable h' hasset, hupdates.account_eq h h' hmoved hmoves hsame]
    refine ⟨fun other hother ↦ ?_, fun e left hleft ↦ ?_⟩
    · obtain rfl : moved = other := by
        rw [hrun] at hother
        exact (Prod.mk.inj hother).2
      exact ⟨w', hread, hissues moved hread⟩
    · rw [hrun] at hleft
      cases hleft
  · obtain ⟨e, hrun⟩ := Call.run_of_not_allowed hbalanced hallowed
    refine ⟨fun moved hmoved ↦ ?_, fun e' left hleft ↦ ?_⟩
    · rw [hrun] at hmoved
      cases hmoved
    · rw [hrun] at hleft
      cases hleft
      exact ⟨rfl, issues_of_not_allowed env hlookup h hmoney hallowed⟩

/-! ### Opening a wallet -/

/-- `createIfMissing` on the two kinds of tables. -/
structure CreatesIfMissing (wallet : WalletAccount) (db : Db) : Prop where
  existing : ∀ w, db.wallets.lookup (wallet.userId.value, wallet.asset.code) = some w →
    Issues (PrismaWalletRepository.createIfMissing wallet) db db (.ret ())
  missing : db.wallets.lookup (wallet.userId.value, wallet.asset.code) = none →
    (∀ key row, db.wallets.lookup key = some row → row.id ≠ wallet.id) →
    ∃ (w : WalletRow) (h : w.Readable wallet.asset),
      Issues (PrismaWalletRepository.createIfMissing wallet) db
        (putRow db wallet.userId wallet.asset w) (.ret ()) ∧
      WalletRow.account wallet.userId h = ⟨wallet.id, wallet.userId, wallet.asset,
        Money.zero wallet.asset, Money.zero wallet.asset, Money.zero wallet.asset⟩

theorem createsIfMissing {wallet : WalletAccount} (hasset : wallet.asset ∈ env.registry.assets)
    (hzero : wallet.balance.isZero = true) : CreatesIfMissing wallet db where
  existing w hlookup := by
    refine ⟨.insertWallet wallet.id wallet.userId.value wallet.asset.code, .ret, (), [], ?_,
      exec_insertWallet_of_some (nonBlank_code hasset) hlookup, rfl, rfl⟩
    rw [PrismaWalletRepository.createIfMissing, if_pos hzero]
    rfl
  missing hlookup hid := by
    refine ⟨emptyWallet wallet.id, readable_of_zero rfl rfl rfl _,
      ⟨.insertWallet wallet.id wallet.userId.value wallet.asset.code, .ret, (), _, ?_,
        exec_insertWallet_of_none (nonBlank_code hasset) hlookup hid, rfl, rfl⟩, rfl⟩
    rw [PrismaWalletRepository.createIfMissing, if_pos hzero]
    rfl

/-- **The wallet in SQL refines the wallet aggregate.** On every row that can be read back each
method of the repository succeeds when the aggregate of the row does, writes and answers the moved
aggregate, and otherwise changes nothing; no other row is ever written. `createIfMissing` opens a
wallet without money where there is none. -/
theorem repository_refines (hasset : asset ∈ env.registry.assets) (userId : UserId) (db : Db) :
    (∀ (w : WalletRow) (h : w.Readable asset) (c : Call),
      db.wallets.lookup (userId.value, asset.code) = some w → c.money.asset = asset → InRange w c →
      Refines env userId c db h) ∧
    ∀ wallet : WalletAccount, wallet.userId = userId → wallet.asset = asset →
      wallet.balance.isZero = true → CreatesIfMissing wallet db := by
  refine ⟨fun w h c hlookup hmoney hrange ↦ refines_of_readable hasset hlookup h hmoney hrange, ?_⟩
  rintro wallet - rfl hzero
  exact createsIfMissing hasset hzero

theorem sampleRow_readable : sampleRow.Readable USDT where
  checks := by decide +kernel
  balance := IsFixed.intCast USDT.scale 1000
  available := IsFixed.intCast USDT.scale 1000
  reserved := IsFixed.intCast USDT.scale 0

/-- One USDT of 1000 is reserved, in the row and in the aggregate. -/
theorem repository_refines_sample : ∃ (w' : WalletRow) (moved : WalletAccount),
    Issues (method .reference sampleUser USDT (.reserve (Money.one USDT)))
      (Db.ofWallets sampleWallets) (putRow (Db.ofWallets sampleWallets) sampleUser USDT w')
      (.ret (some moved)) ∧
    moved.available.amount = 999 ∧ moved.reserved.amount = 1 ∧
    PrismaWalletRepository.toDomain .reference sampleUser.value USDT.code w' = .ok moved := by
  let reserved :=
    ((Call.reserve (Money.one USDT)).run (WalletRow.account sampleUser sampleRow_readable)).2
  have hrun : (Call.reserve (Money.one USDT)).run
      (WalletRow.account sampleUser sampleRow_readable) = (.ok (), reserved) := by decide +kernel
  have hasset : USDT ∈ Platform.reference.registry.assets := by decide +kernel
  obtain ⟨hmethods, -⟩ := repository_refines hasset sampleUser (Db.ofWallets sampleWallets)
  have hrefines := hmethods sampleRow sampleRow_readable (.reserve (Money.one USDT))
      (by decide +kernel) rfl trivial
  obtain ⟨w', hread, hissues⟩ := hrefines.succeeds reserved hrun
  exact ⟨w', reserved, hissues, by decide +kernel, by decide +kernel, hread⟩

end Ledger

end WalletConversion
