import WalletConversion.Application.Reference
import WalletConversion.Ledger.Calls

/-!
# The seeded wallets

There is no route that opens a wallet; `prisma/seed.ts` does. It builds each wallet as an aggregate
and upserts it with an empty update.

Every theorem about runs starts from wallets that nothing is reserved in and that can be read back.
`seed_sound` finds that the seed leaves such wallets, and that it may be run again at any time: from
every state of every run it leaves the tables as they are.
-/

namespace WalletConversion

open DecimalNotation Transactional

/-! ### The script -/

namespace Seed

/-- `prisma.walletAccount.upsert` with an empty update. -/
def upsert (userId asset : String) (data : WalletData) : App Unit := do
  match ← sql (.findWallet userId asset) with
  | some _ => return ()
  | none => sql (.createWallet data)

/-- One wallet of the seed. A wallet that is there stays as it is. -/
def upsertWallet (env : Platform) (generatedId : Uuid) (userId : String) (asset : Asset)
    (initialBalance : String) : App Unit := do
  let wallet ← attempt do
    WalletAccount.opened generatedId.value (← UserId.of userId) asset
      (← Money.of env.toDecimalJs initialBalance asset)
  upsert userId asset.code
    { id := wallet.id
      userId := wallet.userId.value
      asset := wallet.asset.code
      balance := wallet.balance.toString
      available := wallet.available.toString
      reserved := wallet.reserved.toString }

/-- The script: two wallets of one user. -/
def main (env : Platform) (generatedId generatedId' : Uuid) : App Unit := do
  upsertWallet env generatedId "user-123" USDT "100"
  upsertWallet env generatedId' "user-123" BTC "0"

end Seed

/-! ### One wallet -/

/-- A wallet is opened with any amount that fits its column. -/
theorem WalletAccount.opened_eq {m : Money} (hscale : m.asset.scale ≤ 18) (hlt : m.amount < 10 ^ 20)
    (id : String) (userId : UserId) :
    WalletAccount.opened id userId m.asset m =
      .ok ⟨id, userId, m.asset, m, m, Money.zero m.asset⟩ := by
  have hzero : (Money.zero m.asset).amount = 0 := rfl
  have hasset : m.asset = (Money.zero m.asset).asset := rfl
  have hadd : m.add (Money.zero m.asset) = .ok m := by
    rw [Money.add_exact hasset (by rwa [hzero, add_zero])
      (by rw [Decimal.precision]; omega : 20 + m.asset.scale ≤ Decimal.precision)]
    exact congrArg Except.ok (Money.ext rfl (add_zero _))
  have hsame : m.equals m = true := Money.equals_iff.2 rfl
  have hcode : (Money.zero m.asset).asset.code = m.asset.code := rfl
  rw [WalletAccount.opened, if_pos rfl, WalletAccount.new]
  simp only [WalletAccount.assertInvariant, hcode, and_self, if_true, hadd, bind, Except.bind,
    if_pos hsame]
  rfl

namespace Ledger

variable {env : Platform} {wallets : Table (String × String) WalletRow} {db : Db} {s : System}
  {m : Money} {generatedId : Uuid} {userId : UserId} {initialBalance : String}

theorem zero_fits : |((0 : ℕ) : ℚ)| < 10 ^ 20 := by norm_num

/-- The row of a wallet that was opened. -/
def openedRow (id : String) (m : Money) (hscale : m.asset.scale ≤ 18) (hlt : m.amount < 10 ^ 20) :
    WalletRow :=
  ⟨id, m.toColumn hscale hlt, m.toColumn hscale hlt, .ofNat 0 zero_fits⟩

/-- An opened wallet passes the checks of its table. -/
theorem openedRow_checks (id : String) (hscale : m.asset.scale ≤ 18) (hlt : m.amount < 10 ^ 20) :
    (openedRow id m hscale hlt).violated = none :=
  WalletRow.violated_eq_none.2 ⟨⟨m.nonneg, m.nonneg, le_rfl⟩, add_zero _⟩

/-- The statements of the upsert. -/
theorem upsertWallet_eq (hscale : m.asset.scale ≤ 18) (hlt : m.amount < 10 ^ 20)
    (hamount : Denotes initialBalance.toList m.amount) {α : Type} (k : Unit → App α) :
    (Seed.upsertWallet env generatedId userId.value m.asset initialBalance).handle k .raise =
      .call (.findWallet userId.value m.asset.code) fun row ↦
        match row with
        | some _ => k ()
        | none => .call (.createWallet ⟨generatedId.value, userId.value, m.asset.code, m.toString,
            m.toString, (Money.zero m.asset).toString⟩) k := by
  simp only [Seed.upsertWallet, UserId.of_value, Money.of_denotes env.toDecimalJs hamount,
    WalletAccount.opened_eq hscale hlt, bind, Except.bind, attempt_ok, Prog.handle_ret, Seed.upsert,
    sql, Prog.handle_stmt, Prog.handle_call]
  congr 1
  funext row
  cases row <;> rfl

/-- A wallet that is there is left alone. -/
theorem solo_upsertWallet_some (hscale : m.asset.scale ≤ 18) (hlt : m.amount < 10 ^ 20)
    (hamount : Denotes initialBalance.toList m.amount) {α : Type} (k : Unit → App α) {w : WalletRow}
    (hw : db.wallets.lookup (userId.value, m.asset.code) = some w) :
    ((Seed.upsertWallet env generatedId userId.value m.asset initialBalance).handle k .raise).solo
      postgres none db = (k ()).solo postgres none db := by
  have hread : postgres.exec (.findWallet userId.value m.asset.code) (fun _ ↦ false) db =
      .ok (some w, []) := congrArg (fun r ↦ Except.ok (r, [])) hw
  rw [upsertWallet_eq hscale hlt hamount, Prog.solo_call_none hread]
  rfl

/-- A wallet that is missing is opened. -/
theorem solo_upsertWallet_none (hscale : m.asset.scale ≤ 18) (hlt : m.amount < 10 ^ 20)
    (hamount : Denotes initialBalance.toList m.amount) {α : Type} (k : Unit → App α)
    (hasset : m.asset ∈ env.registry.assets)
    (hw : db.wallets.lookup (userId.value, m.asset.code) = none)
    (hid : ∀ key row, db.wallets.lookup key = some row → row.id ≠ generatedId.value) :
    ((Seed.upsertWallet env generatedId userId.value m.asset initialBalance).handle k .raise).solo
      postgres none db =
      (k ()).solo postgres none (db.write (.putWallet userId.value m.asset.code
        (openedRow generatedId.value m hscale hlt))) := by
  have hread : postgres.exec (.findWallet userId.value m.asset.code) (fun _ ↦ false) db =
      .ok (none, []) := congrArg (fun r ↦ Except.ok (r, [])) hw
  have hcreate : exec (.createWallet ⟨generatedId.value, userId.value, m.asset.code,
      m.toString, m.toString, (Money.zero m.asset).toString⟩) (fun _ ↦ false) db =
      .ok ((), [.putWallet userId.value m.asset.code
        (openedRow generatedId.value m hscale hlt)]) := by
    have hbalance : column m.toString = .ok (m.toColumn hscale hlt) := column_toString rfl
    have hreserved : column (Money.zero m.asset).toString = .ok (Numeric.ofNat 0 zero_fits) :=
      column_toString Nat.cast_zero
    have hfree : ¬ ∃ key ∈ db.wallets.keys, (db.wallets.lookup key).map (·.id) =
        some generatedId.value := by
      rintro ⟨key, -, hkey⟩
      obtain ⟨row, hrow, hrowid⟩ := Option.map_eq_some_iff.1 hkey
      exact hid key row hrow hrowid
    have hchecks := openedRow_checks generatedId.value hscale hlt
    rw [openedRow] at hchecks
    simp only [exec, hbalance, hreserved, nonBlank_code hasset, Bool.true_eq_false, if_false, bind,
      Except.bind, hchecks, checked_none, if_neg hfree, hw, Option.isSome_none]
    rfl
  rw [upsertWallet_eq hscale hlt hamount, Prog.solo_call_none hread]
  show Prog.solo _ (Prog.call _ _) _ _ = _
  exact Prog.solo_call_none (σ := postgres) (s := Stmt.createWallet _) (r := ()) hcreate

/-! ### The script and the runs -/

/-- The user of the seed. -/
def seededUser : UserId := ⟨"user-123", by decide, by decide⟩

/-- The wallets that the seed leaves where there were none. -/
def seededWallets (generatedId generatedId' : Uuid) : Table (String × String) WalletRow :=
  ((∅ : Table (String × String) WalletRow).insert ("user-123", "USDT")
    ⟨generatedId.value, .ofNat 100, .ofNat 100, .ofNat 0 zero_fits⟩).insert ("user-123", "BTC")
    ⟨generatedId'.value, .ofNat 0 zero_fits, .ofNat 0 zero_fits, .ofNat 0 zero_fits⟩

/-- A wallet without a reservation may be there at the start. -/
theorem initial_insert (h : InitialWallets wallets) {key : String × String} {row : WalletRow}
    (hreserved : row.reserved.1 = 0) (havailable : row.available.1 = row.balance.1)
    (hchecks : row.violated = none) : InitialWallets (wallets.insert key row) := by
  intro k w hw
  rcases Table.lookup_insert_cases hw with ⟨-, rfl⟩ | ⟨-, hw⟩
  · exact ⟨hreserved, havailable, hchecks⟩
  · exact h k w hw

/-- 100 USDT. -/
def seededUsdt : Money := ⟨USDT, 100, by norm_num, .intCast _ 100⟩

/-- No BTC. -/
def seededBtc : Money := .zero BTC

/-- The seeding is one wallet after the other. -/
theorem main_eq (generatedId generatedId' : Uuid) : Seed.main env generatedId generatedId' =
    (Seed.upsertWallet env generatedId seededUser.value seededUsdt.asset "100").handle (fun _ ↦
      (Seed.upsertWallet env generatedId' seededUser.value seededBtc.asset "0").handle .ret .raise)
      .raise := by
  rw [Prog.handle_ret_raise]
  rfl

theorem denotes_seededUsdt : Denotes "100".toList seededUsdt.amount :=
  ⟨⟨100, 0⟩, by decide +kernel, by norm_num [Scientific.value, seededUsdt]⟩

theorem denotes_seededBtc : Denotes "0".toList seededBtc.amount :=
  ⟨⟨0, 0⟩, by decide +kernel, by norm_num [Scientific.value, seededBtc, Money.zero]⟩

theorem seededUsdt_lt : seededUsdt.amount < 10 ^ 20 := by norm_num [seededUsdt]

theorem seededBtc_lt : seededBtc.amount < 10 ^ 20 := by
  norm_num [seededBtc, Money.zero]

/-- Where both wallets are there, the seed does nothing. -/
theorem solo_main_again {generatedId generatedId' : Uuid} {w w' : WalletRow}
    (hw : db.wallets.lookup ("user-123", "USDT") = some w)
    (hw' : db.wallets.lookup ("user-123", "BTC") = some w') :
    (Seed.main env generatedId generatedId').solo postgres none db = (.returned (), db) := by
  rw [main_eq, solo_upsertWallet_some (by decide) seededUsdt_lt denotes_seededUsdt _ hw,
    solo_upsertWallet_some (by decide) seededBtc_lt denotes_seededBtc _ hw']
  rfl

theorem usdt_registered (hassets : env.registry = .wellKnown) : USDT ∈ env.registry.assets := by
  rw [hassets]
  decide

theorem btc_registered (hassets : env.registry = .wellKnown) : BTC ∈ env.registry.assets := by
  rw [hassets]
  decide

/-- Where there are no wallets, it opens both. -/
theorem solo_main (hassets : env.registry = .wellKnown) {generatedId generatedId' : Uuid}
    (hne : generatedId.value ≠ generatedId'.value) :
    (Seed.main env generatedId generatedId').solo postgres none (Db.ofWallets ∅) =
      (.returned (), Db.ofWallets (seededWallets generatedId generatedId')) := by
  have hnone : ∀ key row, (Db.ofWallets ∅).wallets.lookup key = some row →
      row.id ≠ generatedId.value := fun key row hrow ↦ by cases hrow
  -- the second wallet is another one, and has another id
  have hother : (seededUser.value, seededBtc.asset.code) ≠
      (seededUser.value, seededUsdt.asset.code) := by decide
  have hnone' : ∀ key row,
      ((Db.ofWallets ∅).write (.putWallet seededUser.value seededUsdt.asset.code
      (openedRow generatedId.value seededUsdt (by decide) seededUsdt_lt))).wallets.lookup key =
        some row → row.id ≠ generatedId'.value := by
    intro key row hrow
    rcases Table.lookup_insert_cases hrow with ⟨-, rfl⟩ | ⟨-, hrow⟩
    · exact hne
    · cases hrow
  rw [main_eq, solo_upsertWallet_none (by decide) seededUsdt_lt denotes_seededUsdt _
      (usdt_registered hassets) rfl hnone,
    solo_upsertWallet_none (by decide) seededBtc_lt denotes_seededBtc _ (btc_registered hassets)
      (Finmap.lookup_insert_of_ne _ hother) hnone']
  have hhundred : seededUsdt.toColumn (by decide) seededUsdt_lt = Numeric.ofNat 100 :=
    Subtype.ext rfl
  have hzero : seededBtc.toColumn (by decide) seededBtc_lt = Numeric.ofNat 0 zero_fits :=
    Subtype.ext Nat.cast_zero.symm
  simp only [openedRow, hhundred, hzero]
  rfl

/-- **The seed is sound.** From tables without wallets it opens wallets that runs may start from,
and in every state of every run from them it leaves the tables as they are. -/
theorem seed_sound (hassets : env.registry = .wellKnown) (generatedId generatedId' : Uuid)
    (hne : generatedId.value ≠ generatedId'.value) :
    (Seed.main env generatedId generatedId').solo postgres none (Db.ofWallets ∅) =
        (.returned (), Db.ofWallets (seededWallets generatedId generatedId')) ∧
      InitialWallets (seededWallets generatedId generatedId') ∧
      ReadableWallets env (seededWallets generatedId generatedId') ∧
      ∀ s, System.Reaches env (System.initial (seededWallets generatedId generatedId')) s →
        ∀ i i', (Seed.main env i i').solo postgres none s.db = (.returned (), s.db) := by
  have hchecks : ∀ (id : String) (n : ℕ) (h : |(n : ℚ)| < 10 ^ 20),
      (⟨id, .ofNat n h, .ofNat n h, .ofNat 0 zero_fits⟩ : WalletRow).violated = none := fun id n h ↦
    WalletRow.violated_eq_none.2 ⟨⟨Nat.cast_nonneg n, Nat.cast_nonneg n, by simp [Numeric.ofNat]⟩,
      by simp [Numeric.ofNat]⟩
  have hreadable : ∀ (id : String) (n : ℕ) (h : |(n : ℚ)| < 10 ^ 20) (asset : Asset),
      (⟨id, .ofNat n h, .ofNat n h, .ofNat 0 zero_fits⟩ : WalletRow).Readable asset :=
    fun id n h asset ↦ ⟨hchecks id n h, .intCast _ n, .intCast _ n, .intCast _ 0⟩
  have hinitial : InitialWallets (seededWallets generatedId generatedId') := by
    have hempty : InitialWallets ∅ := fun key row hrow ↦ by cases hrow
    exact initial_insert (initial_insert hempty Nat.cast_zero rfl (hchecks _ _ _)) Nat.cast_zero rfl
      (hchecks _ _ _)
  refine ⟨solo_main hassets hne, hinitial, ?_, fun s hrun i i' ↦ ?_⟩
  · have hempty : ReadableWallets env ∅ := fun key row hrow ↦ by cases hrow
    have hadd : ∀ {wallets : Table (String × String) WalletRow} {asset : Asset} {row : WalletRow},
        ReadableWallets env wallets → asset ∈ env.registry.assets → row.Readable asset →
          ReadableWallets env (wallets.insert (seededUser.value, asset.code) row) :=
      fun h hasset hrow ↦ h.insert hasset hrow
    exact hadd (hadd hempty (usdt_registered hassets)
      (hreadable generatedId.value 100 (by norm_num) _)) (btc_registered hassets)
      (hreadable generatedId'.value 0 (by norm_num) _)
  · -- wallets stay
    have hsound : Sound env _ (fun _ _ ↦ True) _ := sound_of_reaches hinitial .refl
    have hevolves := hsound.evolves_of_reaches hrun
    obtain ⟨w, hw, -⟩ := hevolves.wallets ("user-123", "USDT") _ rfl
    obtain ⟨w', hw', -⟩ := hevolves.wallets ("user-123", "BTC") _ rfl
    exact solo_main_again hw hw'

/-- The seeded user accepts a quote, and the seed is run again. -/
theorem seed_sound_sample : ∃ s : System,
    (s.db.wallets.lookup ("user-123", "USDT")).any (fun w ↦ decide (w.reserved.1 = 60)) = true ∧
    ∀ i i', (Seed.main .reference i i').solo postgres none s.db = (.returned (), s.db) := by
  have hrun : ∃ s, System.Reaches .reference
      (System.initial (seededWallets (.ofText "w-8") (.ofText "w-9"))) s ∧
      (s.db.wallets.lookup ("user-123", "USDT")).any (fun w ↦ decide (w.reserved.1 = 60)) = true :=
    System.exists_of_play (callFor 1 (.createQuote ⟨"user-123", "USDT", "BTC", "60"⟩ sampleQuoteId
      sampleTime) 1 ++ callFor 2 sampleAccept 10) _ (by decide +kernel)
  obtain ⟨s, hreaches, hs⟩ := hrun
  obtain ⟨-, -, -, hagain⟩ :=
    @seed_sound .reference rfl (.ofText "w-8") (.ofText "w-9") (by decide)
  exact ⟨s, hs, hagain s hreaches⟩

end Ledger

end WalletConversion
