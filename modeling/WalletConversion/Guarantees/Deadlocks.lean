import WalletConversion.Application.Reference
import WalletConversion.Foundation.Deadlock
import WalletConversion.Ledger.Calls

/-!
# Deadlocks

An accept takes its locks in the order of `LockKey.rank`: the key, the quote, the entries of the new
conversion, the wallet, and the rows it has made itself. A settlement takes the event, then the
wallets, then the conversion. A successful settlement takes two wallets, the source wallet first,
and two conversions of one user in opposite directions take them in opposite orders.

* `settlements_deadlock` — a run in which two such settlements wait for each other.
* `deadlocks_only_between_settlements` — nothing else can be in a deadlock: every call in a cycle of
  waiting calls is a successful settlement that holds its source wallet and waits for its target
  wallet, and all of them are of one user.
-/

namespace WalletConversion

open Transactional Relation

namespace Ledger

variable {env : Platform} {wallets : Table (String × String) WalletRow} {s : System}
  {i j k : ℕ} {key held : LockKey} {userId : String}

/-! ### The calls of a cycle -/

/-- The call is a settlement of a conversion of the user with outcome `SUCCESS`, which holds the
source wallet and asks for the target wallet. -/
def PaysAcross (s : System) (userId : String) (i : ℕ) : Prop :=
  ∃ p payload inputs row x, s.procs.lookup i = some p ∧ p.task = .execute payload inputs ∧
    s.db.conversions.lookup payload.conversionId = some row ∧
    row.exchangeExecutionId = some payload.eventId ∧ row.status = .EXECUTION_REQUESTED ∧
    s.db.exchange.lookup payload.eventId = some x ∧ x.outcome = .SUCCESS ∧ row.userId = userId ∧
    s.Holds postgres i (.wallet userId row.sourceAsset) ∧
    .wallet userId row.targetAsset ∈ s.asks postgres i

/-- A call asks for a key out of order: it holds one wallet and asks for the other. -/
def OutOfOrder (s : System) (i : ℕ) (held key : LockKey) : Prop :=
  ∃ p, s.procs.lookup i = some p ∧ PaysInto p.task s.db held key

theorem OutOfOrder.rank_eq (h : OutOfOrder s i held key) : held.rank = key.rank := by
  obtain ⟨_, -, _, _, _, _, -, -, -, -, -, -, rfl, rfl⟩ := h
  rfl

/-- **A call that holds a key asks for keys in order**, or pays from one wallet into another. -/
theorem Sound.asks_inOrder {observed : Db → Db → Prop} (h : Sound env wallets observed s)
    (hasks : key ∈ s.asks postgres i) (hheld : s.Holds postgres i held)
    (hnot : ¬ s.Holds postgres i key) : held.rank < key.rank ∨ OutOfOrder s i held key := by
  obtain ⟨p, st, k, r, ws, hp, hlive, hrest, hx, hkey⟩ := State.mem_asks.1 hasks
  obtain ⟨q, hq, hheld⟩ := hheld
  rw [hp] at hq
  cases hq
  cases hpending : p.pending with
  | none => simp [hpending] at hheld
  | some vs =>
    have hmine : key ∉ postgres.keysOf vs := fun hmem ↦ hnot ⟨p, hp, by rwa [hpending]⟩
    rw [hpending] at hheld
    rcases (h.demand hp hlive hrest).ordered _ r ws hx vs hpending key hkey held hheld with
      hmem | hlt | hpays
    · exact absurd hmem hmine
    · exact Or.inl hlt
    · exact Or.inr ⟨p, hp, hpays⟩

/-- A call in a cycle asks for its key out of order. -/
theorem Sound.outOfOrder_of_cycle {observed : Db → Db → Prop} (h : Sound env wallets observed s)
    (hwaits : s.WaitsOn postgres i key j) (hpath : ReflTransGen (s.WaitsFor postgres) j k)
    (hback : s.WaitsOn postgres k held i) : OutOfOrder s i held key :=
  State.exempt_of_cycle (fun _ _ _ ↦ h.asks_inOrder) (fun _ _ _ ↦ OutOfOrder.rank_eq) h.exclusive
    hwaits hpath hback

/-- The conversion of a settlement has one user. -/
theorem PaysAcross.user_eq {userId' : String} (h : PaysAcross s userId i)
    (h' : PaysAcross s userId' i) : userId' = userId := by
  obtain ⟨p, payload, inputs, row, x, hp, htask, hrow, -, -, -, -, rfl, -, -⟩ := h
  obtain ⟨p', payload', inputs', row', x', hp', htask', hrow', -, -, -, -, rfl, -, -⟩ := h'
  rw [hp] at hp'
  cases hp'
  rw [htask] at htask'
  cases htask'
  rw [hrow] at hrow'
  cases hrow'
  rfl

/-- A call that waits for another, which waits for it by way of others: both pay across the wallets
of one user. -/
theorem Sound.paysAcross_of_edge {observed : Db → Db → Prop} (h : Sound env wallets observed s)
    (hedge : s.WaitsFor postgres i j) (hpath : TransGen (s.WaitsFor postgres) j i) :
    ∃ userId, PaysAcross s userId i ∧ PaysAcross s userId j := by
  obtain ⟨key, hwaits⟩ := hedge
  -- who waits for `i`, and for whom `j` waits
  obtain ⟨k, hjk, held, hback⟩ := TransGen.tail'_iff.1 hpath
  obtain ⟨l, ⟨next, hnext⟩, hli⟩ := TransGen.head'_iff.1 hpath
  obtain ⟨p, hp, payload, inputs, row, x, htask, hrow, hevent, hstatus, hx, hsuccess, rfl, rfl⟩ :=
    h.outOfOrder_of_cycle hwaits hjk hback
  obtain ⟨q, hq, payload', inputs', row', x', htask', hrow', hevent', hstatus', hx', hsuccess',
    hheld, rfl⟩ := h.outOfOrder_of_cycle hnext hli hwaits
  obtain ⟨huser, htarget⟩ : row.userId = row'.userId ∧ row.targetAsset = row'.sourceAsset := by
    simpa using hheld
  refine ⟨row.userId, ?_, ?_⟩
  · exact ⟨p, payload, inputs, row, x, hp, htask, hrow, hevent, hstatus, hx, hsuccess, rfl,
      hback.2.2, hwaits.2.1⟩
  · exact ⟨q, payload', inputs', row', x', hq, htask', hrow', hevent', hstatus', hx', hsuccess',
      huser.symm, htarget ▸ hwaits.2.2, huser ▸ hnext.2.1⟩

/-! ### Deadlocks -/

/-- **Deadlocks only between settlements.** The calls of a cycle of waiting calls are successful
settlements of one user, each of which holds the source wallet of its conversion and waits for the
target wallet. -/
theorem deadlocks_only_between_settlements (hwallets : InitialWallets wallets)
    (hrun : System.Reaches env (System.initial wallets) s)
    (hcycle : TransGen (s.WaitsFor postgres) i i) :
    ∃ userId, ∀ j, TransGen (s.WaitsFor postgres) i j → TransGen (s.WaitsFor postgres) j i →
      PaysAcross s userId j := by
  have hsound := sound_of_reaches hwallets hrun
  obtain ⟨userId, hi⟩ : ∃ userId, PaysAcross s userId i := by
    obtain ⟨j, hij, hji⟩ := TransGen.head'_iff.1 hcycle
    obtain ⟨userId, hi, -⟩ := hsound.paysAcross_of_edge hij (TransGen.trans_right hji hcycle)
    exact ⟨userId, hi⟩
  refine ⟨userId, fun j hij hji ↦ ?_⟩
  induction hij with
  | @single b hedge =>
    obtain ⟨userId', hi', hb⟩ := hsound.paysAcross_of_edge hedge hji
    rwa [← hi.user_eq hi']
  | @tail b c hib hedge ih =>
    obtain ⟨userId', hb, hc⟩ := hsound.paysAcross_of_edge hedge (hji.trans hib)
    rwa [← (ih (.head hedge hji)).user_eq hb]

/-! ### Two settlements in opposite directions -/

/-- A user with wallets of 1000 USDT and 1 BTC. -/
def bothWallets : Table (String × String) WalletRow :=
  sampleWallets.insert ("u-1", "BTC")
    { sampleRow with id := "w-3", balance := .ofNat 1, available := .ofNat 1 }

/-- The user asks for a quote for 1 BTC in USDT. -/
def oppositeQuote : Task := .createQuote ⟨"u-1", "BTC", "USDT", "1"⟩ (.ofText "q-2") sampleTime

/-- The user accepts the quote. -/
def oppositeAccept : Task :=
  .acceptQuote ⟨"q-2", "key-2"⟩ ⟨sampleTime, .ofText "c-2", .ofText "e-2", sampleTime, 0⟩

/-- The event of this conversion. -/
def oppositePayload : ConversionExecutionRequestedPayload where
  eventId := "e-2"
  eventType := "ConversionExecutionRequested"
  conversionId := "c-2"
  userId := "u-1"
  sourceAsset := "BTC"
  targetAsset := "USDT"
  sourceAmount := "1"
  targetAmount := "62111.801242"
  occurredAt := sampleTime.timestampText

/-- Both conversions are accepted and executed, and each settlement has paid from its source
wallet. -/
def oppositeSettlements : List (Move Task) :=
  sampleAccepted ++ callFor 3 oppositeQuote 1 ++ callFor 4 oppositeAccept 10 ++
    callFor 5 (sampleExecute .SUCCESS) 9 ++
    callFor 6 (.execute oppositePayload ⟨.SUCCESS, sampleTime, sampleTime, .ofText "w-4"⟩) 9

/-- The two settlements wait for each other. -/
theorem exists_deadlock : ∃ s, System.Reaches .reference (System.initial bothWallets) s ∧
    s.WaitsOn postgres 5 (.wallet "u-1" "BTC") 6 ∧ s.WaitsOn postgres 6 (.wallet "u-1" "USDT") 5 :=
  System.exists_of_play oppositeSettlements _ (by decide +kernel)

/-- **Accepts and settlements can deadlock.** -/
theorem settlements_deadlock : ¬ ∀ (wallets : Table (String × String) WalletRow) (s : System),
    InitialWallets wallets → System.Reaches .reference (System.initial wallets) s →
    ∀ i, ¬ TransGen (s.WaitsFor postgres) i i := by
  intro h
  obtain ⟨s, hreaches, hfive, hsix⟩ := exists_deadlock
  exact h bothWallets s (by decide +kernel) hreaches 5 (.head ⟨_, hfive⟩ (.single ⟨_, hsix⟩))

/-- The two settlements of the deadlock are of the user `u-1`. -/
theorem deadlocks_only_between_settlements_sample : ∃ (s : System) (userId : String),
    PaysAcross s userId 5 ∧ PaysAcross s userId 6 := by
  obtain ⟨s, hreaches, hfive, hsix⟩ := exists_deadlock
  have hforth : TransGen (s.WaitsFor postgres) 5 6 := .single ⟨_, hfive⟩
  have hback : TransGen (s.WaitsFor postgres) 6 5 := .single ⟨_, hsix⟩
  obtain ⟨userId, h⟩ :=
    deadlocks_only_between_settlements (by decide +kernel) hreaches (hforth.trans hback)
  exact ⟨s, userId, h 5 (hforth.trans hback) (hforth.trans hback), h 6 hforth hback⟩

end Ledger

end WalletConversion
