import WalletConversion.Application.Reference
import WalletConversion.Ledger.Encoding

/-!
# The exchange executes an order once

Any number of calls of the exchange adapter run against one database, from any number of adapter
instances in any modes. A call proposes a result, inserts it unless the order is known, and then
reads the row: what it proposed is lost when another call was first. `executed_once` says what the
calls agree on.

The system is the same as for the application, with orders in place of its calls: `orders` is the
contract of one order, and the rest is `Coherent.of_reaches`.
-/

namespace WalletConversion

open Transactional DecimalNotation

/-- The modes an instance of the adapter is in. -/
structure FakeExchangeAdapter.Modes where
  defaultMode : ExecutionOutcome
  perOrderMode : String → Option ExecutionOutcome

/-- `perOrderMode.get(clientOrderId) ?? defaultMode`. -/
def FakeExchangeAdapter.Modes.modeOf (modes : FakeExchangeAdapter.Modes) (clientOrderId : String) :
    ExecutionOutcome :=
  (modes.perOrderMode clientOrderId).getD modes.defaultMode

/-- A call of the adapter: the order, and the modes its instance is in when the call starts. -/
structure Order where
  modes : FakeExchangeAdapter.Modes
  command : ExecuteConversionCommand

/-- The program of a call. -/
def Order.program (env : Platform) (t : Order) : App ExecutionResult :=
  FakeExchangeAdapter.execute env t.command (t.modes.modeOf t.command.clientOrderId)

/-- The amounts of the order are values of `NUMERIC(38,18)`. -/
def Order.Fits (t : Order) : Prop :=
  ∃ source target : Numeric, DenotesSigned t.command.sourceAmount.toList source.1 ∧
    DenotesSigned t.command.targetAmount.toList target.1

/-- The database and the calls of the adapter. -/
abbrev Orders := State Db Write Stmt Stmt.Result Thrown Order ExecutionResult

/-- Any number of steps of the calls. -/
def Orders.Reaches (env : Platform) : Orders → Orders → Prop :=
  Transactional.Reaches postgres (Order.program env) (fun _ t ↦ t.Fits) fun _ _ ↦ True

/-- The row is that of the order: the same conversion, user and assets, and equal numbers. -/
structure SameCommand (command : ExecuteConversionCommand) (row : ExchangeRow) : Prop where
  conversionId : row.conversionId = command.conversionId
  userId : row.userId = command.userId
  sourceAsset : row.sourceAsset = command.sourceAsset
  targetAsset : row.targetAsset = command.targetAsset
  sourceAmount : DenotesSigned command.sourceAmount.toList row.sourceAmount.1
  targetAmount : DenotesSigned command.targetAmount.toList row.targetAmount.1

namespace Order

variable {env : Platform} {t : Order} {row : ExchangeRow} {db : Db}

/-! ### The comparison -/

/-- **Comparing a stored number with a text** compares the two numbers. -/
theorem matchesText_eq {n m : Numeric} {text : String} (h : DenotesSigned text.toList m.1) :
    FakeExchangeAdapter.matchesText env n text = .ok (decide (n.1 = m.1)) := by
  obtain ⟨s₁, m₁, hm₁, hdec₁⟩ :=
    Decimal.ofText_of_denotesSigned env.toDecimalJs (env.denotesSigned_numericText n)
  obtain ⟨s₂, m₂, hm₂, hdec₂⟩ := Decimal.ofText_of_denotesSigned env.toDecimalJs h
  rw [FakeExchangeAdapter.matchesText, hdec₁, hdec₂]
  simp only [bind, Except.bind, Decimal.equals_finite, hm₁, hm₂]
  rfl

/-- **The check of the adapter** passes exactly on the row of the order. -/
theorem assertSameCommand_iff (hfits : t.Fits) :
    FakeExchangeAdapter.assertSameCommand env t.command row = .ok () ↔
      SameCommand t.command row := by
  obtain ⟨source, target, hsource, htarget⟩ := hfits
  unfold FakeExchangeAdapter.assertSameCommand
  rw [matchesText_eq hsource]
  simp only [bind, Except.bind]
  by_cases hs : row.sourceAmount.1 = source.1
  · by_cases ht : row.targetAmount.1 = target.1
    · simp only [hs, decide_true, if_true, matchesText_eq htarget, ht, and_true]
      constructor
      · intro h
        split_ifs at h with hid
        obtain ⟨h₁, h₂, h₃, h₄⟩ := hid
        exact ⟨h₁, h₂, h₃, h₄, hs ▸ hsource, ht ▸ htarget⟩
      · intro h
        exact if_pos ⟨h.conversionId, h.userId, h.sourceAsset, h.targetAsset⟩
    · have hne : ¬ SameCommand t.command row := fun h ↦ ht (h.targetAmount.unique htarget)
      simp [hs, matchesText_eq htarget, ht, hne]
  · have hne : ¬ SameCommand t.command row := fun h ↦ hs (h.sourceAmount.unique hsource)
    simp [hs, hne, pure, Except.pure]

/-! ### The statements -/

/-- **The insertion of an order** is never refused. It leaves a row that is there alone. -/
theorem exec_insertExchange (hfits : t.Fits) (mode : ExecutionOutcome) :
    ∃ row, SameCommand t.command row ∧ ∀ (locked : LockKey → Bool) (db : Db),
      exec (.insertExchange (FakeExchangeAdapter.orderData t.command mode)) locked db = .ok
        (match db.exchange.lookup t.command.clientOrderId with
        | some _ => ((0 : ℕ), [])
        | none => ((1 : ℕ), [.putExchange t.command.clientOrderId row])) := by
  obtain ⟨source, target, hsource, htarget⟩ := hfits
  have hcolumn {text : String} {n : Numeric} (h : DenotesSigned text.toList n.1) :
      column text = .ok n := by
    rw [column, number_of_denotesSigned h]
    exact (assign_of_isFixed n.2.1).trans (dif_pos n.2.2)
  refine ⟨⟨t.command.conversionId, t.command.userId, t.command.sourceAsset, t.command.targetAsset,
    source, target, mode, (FakeExchangeAdapter.buildResult t.command mode).reason,
    s!"fake-{t.command.clientOrderId}"⟩, ⟨rfl, rfl, rfl, rfl, hsource, htarget⟩, ?_⟩
  intro locked db
  simp only [exec, FakeExchangeAdapter.orderData, hcolumn hsource, hcolumn htarget, bind,
    Except.bind]
  split <;> simp only [*]

/-! ### The contract -/

/-- An order inserts its own row at most, and no statement is refused. -/
def orders : Contract postgres Order where
  inv _ := True
  guar t a b := b = a ∨ ∃ row, a.exchange.lookup t.command.clientOrderId = none ∧
    b = a.write (.putExchange t.command.clientOrderId row)
  compat _ _ := True
  observed _ _ := True
  demand _ _ db s := ∀ locked, ∃ out, exec s locked db = .ok out

/-- Rows of the exchange stay as they are. -/
def Kept (a b : Db) : Prop :=
  ∀ id row, a.exchange.lookup id = some row → b.exchange.lookup id = some row

theorem kept_of_guar {a b : Db} (h : orders.guar t a b) : Kept a b := by
  rcases h with rfl | ⟨new, hnone, rfl⟩
  · exact fun _ _ h ↦ h
  · intro id row hrow
    have hne : id ≠ t.command.clientOrderId := by
      rintro rfl
      rw [hnone] at hrow
      cases hrow
    exact (Finmap.lookup_insert_of_ne _ hne).trans hrow

theorem kept_of_rely {held : List LockKey} {a b : Db} (h : orders.Rely t held a b) : Kept a b :=
  h.lift Kept (fun _ _ _ h ↦ h) (fun _ _ _ h h' id row hrow ↦ h' id row (h id row hrow))
    fun _ _ _ _ _ _ hguar _ ↦ kept_of_guar hguar

/-- How a call ended: it answers what the row of its order says, or the row is that of another order
and the call has changed nothing. -/
def Answers (t : Order) (r : Except Thrown ExecutionResult) (d : List Write) (db : Db) : Prop :=
  ∃ row, db.exchange.lookup t.command.clientOrderId = some row ∧
    match r with
    | .ok result => SameCommand t.command row ∧
      result = ⟨row.outcome, row.externalReference, row.reason⟩
    | .error _ => ¬ SameCommand t.command row ∧ d = []

/-- Reading the row, once it is there. -/
theorem findExchange_wp (hfits : t.Fits) {d : List Write}
    (hrow : db.exchange.lookup t.command.clientOrderId = some row)
    (hd : d = [] ∨ SameCommand t.command row) :
    orders.wp t
      (.call (.findExchange t.command.clientOrderId) (FakeExchangeAdapter.answer env t.command))
      (fun r o d db ↦ o = none ∧ Answers t r d db) none d db := by
  refine Contract.wp_call_none fun db₁ hr₁ _ ↦ ⟨fun _ ↦ ⟨_, rfl⟩, fun locked r ws hx _ ↦ ?_⟩
  cases hx
  have hrow₁ := kept_of_rely hr₁ _ _ hrow
  rw [hrow₁, List.append_nil]
  refine ⟨⟨trivial, .inl rfl⟩, ?_⟩
  rw [FakeExchangeAdapter.answer]
  rcases hcheck : FakeExchangeAdapter.assertSameCommand env t.command row with e | ⟨⟩
  · have hne : ¬ SameCommand t.command row := fun hsame ↦ by
      rw [(assertSameCommand_iff hfits).2 hsame] at hcheck
      cases hcheck
    exact Contract.wp_raise fun db₂ hr₂ _ ↦
      ⟨rfl, row, kept_of_rely hr₂ _ _ hrow₁, hne, hd.resolve_right hne⟩
  · exact Contract.wp_ret fun db₂ hr₂ _ ↦ ⟨rfl, row, kept_of_rely hr₂ _ _ hrow₁,
      (assertSameCommand_iff hfits).1 hcheck, rfl⟩

/-- **A call of the adapter** keeps its contract, whoever else is calling. -/
theorem program_wp (env : Platform) (hfits : t.Fits) (db : Db) :
    orders.wp t (t.program env) (fun r o d db ↦ o = none ∧ Answers t r d db) none [] db := by
  obtain ⟨row, hsame, hexec⟩ :=
    exec_insertExchange hfits (t.modes.modeOf t.command.clientOrderId)
  rw [Order.program, FakeExchangeAdapter.execute_eq]
  refine Contract.wp_call_none fun db₁ hr₁ _ ↦
    ⟨fun locked ↦ ⟨_, hexec locked db₁⟩, fun locked r ws hx _ ↦ ?_⟩
  rw [show postgres.exec = exec from rfl, hexec] at hx
  rcases hrow : db₁.exchange.lookup t.command.clientOrderId with - | stored
  · rw [hrow] at hx
    cases hx
    exact ⟨⟨trivial, .inr ⟨row, hrow, rfl⟩⟩,
      findExchange_wp hfits (Finmap.lookup_insert _) (.inr hsame)⟩
  · rw [hrow] at hx
    cases hx
    exact ⟨⟨trivial, .inl rfl⟩, findExchange_wp hfits hrow (.inl rfl)⟩

theorem program_flat (env : Platform) (t : Order) : (t.program env).Flat := by
  rw [Order.program, FakeExchangeAdapter.execute_eq]
  intro _ x
  cases x with
  | none => exact trivial
  | some row =>
    rw [FakeExchangeAdapter.answer]
    rcases FakeExchangeAdapter.assertSameCommand env t.command row with e | ⟨⟩ <;> exact trivial

/-! ### Runs -/

/-- Where every call of a run stands, and that none of them holds a lock. -/
structure Sound (env : Platform) (s : Orders) : Prop where
  coherent : Coherent orders Answers s
  unlocked : ∀ pid p, s.procs.lookup pid = some p → p.rest.Flat ∧ p.pending = none

theorem Sound.of_step {s s' : Orders} (h : Sound env s)
    (hstep : Transactional.Step postgres (Order.program env) (fun _ t ↦ t.Fits)
      (fun _ _ ↦ True) s s') : Sound env s' where
  coherent := h.coherent.of_step
    (fun s t _ hfits ↦ ⟨program_wp env hfits s.db, fun _ _ _ ↦ ⟨trivial, trivial⟩⟩) hstep
  unlocked pid p hp := by
    obtain ⟨m, -, hm, -⟩ := hstep
    exact State.flat_of_step hm (fun pid p hp _ ↦ h.unlocked pid p hp) hp (program_flat env p.task)

theorem Sound.kept_of_step {s s' : Orders} (h : Sound env s)
    (hstep : Transactional.Step postgres (Order.program env) (fun _ t ↦ t.Fits)
      (fun _ _ ↦ True) s s') : Kept s.db s'.db := by
  rcases h.coherent.change_of_step hstep with heq | ⟨_, _, _, _, -, -, -, -, -, -, hguar⟩
  · rw [heq]
    exact fun _ _ h ↦ h
  · exact kept_of_guar hguar

/-- **Every state of a run is sound**, and no row has changed on the way. -/
theorem Sound.of_reaches {s s' : Orders} (h : Sound env s) (hrun : Orders.Reaches env s s') :
    Sound env s' ∧ Kept s.db s'.db := by
  induction hrun with
  | refl => exact ⟨h, fun _ _ h ↦ h⟩
  | tail _ hstep ih =>
    exact ⟨ih.1.of_step hstep, fun id row hrow ↦ ih.1.kept_of_step hstep id row (ih.2 id row hrow)⟩

theorem sound_start (env : Platform) (db₀ : Db) : Sound env ⟨db₀, ∅⟩ where
  coherent :=
    have hallowed (s : Orders) (t : Order) (_ : Coherent orders Answers s) (hfits : t.Fits) :=
      And.intro (program_wp env hfits s.db) fun (pid : ℕ) (p : Proc _ _ _ _ _ _)
        (_ : s.procs.lookup pid = some p) ↦ And.intro (trivial : orders.compat t p.task)
          (trivial : orders.compat p.task t)
    .of_reaches trivial rfl hallowed .refl
  unlocked pid p hp := by simp at hp

/-- **No call is ever stuck**: it has returned, it has thrown, or it can take its next step. -/
theorem Sound.progress {s : Orders} (h : Sound env s) {pid : ℕ}
    {p : Proc Write Stmt Stmt.Result Thrown Order ExecutionResult}
    (hp : s.procs.lookup pid = some p) (hlive : p.live = true) :
    (∃ r, p.rest = .ret r) ∨ (∃ x, p.rest = .raise x) ∨
      ∃ s', s.step postgres (Order.program env) (.run pid) = some s' := by
  obtain ⟨hflat, hpending⟩ := h.unlocked pid p hp
  have hfree (key : LockKey) : s.lockedFor postgres pid key = false := by
    rw [← Bool.not_eq_true, State.lockedFor_eq_true]
    rintro ⟨j, -, q, hq, hkey⟩
    rw [(h.unlocked j q hq).2] at hkey
    simp at hkey
  rcases hrest : p.rest with r | x | ⟨st, k⟩ | k | k | k
  · exact .inl ⟨r, rfl⟩
  · exact .inr (.inl ⟨x, rfl⟩)
  · obtain ⟨⟨r, ws⟩, hexec⟩ := h.coherent.demand hp hlive hrest (s.lockedFor postgres pid)
    exact .inr (.inr ⟨_, State.step_run hp hlive
      (Proc.advance_call_none hrest hpending hexec fun key _ ↦ hfree key)⟩)
  all_goals
    rw [hrest] at hflat
    exact hflat.elim

end Order

/-- **The exchange executes an order at most once.** A row never changes. A call that returned has
answered what the row of its order says, and the row is that of its own command; a call that threw
found the row of another command and has changed nothing; every other call that was not cut off can
go on. -/
theorem executed_once {env : Platform} {db₀ : Db} {s : Orders}
    (hrun : Orders.Reaches env ⟨db₀, ∅⟩ s) :
    (∀ s', Orders.Reaches env s s' → ∀ id row, s.db.exchange.lookup id = some row →
      s'.db.exchange.lookup id = some row) ∧
    (∀ pid p, s.procs.lookup pid = some p → p.live = true →
      (∀ r, p.rest = .ret r → ∃ row,
        s.db.exchange.lookup p.task.command.clientOrderId = some row ∧
        SameCommand p.task.command row ∧
        r = ⟨row.outcome, row.externalReference, row.reason⟩) ∧
      (∀ x, p.rest = .raise x → ∃ row,
        s.db.exchange.lookup p.task.command.clientOrderId = some row ∧
        ¬ SameCommand p.task.command row ∧ p.durable = []) ∧
      ((∃ r, p.rest = .ret r) ∨ (∃ x, p.rest = .raise x) ∨
        ∃ s', s.step postgres (Order.program env) (.run pid) = some s')) ∧
    ∀ i j p q r r', s.procs.lookup i = some p → s.procs.lookup j = some q → p.live = true →
      q.live = true → p.task.command.clientOrderId = q.task.command.clientOrderId →
      p.rest = .ret r → q.rest = .ret r' → r = r' := by
  have hsound := ((Order.sound_start env db₀).of_reaches hrun).1
  refine ⟨fun s' hrun' ↦ (hsound.of_reaches hrun').2, ?_, ?_⟩
  · intro pid p hp hlive
    refine ⟨fun r hr ↦ (hsound.coherent.post_of_ret hp hlive hr).2,
      fun x hx ↦ (hsound.coherent.post_of_raise hp hlive hx).2, hsound.progress hp hlive⟩
  · intro i j p q r r' hp hq hplive hqlive hid hr hr'
    obtain ⟨row, hrow, -, rfl⟩ := (hsound.coherent.post_of_ret hp hplive hr).2
    obtain ⟨row', hrow', -, rfl⟩ := (hsound.coherent.post_of_ret hq hqlive hr').2
    rw [hid, hrow'] at hrow
    cases hrow
    rfl

/-- An order for 500 USDT, with the amount in some notation and the exchange in some mode. -/
def sampleOrder (sourceAmount : String) (mode : ExecutionOutcome) : Order where
  modes := ⟨mode, fun _ ↦ none⟩
  command := ⟨"e-1", "c-1", "u-1", "USDT", "BTC", sourceAmount, "0.00805"⟩

/-- Two instances in different modes get the same order, in different notations. The second answers
the success of the first. -/
theorem executed_once_sample : ∃ (s : Orders) (row : ExchangeRow)
    (p : Proc Write Stmt Stmt.Result Thrown Order ExecutionResult),
    Orders.Reaches .reference ⟨Db.ofWallets ∅, ∅⟩ s ∧ s.procs.lookup 2 = some p ∧
    s.db.exchange.lookup "e-1" = some row ∧ SameCommand (sampleOrder "5e2" .FAILURE).command row ∧
    p.rest = .ret ⟨row.outcome, row.externalReference, row.reason⟩ ∧ row.outcome = .SUCCESS := by
  have htarget : DenotesSigned "0.00805".toList (805 / 10 ^ 5) :=
    ⟨(false, ⟨805, -5⟩), by decide +kernel, by decide +kernel⟩
  have hfits (amount : String) (mode : ExecutionOutcome) (h : DenotesSigned amount.toList 500) :
      (sampleOrder amount mode).Fits :=
    ⟨.ofNat 500, ⟨805 / 10 ^ 5, ⟨805 * 10 ^ 13, by norm_num⟩, by norm_num [abs_of_pos]⟩, h,
      htarget⟩
  have hrun : ∃ s, Orders.Reaches .reference ⟨Db.ofWallets ∅, ∅⟩ s ∧
      ∃ p ∈ s.procs.lookup 2, p.live = true ∧
        p.task.command = (sampleOrder "5e2" .FAILURE).command ∧
        (match p.rest with
          | .ret r => decide (r.outcome = .SUCCESS)
          | _ => false) = true := by
    refine State.exists_of_steps
      [.spawn 1 (sampleOrder "500" .SUCCESS), .spawn 2 (sampleOrder "5e2" .FAILURE), .run 1, .run 2,
        .run 2] ?_ _ (by decide +kernel)
    simp only [Move.spawned, List.filterMap, List.mem_cons, List.not_mem_nil, or_false]
    rintro t (rfl | rfl) -
    · exact hfits _ _ ⟨(false, ⟨500, 0⟩), by decide +kernel, by decide +kernel⟩
    · exact hfits _ _ ⟨(false, ⟨5, 2⟩), by decide +kernel, by decide +kernel⟩
  obtain ⟨s, hreaches, p, hp, hlive, hcommand, hsuccess⟩ := hrun
  cases hrest : p.rest with
  | ret r =>
    rw [hrest] at hsuccess
    obtain ⟨row, hrow, hsame, rfl⟩ := ((executed_once hreaches).2.1 2 p hp hlive).1 r hrest
    rw [hcommand] at hrow hsame
    exact ⟨s, row, p, hreaches, hp, hrow, hsame, hrest, of_decide_eq_true hsuccess⟩
  | _ =>
    rw [hrest] at hsuccess
    cases hsuccess

end WalletConversion
