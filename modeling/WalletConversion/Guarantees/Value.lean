import WalletConversion.Guarantees.Conservation

/-!
# No run creates value

The two rates of the table are almost inverse to each other: their product is 0.9999999999999996. A
quote from USDT to BTC is exact before it is cut off, since its product has few digits; a quote in
the other direction may be rounded up by half a unit of its 40th digit, which the product of the
rates makes up for. So a quote never gives more than it takes (`Fair`), and the wealth of a user,
counted at the first of the two rates, never grows.
-/

namespace WalletConversion

open DecimalNotation Transactional

namespace Ledger

variable {env : Platform} {wallets : Table (String × String) WalletRow} {s : System} {a b : Db}

/-! ### Fair quotes -/

/-- What one USDT is worth in BTC. -/
def usdtPrice : ℚ := 161 / 10 ^ 7

/-- A quote between the two assets that gives at most what it takes. -/
inductive Fair (row : QuoteRow) : Prop where
  | forth (source : row.sourceAsset = "USDT") (target : row.targetAsset = "BTC")
      (fair : row.targetAmount.1 ≤ row.sourceAmount.1 * usdtPrice)
  | back (source : row.sourceAsset = "BTC") (target : row.targetAsset = "USDT")
      (fair : row.targetAmount.1 * usdtPrice ≤ row.sourceAmount.1)

/-- A conversion of USDT has too few digits to be rounded up. -/
theorem converted_forth {m result : Money} {r : Magnitude} (hasset : m.asset = USDT)
    (hlt : m.amount < 10 ^ 20) (hr : r.1 = usdtPrice)
    (h : m.convert (.finite false r) BTC = .ok result) :
    result.amount ≤ m.amount * usdtPrice := by
  obtain ⟨r', hr', -, -, -, hamount⟩ := Money.convert_eq_ok h
  cases hr'
  have hdigits : IsFixed 13 (m.amount * r.1) := by
    obtain ⟨n, hn⟩ := m.fixed
    rw [hasset] at hn
    refine ⟨n * 161, ?_⟩
    rw [hn, hr, usdtPrice]
    norm_num [USDT]
    ring
  have hsmall : |m.amount * r.1| < 10 ^ 20 := by
    rw [abs_of_nonneg (mul_nonneg m.nonneg r.2.1), hr, usdtPrice]
    linarith [m.nonneg]
  have hround : roundSig Decimal.precision (m.amount * r.1) = m.amount * r.1 :=
    roundSig_eq_self_of_isFixed hdigits hsmall (by decide)
  rw [hamount, hround, ← hr]
  exact floor_div_le _ _

/-- A conversion of BTC may be rounded up, by less than the two rates leave. -/
theorem converted_back {m result : Money} {r : Magnitude}
    (hr : r.1 = 62111801242236 / 10 ^ 9)
    (h : m.convert (.finite false r) USDT = .ok result) :
    result.amount * usdtPrice ≤ m.amount := by
  obtain ⟨r', hr', -, -, -, hamount⟩ := Money.convert_eq_ok h
  cases hr'
  rcases m.nonneg.eq_or_lt with hzero | hpos
  · rw [hamount, ← hzero, zero_mul, HasDigits.roundSig ⟨0, 0, by norm_num, by norm_num⟩]
    norm_num
  have hproduct : 0 < m.amount * r.1 := by
    rw [hr]
    positivity
  have hle : result.amount ≤ m.amount * r.1 * (1 + 1 / 10 ^ 39) := by
    rw [hamount]
    exact (floor_div_le _ _).trans (Decimal.roundSig_bounds hproduct).2
  calc result.amount * usdtPrice
      ≤ m.amount * r.1 * (1 + 1 / 10 ^ 39) * usdtPrice :=
        mul_le_mul_of_nonneg_right hle (by norm_num [usdtPrice])
    _ = m.amount * (62111801242236 / 10 ^ 9 * (1 + 1 / 10 ^ 39) * (161 / 10 ^ 7)) := by
        rw [hr, usdtPrice]
        ring
    _ ≤ m.amount * 1 := mul_le_mul_of_nonneg_left (by norm_num) m.nonneg
    _ = m.amount := mul_one _

/-- **A quote that was built and stored is fair.** -/
theorem Built.fair (hassets : env.registry = .wellKnown) {generatedId : Uuid}
    {q : Quote} {id : String}
    {row : QuoteRow} (h : Built env generatedId q) (hstored : q.StoredAs env id row) :
    Fair row := by
  have hconverted := h.converted
  have hlt : q.sourceAmount.amount < 10 ^ 20 := by
    rw [← hstored.source.amount_eq]
    exact lt_of_le_of_lt (le_abs_self _) row.sourceAmount.2.2
  rcases pair_of_rate hassets h.source h.target h.rate with
    ⟨hsource, htarget, hrate⟩ | ⟨hsource, htarget, hrate⟩
  · rw [htarget] at hconverted
    refine .forth ?_ ?_ ?_
    · rw [hstored.source.code_eq, hsource, USDT]
    · rw [hstored.target.code_eq, htarget, BTC]
    · rw [hstored.source.amount_eq, hstored.target.amount_eq]
      exact converted_forth hsource hlt hrate hconverted
  · rw [htarget] at hconverted
    refine .back ?_ ?_ ?_
    · rw [hstored.source.code_eq, hsource, BTC]
    · rw [hstored.target.code_eq, htarget, USDT]
    · rw [hstored.source.amount_eq, hstored.target.amount_eq]
      exact converted_back hrate hconverted

/-- Every stored quote is fair. -/
def FairQuotes (db : Db) : Prop :=
  ∀ id row, db.quotes.lookup id = some row → Fair row

theorem Fair.accepted {row : QuoteRow} {inputs : AcceptInputs} (h : Fair row) :
    Fair (acceptedRow row inputs) := by
  cases h with
  | forth source target fair => exact .forth source target fair
  | back source target fair => exact .back source target fair

theorem fairQuotes_of_commit (hassets : env.registry = .wellKnown) {t : Task}
    (hcommit : Commit env t a b) (h : FairQuotes a) : FairQuotes b := by
  intro id row hrow
  cases hcommit with
  | quoteCreated built stored =>
    rcases Table.lookup_insert_cases hrow with ⟨-, rfl⟩ | ⟨-, hrow⟩
    · exact (built_of_build built).fair hassets stored
    · exact h id row hrow
  | accepted _ _ lookup =>
    rcases Table.lookup_insert_cases hrow with ⟨-, rfl⟩ | ⟨-, hrow⟩
    · exact (h _ _ lookup).accepted
    · exact h id row hrow
  | _ => exact h id row hrow

/-! ### Wealth -/

/-- The wealth of a user in BTC. A missing wallet counts zero. -/
def wealth (db : Db) (userId : String) : ℚ :=
  balanceOf db userId "USDT" * usdtPrice + balanceOf db userId "BTC"

/-- The balances after a wallet row was written. -/
theorem balanceOf_insert {db : Db} {table : Table (String × String) WalletRow} {w : WalletRow}
    {key : String × String} (htable : db.wallets = table.insert key w) (userId asset : String) :
    balanceOf db userId asset =
      if (userId, asset) = key then w.balance.1
      else balanceOf (Db.ofWallets table) userId asset := by
  unfold balanceOf
  rw [htable]
  split_ifs with hkey
  · rw [hkey, Finmap.lookup_insert]
    rfl
  · rw [Finmap.lookup_insert_of_ne _ hkey]
    rfl

theorem wealth_congr {userId : String}
    (h : ∀ asset, balanceOf b userId asset = balanceOf a userId asset) :
    wealth b userId = wealth a userId := by
  rw [wealth, wealth, h, h]

/-- The balances after a conversion was completed. -/
theorem balanceOf_completed {db b : Db} {row : ConversionRow} {id : String} {w w' v v' : WalletRow}
    (hdistinct : row.sourceAsset ≠ row.targetAsset)
    (source : db.wallets.lookup (row.userId, row.sourceAsset) = some w)
    (commits : Commits row.sourceAmount.1 w w')
    (target : TargetWallet db (row.userId, row.targetAsset) id v)
    (credits : Credits row.targetAmount.1 v v')
    (hb : b.wallets = (db.wallets.insert (row.userId, row.sourceAsset) w').insert
      (row.userId, row.targetAsset) v') (userId asset : String) :
    balanceOf b userId asset = balanceOf db userId asset
      - (if userId = row.userId ∧ asset = row.sourceAsset then row.sourceAmount.1 else 0)
      + (if userId = row.userId ∧ asset = row.targetAsset then row.targetAmount.1 else 0) := by
  have hv : balanceOf db row.userId row.targetAsset = v.balance.1 := by
    rcases target with ht | ⟨ht, -, hzero, -⟩
    · rw [balanceOf, ht]
      rfl
    · rw [balanceOf, ht, hzero]
      rfl
  have hw : balanceOf db row.userId row.sourceAsset = w.balance.1 := by
    rw [balanceOf, source]
    rfl
  rw [balanceOf_insert hb]
  by_cases htarget : (userId, asset) = (row.userId, row.targetAsset)
  · cases htarget
    simp [credits.balance_eq, hv, hdistinct.symm]
  · rw [if_neg htarget, balanceOf_insert rfl]
    rw [Prod.mk.injEq] at htarget
    rw [if_neg htarget, add_zero]
    by_cases hsource : (userId, asset) = (row.userId, row.sourceAsset)
    · cases hsource
      simp [commits.balance_eq, hw]
    · rw [if_neg hsource]
      rw [Prod.mk.injEq] at hsource
      rw [if_neg hsource, sub_zero]
      rfl

/-- **A commit increases no wealth.** Only a completed conversion changes a balance. -/
theorem wealth_le_of_commit {t : Task} (hvalid : Valid env wallets a) (hfair : FairQuotes a)
    (hcommit : Commit env t a b) (userId : String) : wealth b userId ≤ wealth a userId := by
  cases hcommit with
  | accepted _ _ _ _ _ _ _ _ wallet reserves =>
    refine le_of_eq (wealth_congr fun asset ↦ ?_)
    rw [balanceOf_insert rfl]
    split_ifs with hkey
    · rw [reserves.balance_eq, balanceOf, hkey, wallet]
      rfl
    · rfl
  | failed _ source releases =>
    refine le_of_eq (wealth_congr fun asset ↦ ?_)
    rw [balanceOf_insert rfl]
    split_ifs with hkey
    · rw [releases.balance_eq, balanceOf, hkey, source]
      rfl
    · rfl
  | @completed payload inputs _ c row w w' v v' settles source commits _ target credits _ =>
    obtain ⟨q, hq, -, hterms⟩ := (hvalid.conversions c row settles.lookup).quote
    suffices h : ∀ d : Db, d.wallets = (a.wallets.insert (row.userId, row.sourceAsset) w').insert
        (row.userId, row.targetAsset) v' → wealth d userId ≤ wealth a userId from h _ rfl
    intro d hd
    have hbalance := balanceOf_completed settles.distinct source commits target credits hd userId
    rw [wealth, wealth, hbalance, hbalance]
    -- one wallet loses the source amount, another gains the target amount
    by_cases huser : userId = row.userId
    · cases hfair _ q hq with
      | forth hsource htarget hle =>
        rw [← hterms.sourceAsset] at hsource
        rw [← hterms.targetAsset] at htarget
        rw [← hterms.sourceAmount, ← hterms.targetAmount] at hle
        simp only [huser, hsource, htarget, String.reduceEq, and_true, and_false, if_true, if_false]
        linarith
      | back hsource htarget hle =>
        rw [← hterms.sourceAsset] at hsource
        rw [← hterms.targetAsset] at htarget
        rw [← hterms.sourceAmount, ← hterms.targetAmount] at hle
        simp only [huser, hsource, htarget, String.reduceEq, and_true, and_false, if_true, if_false]
        linarith
    · simp only [huser, false_and, if_false]
      linarith
  | _ => exact le_rfl

/-! ### The run -/

/-- **No run creates value.** From every committed state to the next, and so to any later one, no
user gets richer; and of two stored quotes in opposite directions, of which the second takes no more
than the first gives, the second gives no more than the first takes. -/
theorem no_value_created (hassets : env.registry = .wellKnown) (hwallets : InitialWallets wallets)
    (hrun : System.Reaches env (System.initial wallets) s) :
    (∀ s' userId, System.Step env s s' → wealth s'.db userId ≤ wealth s.db userId) ∧
    (∀ s' userId, System.Reaches env s s' → wealth s'.db userId ≤ wealth s.db userId) ∧
    ∀ id id' there back, s.db.quotes.lookup id = some there → s.db.quotes.lookup id' = some back →
      back.sourceAsset = there.targetAsset → back.sourceAmount.1 ≤ there.targetAmount.1 →
      back.targetAsset = there.sourceAsset ∧ back.targetAmount.1 ≤ there.sourceAmount.1 := by
  have hstart : Sound env wallets (fun _ _ ↦ True) (System.initial wallets) :=
    sound_of_reaches hwallets .refl
  have hfair : ∀ s', System.Reaches env (System.initial wallets) s' → FairQuotes s'.db :=
    fun s' hrun' ↦ hstart.keeps (fun _ _ _ _ hcommit ↦ fairQuotes_of_commit hassets hcommit) hrun'
      fun id row hrow ↦ by simp [System.initial, Db.ofWallets] at hrow
  have hstep : ∀ s' s'' userId, System.Reaches env (System.initial wallets) s' →
      System.Step env s' s'' → wealth s''.db userId ≤ wealth s'.db userId := by
    intro s' s'' userId hrun' hstep
    rcases (hstart.of_reaches hrun').change_of_step hstep with
      heq | ⟨_, _, _, _, -, -, -, -, -, -, hcommit⟩
    · rw [heq]
    · exact wealth_le_of_commit (hstart.of_reaches hrun').inv (hfair s' hrun') hcommit userId
  refine ⟨fun s' userId ↦ hstep s s' userId hrun, fun s' userId hrun' ↦ ?_, ?_⟩
  · induction hrun' with
    | refl => exact le_rfl
    | tail hrun' hlast ih => exact (hstep _ _ userId (hrun.trans hrun') hlast).trans ih
  · intro id id' there back hthere hback hasset hle
    -- two quotes of one direction cannot follow each other
    cases hfair s hrun id there hthere with
    | forth hsource htarget hle₁ =>
      cases hfair s hrun id' back hback with
      | forth hsource' htarget' hle₂ =>
        rw [hasset, htarget] at hsource'
        exact absurd hsource' (by decide)
      | back hsource' htarget' hle₂ =>
        refine ⟨htarget'.trans hsource.symm, ?_⟩
        have hprice : (0 : ℚ) < usdtPrice := by norm_num [usdtPrice]
        exact le_of_mul_le_mul_right (hle₂.trans (hle.trans hle₁)) hprice
    | back hsource htarget hle₁ =>
      cases hfair s hrun id' back hback with
      | forth hsource' htarget' hle₂ =>
        refine ⟨htarget'.trans hsource.symm, hle₂.trans (le_trans ?_ hle₁)⟩
        exact mul_le_mul_of_nonneg_right hle (by norm_num [usdtPrice])
      | back hsource' htarget' hle₂ =>
        rw [hasset, htarget] at hsource'
        exact absurd hsource' (by decide)

/-- 500 USDT become 0.00805 BTC, which would be changed back to less than 500 USDT. -/
theorem no_value_created_sample : ∃ (s : System) (there back : QuoteRow),
    s.db.quotes.lookup "q-1" = some there ∧ s.db.quotes.lookup "q-2" = some back ∧
      there.sourceAmount.1 = 500 ∧ back.sourceAmount.1 = there.targetAmount.1 ∧
      balanceOf s.db "u-1" "USDT" = 500 ∧
      wealth s.db "u-1" ≤ wealth (Db.ofWallets sampleWallets) "u-1" ∧
      back.targetAmount.1 ≤ there.sourceAmount.1 := by
  have hinitial : System.Reaches .reference (System.initial sampleWallets)
      (System.initial sampleWallets) := .refl
  have hrun : ∃ s, System.Reaches .reference (System.initial sampleWallets) s ∧
      (∃ there ∈ s.db.quotes.lookup "q-1", ∃ back ∈ s.db.quotes.lookup "q-2",
        there.sourceAmount.1 = 500 ∧ back.sourceAmount.1 = there.targetAmount.1 ∧
          back.sourceAsset = there.targetAsset) ∧ balanceOf s.db "u-1" "USDT" = 500 :=
    System.exists_of_play (sampleSettled .SUCCESS ++
      callFor 4 (.createQuote ⟨"u-1", "BTC", "USDT", "0.00805"⟩ (.ofText "q-2") sampleTime) 1) _
      (by decide +kernel)
  obtain ⟨s, hreaches, ⟨there, hthere, back, hback, h500, hsame, hasset⟩, hbalance⟩ := hrun
  have hwallets : InitialWallets sampleWallets := by decide +kernel
  obtain ⟨-, hlater, -⟩ := no_value_created rfl hwallets hinitial
  obtain ⟨-, -, hround⟩ := no_value_created rfl hwallets hreaches
  exact ⟨s, there, back, hthere, hback, h500, hsame, hbalance, hlater s "u-1" hreaches,
    (hround _ _ there back hthere hback hasset hsame.le).2⟩

end Ledger

end WalletConversion
