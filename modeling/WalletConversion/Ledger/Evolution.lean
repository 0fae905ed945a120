import WalletConversion.Ledger.Commit

/-!
# Evolution of the tables

`Evolves` is a preorder that every commit respects (`Commit.evolves`). Everything the invariant says
about one row refers to other rows only through facts that evolution keeps, so the validity of a row
survives every commit that does not touch it (the `mono` lemmas).
-/

namespace WalletConversion

namespace Ledger

/-! ### Rows -/

theorem QuoteEvolves.refl (r : QuoteRow) : QuoteEvolves r r := Or.inl rfl

/-- Changes of a quote compose. -/
theorem QuoteEvolves.trans {r r' r'' : QuoteRow} (h : QuoteEvolves r r')
    (h' : QuoteEvolves r' r'') : QuoteEvolves r r'' := by
  rcases h with rfl | ⟨hs, at', rfl⟩
  · exact h'
  · rcases h' with rfl | ⟨hs', -⟩
    · exact Or.inr ⟨hs, at', rfl⟩
    · simp at hs'

/-- An accepted quote does not change. -/
theorem QuoteEvolves.eq_of_accepted {r r' : QuoteRow} (h : QuoteEvolves r r')
    (ha : r.status = .ACCEPTED) : r' = r := by
  rcases h with rfl | ⟨hs, -⟩
  · rfl
  · rw [ha] at hs
    cases hs

@[simp] theorem settledRow_status (row : ConversionRow) (outcome : ExecutionOutcome) (now : Date) :
    (settledRow row outcome now).status = statusOf outcome := by
  cases outcome <;> rfl

@[simp] theorem statusOf_isTerminal (outcome : ExecutionOutcome) :
    (statusOf outcome).isTerminal = true := by
  cases outcome <;> rfl

/-- A final status tells its outcome. -/
theorem statusOf_injective {o o' : ExecutionOutcome} (h : statusOf o = statusOf o') : o = o' := by
  cases o <;> cases o' <;> first | rfl | cases h

theorem ConversionEvolves.refl (r : ConversionRow) : ConversionEvolves r r := Or.inl rfl

/-- A terminal conversion does not change. -/
theorem ConversionEvolves.eq_of_terminal {r r' : ConversionRow} (h : ConversionEvolves r r')
    (ht : r.status.isTerminal = true) : r' = r := by
  rcases h with rfl | ⟨hs, -⟩ | ⟨hs | hs, -⟩
  · rfl
  all_goals
    rw [hs] at ht
    cases ht

/-- Changes of a conversion compose. -/
theorem ConversionEvolves.trans {r r' r'' : ConversionRow} (h : ConversionEvolves r r')
    (h' : ConversionEvolves r' r'') : ConversionEvolves r r'' := by
  rcases h with rfl | ⟨hs, rfl⟩ | ⟨hs, outcome, now, rfl⟩
  · exact h'
  · rcases h' with rfl | ⟨hs', -⟩ | ⟨-, outcome, now, rfl⟩
    · exact Or.inr (Or.inl ⟨hs, rfl⟩)
    · simp at hs'
    · exact Or.inr (Or.inr ⟨Or.inl hs, outcome, now, by cases outcome <;> rfl⟩)
  · rw [h'.eq_of_terminal (by simp)]
    exact Or.inr (Or.inr ⟨hs, outcome, now, rfl⟩)

/-- The terms of a conversion and its event never change. -/
theorem ConversionEvolves.terms {r r' : ConversionRow} (h : ConversionEvolves r r') :
    r'.quoteId = r.quoteId ∧ r'.userId = r.userId ∧ r'.sourceAsset = r.sourceAsset ∧
      r'.targetAsset = r.targetAsset ∧ r'.sourceAmount = r.sourceAmount ∧
      r'.targetAmount = r.targetAmount ∧ r'.exchangeExecutionId = r.exchangeExecutionId ∧
      r'.createdAt = r.createdAt := by
  rcases h with rfl | ⟨-, rfl⟩ | ⟨-, outcome, now, rfl⟩
  · simp
  · simp
  · cases outcome <;> simp [settledRow]

/-- The order of a conversion does not depend on how far it is. -/
theorem ConversionEvolves.exchangeRow_eq {r r' : ConversionRow} (h : ConversionEvolves r r')
    (e c : String) (outcome : ExecutionOutcome) :
    exchangeRow e c r' outcome = exchangeRow e c r outcome := by
  obtain ⟨-, h₁, h₂, h₃, h₄, h₅, -, -⟩ := h.terms
  simp [exchangeRow, h₁, h₂, h₃, h₄, h₅]

/-- Execution is requested once and for all. -/
theorem ConversionEvolves.ne_fundsReserved {r r' : ConversionRow} (h : ConversionEvolves r r')
    (hne : r.status ≠ .FUNDS_RESERVED) : r'.status ≠ .FUNDS_RESERVED := by
  rcases h with rfl | ⟨-, rfl⟩ | ⟨-, outcome, now, rfl⟩
  · exact hne
  · simp
  · cases outcome <;> simp [statusOf]

/-- A conversion that is still waiting for its result has not changed. -/
theorem ConversionEvolves.eq_of_requested {r r' : ConversionRow} (h : ConversionEvolves r r')
    (hr : r.status = .EXECUTION_REQUESTED) (ht : r'.status.isTerminal = false) : r' = r := by
  rcases h with rfl | ⟨hs, -⟩ | ⟨-, outcome, now, rfl⟩
  · rfl
  · rw [hr] at hs
    cases hs
  · simp at ht

theorem OutboxEvolves.refl (r : OutboxRow) : OutboxEvolves r r := Or.inl rfl

theorem OutboxEvolves.trans {r r' r'' : OutboxRow} (h : OutboxEvolves r r')
    (h' : OutboxEvolves r' r'') : OutboxEvolves r r'' := by
  rcases h with rfl | ⟨hs, at', rfl⟩
  · exact h'
  · rcases h' with rfl | ⟨hs', -⟩
    · exact Or.inr ⟨hs, at', rfl⟩
    · cases hs'

/-- Only the publication mark of an outbox row changes. -/
theorem OutboxEvolves.terms {r r' : OutboxRow} (h : OutboxEvolves r r') :
    r'.eventType = r.eventType ∧ r'.aggregateId = r.aggregateId ∧ r'.payload = r.payload ∧
      r'.createdAt = r.createdAt := by
  rcases h with rfl | ⟨-, at', rfl⟩ <;> simp

/-! ### Tables -/

namespace Evolves

theorem refl (a : Db) : Evolves a a where
  quotes _ r h := ⟨r, h, .refl r⟩
  conversions _ r h := ⟨r, h, .refl r⟩
  outbox _ r h := ⟨r, h, .refl r⟩
  processed _ _ h := h
  exchange _ _ h := h
  wallets _ r h := ⟨r, h, rfl⟩

theorem trans {a b c : Db} (h : Evolves a b) (h' : Evolves b c) : Evolves a c where
  quotes id r hr := by
    obtain ⟨r', hr', he⟩ := h.quotes id r hr
    obtain ⟨r'', hr'', he'⟩ := h'.quotes id r' hr'
    exact ⟨r'', hr'', he.trans he'⟩
  conversions id r hr := by
    obtain ⟨r', hr', he⟩ := h.conversions id r hr
    obtain ⟨r'', hr'', he'⟩ := h'.conversions id r' hr'
    exact ⟨r'', hr'', he.trans he'⟩
  outbox id r hr := by
    obtain ⟨r', hr', he⟩ := h.outbox id r hr
    obtain ⟨r'', hr'', he'⟩ := h'.outbox id r' hr'
    exact ⟨r'', hr'', he.trans he'⟩
  processed id r hr := h'.processed id r (h.processed id r hr)
  exchange id r hr := h'.exchange id r (h.exchange id r hr)
  wallets key r hr := by
    obtain ⟨r', hr', he⟩ := h.wallets key r hr
    obtain ⟨r'', hr'', he'⟩ := h'.wallets key r' hr'
    exact ⟨r'', hr'', he'.trans he⟩

end Evolves

/-- Inserting into a table where the key is new, or where the old row evolves into the new one. -/
private theorem evolves_insert {V : Type} {t : Table String V} {k : String} {v : V}
    (R : V → V → Prop) (hrefl : ∀ r, R r r) (hold : ∀ r, t.lookup k = some r → R r v) (id : String)
    (r : V) (h : t.lookup id = some r) : ∃ r', (t.insert k v).lookup id = some r' ∧ R r r' := by
  by_cases hid : id = k
  · subst hid
    exact ⟨v, Finmap.lookup_insert _, hold r h⟩
  · exact ⟨r, by rw [Finmap.lookup_insert_of_ne _ hid, h], hrefl r⟩

private theorem lookup_insert_fresh {V : Type} {t : Table String V} {k : String} {v : V}
    (hfresh : t.lookup k = none) (id : String) (r : V) (h : t.lookup id = some r) :
    (t.insert k v).lookup id = some r := by
  have hid : id ≠ k := fun he ↦ by
    rw [he, hfresh] at h
    cases h
  rw [Finmap.lookup_insert_of_ne _ hid, h]

/-- A wallet update keeps the ids of the wallets. -/
private theorem wallets_insert {t : Table (String × String) WalletRow} {k : String × String}
    {v : WalletRow} (hold : ∀ r, t.lookup k = some r → v.id = r.id) (key : String × String)
    (r : WalletRow) (h : t.lookup key = some r) :
    ∃ r', (t.insert k v).lookup key = some r' ∧ r'.id = r.id := by
  by_cases hkey : key = k
  · subst hkey
    exact ⟨v, Finmap.lookup_insert _, hold r h⟩
  · exact ⟨r, by rw [Finmap.lookup_insert_of_ne _ hkey, h], rfl⟩

/-- A settlement evolves the conversion and claims the event; the wallets keep their ids. -/
private theorem evolves_settled {a : Db} {payload : ConversionExecutionRequestedPayload}
    {c : String} {row : ConversionRow} {outcome : ExecutionOutcome} {inputs : ExecuteInputs}
    {wallets : Table (String × String) WalletRow} (h : Settles a payload c row outcome)
    (hw : ∀ key r, a.wallets.lookup key = some r → ∃ r', wallets.lookup key = some r' ∧
      r'.id = r.id) :
    Evolves a { settledDb a c payload.eventId row outcome inputs with wallets := wallets } where
  quotes _ r hr := ⟨r, hr, .refl r⟩
  conversions := evolves_insert ConversionEvolves .refl fun r hr ↦ by
    rw [h.lookup] at hr
    cases hr
    exact Or.inr (Or.inr ⟨Or.inr h.status, outcome, inputs.now, rfl⟩)
  outbox _ r hr := ⟨r, hr, .refl r⟩
  processed := lookup_insert_fresh h.unclaimed
  exchange _ _ hr := hr
  wallets := hw

/-- **Every commit evolves the tables.** -/
theorem Commit.evolves {env : Platform} {t : Task} {a b : Db} (h : Commit env t a b) :
    Evolves a b := by
  cases h with
  | idle => exact .refl _
  | quoteCreated built stored checks active fresh =>
    exact { Evolves.refl a with
      quotes := evolves_insert QuoteEvolves .refl fun r hr ↦ by
        rw [fresh] at hr
        cases hr }
  | @accepted command inputs _ quote row w w' valid unclaimed lookup stored active inTime
      freshConversion freshEvent wallet reserves checks =>
    exact
      { quotes := evolves_insert QuoteEvolves .refl fun r hr ↦ by
          rw [lookup] at hr
          cases hr
          exact Or.inr ⟨active, inputs.now, rfl⟩
        conversions := evolves_insert ConversionEvolves .refl fun r hr ↦ by
          rw [freshConversion] at hr
          cases hr
        outbox := evolves_insert OutboxEvolves .refl fun r hr ↦ by
          rw [freshEvent] at hr
          cases hr
        processed := fun _ _ hr ↦ hr
        exchange := fun _ _ hr ↦ hr
        wallets := wallets_insert fun r hr ↦ by
          rw [wallet] at hr
          cases hr
          exact reserves.id_eq }
  | executionRequested lookup status event =>
    exact { Evolves.refl a with
      conversions := evolves_insert ConversionEvolves .refl fun r hr ↦ by
        rw [lookup] at hr
        cases hr
        exact Or.inr (Or.inl ⟨status, rfl⟩) }
  | exchangeRecorded lookup status event fresh =>
    exact { Evolves.refl a with exchange := lookup_insert_fresh fresh }
  | @completed payload inputs _ c row w w' v v' settles source commits checks target credits
      checks' =>
    have hsource : ∀ u, a.wallets.lookup (row.userId, row.sourceAsset) = some u → w'.id = u.id := by
      intro u hu
      rw [source] at hu
      cases hu
      exact commits.id_eq
    have htarget : ∀ u, (a.wallets.insert (row.userId, row.sourceAsset) w').lookup
        (row.userId, row.targetAsset) = some u → v'.id = u.id := by
      intro u hu
      -- the target wallet is not the source wallet
      rw [Finmap.lookup_insert_of_ne _ (by simp [settles.distinct.symm])] at hu
      rcases target with ht | ⟨ht, -⟩
      · rw [ht] at hu
        cases hu
        exact credits.id_eq
      · rw [ht] at hu
        cases hu
    refine evolves_settled settles fun key r hr ↦ ?_
    obtain ⟨r', hr', hid⟩ := wallets_insert hsource key r hr
    obtain ⟨r'', hr'', hid'⟩ := wallets_insert htarget key r' hr'
    exact ⟨r'', hr'', hid'.trans hid⟩
  | failed settles source releases checks =>
    exact evolves_settled settles (wallets_insert fun r hr ↦ by
      rw [source] at hr
      cases hr
      exact releases.id_eq)
  | reconciling settles => exact evolves_settled settles fun _ r hr ↦ ⟨r, hr, rfl⟩
  | @published id publishedAt _ row lookup unpublished =>
    exact { Evolves.refl a with
      outbox := evolves_insert OutboxEvolves .refl fun r hr ↦ by
        rw [lookup] at hr
        cases hr
        exact Or.inr ⟨unpublished, publishedAt, rfl⟩ }
  | cleaned keys => exact { Evolves.refl a with }

end Ledger

end WalletConversion
