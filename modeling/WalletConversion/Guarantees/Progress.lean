import WalletConversion.Guarantees.Recovery
import Mathlib.Data.Finset.Preimage
import Mathlib.Data.Fintype.EquivFin

/-!
# Every conversion can still be settled

Safety does not say that anything happens. `settlement_possible` says that nothing stands in the
way: from every state of every run, and for every conversion in it, some continuation settles the
conversion. All workers may be cut off first, so no call that is under way has to help, and no lock
that is held can block the settlement.
-/

namespace WalletConversion

open Transactional Relation

/-! ### Fresh ids -/

/-- A word of `n + 1` letters, as an id. -/
def word (n : ℕ) : Uuid where
  value := String.ofList (List.replicate (n + 1) 'a')
  trimmed := by
    have hlast : (List.replicate (n + 1) 'a').rdropWhile isWhiteSpace =
        List.replicate (n + 1) 'a' := by
      rw [List.rdropWhile_eq_self_iff]
      intro hne
      rw [List.getLast_replicate]
      decide
    have hfirst : (List.replicate (n + 1) 'a').dropWhile isWhiteSpace =
        List.replicate (n + 1) 'a' := by
      rw [List.replicate_succ, List.dropWhile_cons_of_neg (by decide)]
    rw [trim, String.toList_ofList, hfirst, hlast]
  nonempty := by
    intro h
    have := congrArg String.toList h
    simp at this
  storable_value := by
    rw [storable, String.toList_ofList, List.all_replicate, if_neg n.succ_ne_zero]
    decide

theorem word_injective : Function.Injective fun n ↦ (word n).value := by
  intro m n h
  have hlength := congrArg (fun text : String ↦ text.toList.length) h
  simpa [word] using hlength

/-- There is always an id that was not used. -/
theorem exists_fresh (used : Finset String) : ∃ id : Uuid, id.value ∉ used := by
  obtain ⟨n, hn⟩ := Infinite.exists_notMem_finset
    (used.preimage (fun n ↦ (word n).value) word_injective.injOn)
  exact ⟨word n, by simpa using hn⟩

namespace Ledger

open ProcessConversionExecutionUseCase

variable {env : Platform} {wallets : Table (String × String) WalletRow} {s : System}
  {payload : ConversionExecutionRequestedPayload} {row : ConversionRow}

/-- The ids of the wallets, and those that calls have generated. -/
def usedIds (s : System) : Finset String :=
  s.db.wallets.keys.image (fun key ↦ (s.db.wallets.lookup key).elim "" WalletRow.id) ∪
    s.procs.keys.biUnion fun pid ↦ (s.procs.lookup pid).elim ∅ fun p ↦ p.task.generatedIds.toFinset

/-- An execution can be started at any time. -/
theorem exists_admissible (hgenuine : ∀ inputs, (Task.execute payload inputs).Genuine s.db) :
    ∃ inputs, Admissible s (.execute payload inputs) := by
  obtain ⟨walletId, hfresh⟩ := exists_fresh (usedIds s)
  rw [usedIds, Finset.mem_union, not_or] at hfresh
  refine ⟨⟨.SUCCESS, ⟨0, by decide⟩, ⟨0, by decide⟩, walletId⟩, ?_, hgenuine _, ?_⟩
  · intro key row hrow hid
    refine hfresh.1 (Finset.mem_image.2 ⟨key, Finmap.mem_keys.2
      (Finmap.mem_of_lookup_eq_some hrow), ?_⟩)
    rw [hrow]
    exact hid
  · intro pid p hp id hid hmem
    rw [List.mem_singleton.1 hid] at hmem
    refine hfresh.2 (Finset.mem_biUnion.2 ⟨pid, Finmap.mem_keys.2
      (Finmap.mem_of_lookup_eq_some hp), ?_⟩)
    rw [hp]
    exact List.mem_toFinset.2 hmem

/-- A state in which no lock is held, and to which an execution of the payload is added. -/
theorem exists_started (hrun : System.Reaches env (System.initial wallets) s)
    (hgenuine : ∀ inputs, (Task.execute payload inputs).Genuine s.db) :
    ∃ s' pid inputs, System.Reaches env s s' ∧ s'.db = s.db ∧
      (Task.execute payload inputs).Fresh s.db ∧
      s'.procs.lookup pid = some (Proc.start (Task.program env) (.execute payload inputs)) ∧
      ∀ key, s'.lockedFor postgres pid key = false := by
  have hquiet : s.DeadQuiet :=
    State.deadQuiet_of_reaches hrun fun pid p hp ↦ by cases hp
  obtain ⟨s₁, hrun₁, hdb₁, hfree, -⟩ : ∃ s₁, System.Reaches env s s₁ ∧ _ ∧ _ ∧ _ :=
    State.exists_idle (fun _ ↦ trivial) hquiet
  rw [← hdb₁] at hgenuine
  obtain ⟨inputs, hadmissible⟩ := exists_admissible hgenuine
  obtain ⟨pid, hpid⟩ := Infinite.exists_notMem_finset s₁.procs.keys
  have hnone : s₁.procs.lookup pid = none :=
    Finmap.lookup_eq_none.2 fun hmem ↦ hpid (Finmap.mem_keys.2 hmem)
  have hstep : s₁.step postgres (Task.program env) (.spawn pid (.execute payload inputs)) =
      some { s₁ with procs := s₁.procs.insert pid
                      (Proc.start (Task.program env) (.execute payload inputs)) } := by
    simp only [State.step, hnone]
  refine ⟨_, pid, inputs, .tail hrun₁ ⟨_, ?_, hstep, trivial⟩, hdb₁, hdb₁ ▸ hadmissible.1,
    Finmap.lookup_insert _, fun key ↦ (State.lockedFor_insert_self key).trans (hfree pid key)⟩
  rintro _ _ ⟨⟩
  exact hadmissible

/-- **Every conversion can still be settled.** From every state of every run, and for every
conversion whose credit fits its column, some continuation of the run settles it. -/
theorem settlement_possible (hwallets : InitialWallets wallets)
    (hreadable : ReadableWallets env wallets)
    (hrun : System.Reaches env (System.initial wallets) s) {c : String}
    (hrow : s.db.conversions.lookup c = some row)
    (hfits : ∀ w, s.db.wallets.lookup (row.userId, row.targetAsset) = some w →
      w.balance.1 + row.targetAmount.1 < 10 ^ 20) :
    ∃ s', System.Reaches env s s' ∧
      ∃ row', s'.db.conversions.lookup c = some row' ∧ row'.status.isTerminal = true := by
  have hi := (sound_of_reaches hwallets hrun).inv
  obtain ⟨e, o, -, ho, hannounces⟩ := (hi.conversions c row hrow).event
  obtain rfl := hannounces.conversionId
  have hgenuine : ∀ inputs, (Task.execute o.payload inputs).Genuine s.db :=
    fun _ ↦ ⟨e, o, ho, rfl⟩
  obtain ⟨s₁, pid, inputs, hrun₁, hdb₁, hfresh, hp, hfree⟩ := exists_started hrun hgenuine
  have hsound₁ := sound_of_reaches hwallets (ReflTransGen.trans hrun hrun₁)
  have hwp := hsound₁.safe pid _ hp rfl
  have hfits' : CreditFits o.payload s₁.db := by
    rw [hdb₁]
    intro row' w hrow' _ hw
    rw [hrow, Option.some.injEq] at hrow'
    subst hrow'
    exact hfits w hw
  -- the execution alone ends, and its conversion is settled then
  obtain ⟨db', -, hcommits, hend⟩ := Contract.solo_of_wp hwp hsound₁.inv fun _ _ ↦ trivial
  rcases hend with ⟨result, o', d, hsolo, -, hsettled⟩ | ⟨x, o', d, -, -, hunreadable⟩ |
    ⟨error, o', st, -, hdemand, herror⟩
  · obtain ⟨s₂, hrun₂, hdb₂, -⟩ := Contract.finishes_of_wp hp rfl hfree hwp hsound₁.inv
      (fun _ _ ↦ trivial) hsolo
    have hsettled' : Settled o.payload db' := hsettled
    exact ⟨s₂, ReflTransGen.trans hrun₁ hrun₂, hdb₂ ▸ hsettled'⟩
  · exact absurd hreadable hunreadable
  · have hrange : OutOfRange (.execute o.payload inputs) db' :=
      (Disciplined.accepted hdemand (fun _ ↦ false) error herror).outOfRange
    rw [← hdb₁] at hrow
    exact absurd hrange (hfits'.not_overflows hrow hcommits)

/-- A worker stops in the middle of the settlement and holds its locks. The conversion can be
settled. -/
theorem settlement_possible_sample : ∃ s s' : System,
    (s.db.conversions.lookup "c-1").any (fun r ↦ decide (r.status = .EXECUTION_REQUESTED)) = true ∧
    s.lockedFor postgres 0 (.processed "e-1") = true ∧ System.Reaches .reference s s' ∧
    ∃ row', s'.db.conversions.lookup "c-1" = some row' ∧ row'.status.isTerminal = true := by
  have hrun : ∃ s, System.Reaches .reference (System.initial sampleWallets) s ∧
      ((s.db.conversions.lookup "c-1").any
        (fun r ↦ decide (r.status = .EXECUTION_REQUESTED)) = true ∧
        s.lockedFor postgres 0 (.processed "e-1") = true ∧
        (s.db.conversions.lookup "c-1").any (fun r ↦
          decide (s.db.wallets.lookup (r.userId, r.targetAsset) = none)) = true) :=
    System.exists_of_play (sampleAccepted ++ callFor 3 (sampleExecute .SUCCESS) 8) _
      (by decide +kernel)
  obtain ⟨s, hreaches, hrequested, hlocked, hwallet⟩ := hrun
  obtain ⟨row, hrow, hnone⟩ := (Option.any_eq_true _ _).1 hwallet
  obtain ⟨s', hrun', hsettled⟩ := settlement_possible (by decide +kernel) readable_sampleWallets
    hreaches hrow fun w hw ↦ by
      rw [of_decide_eq_true hnone] at hw
      cases hw
  exact ⟨s, s', hrequested, hlocked, hrun', hsettled⟩

end Ledger

end WalletConversion
