import WalletConversion.Application.Reference

/-!
# The lifecycle of a conversion

`REQUIRES_RECONCILIATION` counts as terminal and can still move, so what decides a conversion is the
first outcome that is not `UNKNOWN`: a repeated `UNKNOWN` changes nothing, a later outcome settles,
and after `COMPLETED` or `FAILED` nothing moves (`decided_once`).

The second half is about all transitions together, in any order, from `create` on. `Lawful` is what
every call keeps.
-/

namespace WalletConversion

namespace Conversion

variable {c : Conversion}

/-- An outcome of the exchange with its time and its reason. -/
structure Report where
  outcome : ExecutionOutcome
  at' : Date
  reason : Option String

/-- A call of a transition of the aggregate. -/
inductive Call where
  | markFundsReserved
  | bindExecutionEvent (eventId : String)
  | markExecutionRequested (exchangeExecutionId : String)
  | applyExecutionResult (report : Report)

/-- The method that is called. -/
def Call.run : Call → Mutation Conversion Unit
  | .markFundsReserved => Conversion.markFundsReserved
  | .bindExecutionEvent eventId => Conversion.bindExecutionEvent eventId
  | .markExecutionRequested exchangeExecutionId =>
    Conversion.markExecutionRequested exchangeExecutionId
  | .applyExecutionResult r => Conversion.applyExecutionResult r.outcome r.at' r.reason

/-- The conversion after some calls. What a call throws is caught and skipped. -/
def after (c : Conversion) : List Call → Conversion
  | [] => c
  | call :: calls => after (call.run c).2 calls

/-- The conversion after the exchange reported some outcomes. -/
def reported (c : Conversion) (reports : List Report) : Conversion :=
  c.after (reports.map .applyExecutionResult)

/-- The outcome is known. -/
def Report.decisive (r : Report) : Bool := r.outcome ≠ .UNKNOWN

theorem reported_cons (c : Conversion) (r : Report) (reports : List Report) :
    c.reported (r :: reports) = ((Call.applyExecutionResult r).run c).2.reported reports := rfl

/-! ### Outcomes -/

/-- What the first outcome makes of a conversion. -/
def settle (c : Conversion) : Report → Conversion
  | ⟨.SUCCESS, at', _⟩ => c.completed at'
  | ⟨.FAILURE, at', reason⟩ => c.failed at' reason
  | ⟨.UNKNOWN, _, reason⟩ => c.reconciling reason

/-- A decisive outcome overwrites all that an unknown one assigned. -/
theorem settle_reconciling {r : Report} (hr : r.decisive = true) (reason : Option String) :
    (c.reconciling reason).settle r = c.settle r := by
  obtain ⟨outcome, at', reason'⟩ := r
  cases outcome with
  | SUCCESS | FAILURE => rfl
  | UNKNOWN => cases hr

/-- A requested conversion takes every report. -/
theorem run_of_requested (h : c.status = .EXECUTION_REQUESTED) (r : Report) :
    (Call.applyExecutionResult r).run c = (.ok (), c.settle r) := by
  obtain ⟨outcome, at', reason⟩ := r
  cases outcome <;> simp only [Call.run, applyExecutionResult, h, settle]

/-- A conversion in reconciliation takes decisive reports only. -/
theorem run_of_reconciling (h : c.status = .REQUIRES_RECONCILIATION) (r : Report) :
    (Call.applyExecutionResult r).run c = (.ok (), if r.decisive then c.settle r else c) := by
  obtain ⟨outcome, at', reason⟩ := r
  cases outcome <;> simp [Call.run, applyExecutionResult, h, settle, Report.decisive]

/-- **After a decision**, an equal outcome is a no-op and a different one is a conflict. -/
theorem run_of_settled {first : Report} (hfirst : first.decisive = true)
    (h : c.status = (c.settle first).status) (r : Report) :
    (Call.applyExecutionResult r).run c =
      (if r.outcome = first.outcome then .ok ()
        else .error (c.conflictingExecutionResult r.outcome), c) := by
  obtain ⟨outcome, at', reason⟩ := r
  obtain ⟨first, at₀, reason₀⟩ := first
  cases first with
  | SUCCESS =>
    have hstatus : c.status = .COMPLETED := h
    cases outcome <;> simp [Call.run, applyExecutionResult, hstatus]
  | FAILURE =>
    have hstatus : c.status = .FAILED := h
    cases outcome <;> simp [Call.run, applyExecutionResult, hstatus]
  | UNKNOWN => cases hfirst

/-- What a decisive report has settled stays. -/
theorem reported_of_settled {first : Report} (hfirst : first.decisive = true)
    (h : c.status = (c.settle first).status) (reports : List Report) : c.reported reports = c := by
  induction reports with
  | nil => rfl
  | cons r reports ih =>
    rw [reported_cons, run_of_settled hfirst h]
    exact ih

theorem settle_status (r : Report) : (c.settle r).status = ((c.settle r).settle r).status := by
  obtain ⟨outcome, at', reason⟩ := r
  cases outcome <;> rfl

/-- The first decisive report settles a conversion in reconciliation. -/
theorem reported_of_reconciling (h : c.status = .REQUIRES_RECONCILIATION) (reports : List Report) :
    c.reported reports = match reports.find? Report.decisive with
      | some r => c.settle r
      | none => c := by
  induction reports with
  | nil => rfl
  | cons r reports ih =>
    rw [reported_cons, run_of_reconciling h]
    by_cases hr : r.decisive = true
    · rw [if_pos hr, List.find?_cons_of_pos hr]
      exact reported_of_settled hr (settle_status r) reports
    · rw [if_neg hr, List.find?_cons_of_neg hr]
      exact ih

/-- **The first decisive outcome decides**, and without one the first unknown outcome keeps its
reason. -/
theorem reported_of_requested (h : c.status = .EXECUTION_REQUESTED) (reports : List Report) :
    c.reported reports = match reports.find? Report.decisive, reports.head? with
      | some r, _ => c.settle r
      | none, some r => c.reconciling r.reason
      | none, none => c := by
  cases reports with
  | nil => rfl
  | cons r reports =>
    rw [reported_cons, run_of_requested h]
    by_cases hr : r.decisive = true
    · rw [List.find?_cons_of_pos hr]
      exact reported_of_settled hr (settle_status r) reports
    · have hunknown : c.settle r = c.reconciling r.reason := by
        obtain ⟨outcome, at', reason⟩ := r
        cases outcome with
        | SUCCESS | FAILURE => exact absurd rfl hr
        | UNKNOWN => rfl
      rw [hunknown, List.find?_cons_of_neg hr, reported_of_reconciling rfl]
      rcases hfind : reports.find? Report.decisive with - | first
      · rfl
      · exact settle_reconciling (List.find?_some hfind) r.reason

/-- What some outcomes have decided about a conversion whose execution was requested. -/
structure Decided (c : Conversion) (reports : List Report) : Prop where
  success : ∀ first, reports.find? Report.decisive = some first → first.outcome = .SUCCESS →
    c.reported reports = c.completed first.at'
  failure : ∀ first, reports.find? Report.decisive = some first → first.outcome = .FAILURE →
    c.reported reports = c.failed first.at' first.reason
  unknown : ∀ first, reports.head? = some first → reports.find? Report.decisive = none →
    c.reported reports = c.reconciling first.reason
  later : ∀ first, reports.find? Report.decisive = some first → ∀ r,
    (Call.applyExecutionResult r).run (c.reported reports) =
      (if r.outcome = first.outcome then .ok ()
        else .error ((c.reported reports).conflictingExecutionResult r.outcome), c.reported reports)
  laterUnknown : reports ≠ [] → reports.find? Report.decisive = none → ∀ r, r.outcome = .UNKNOWN →
    (Call.applyExecutionResult r).run (c.reported reports) = (.ok (), c.reported reports)

/-- **The first decisive report decides.** -/
theorem decided_of_requested (h : c.status = .EXECUTION_REQUESTED) (reports : List Report) :
    c.Decided reports := by
  have hreported := reported_of_requested h reports
  refine ⟨?_, ?_, ?_, ?_, ?_⟩
  · rintro ⟨outcome, at', reason⟩ hfirst rfl
    rwa [hfirst] at hreported
  · rintro ⟨outcome, at', reason⟩ hfirst rfl
    rwa [hfirst] at hreported
  · intro first hhead hnone
    rwa [hhead, hnone] at hreported
  · intro first hfirst r
    rw [hfirst] at hreported
    simp only at hreported
    rw [hreported]
    exact run_of_settled (List.find?_some hfirst) (settle_status first) r
  · intro hne hnone r hr
    obtain ⟨first, hhead⟩ := Option.isSome_iff_exists.1 (List.isSome_head?.2 hne)
    rw [hhead, hnone] at hreported
    have hunknown : r.decisive = false := by simp [Report.decisive, hr]
    simp only at hreported
    rw [hreported, run_of_reconciling rfl, hunknown]
    rfl

/-! ### All transitions -/

/-- What a call that does not throw has assigned. -/
def Call.Assigns (c c' : Conversion) : Call → Prop
  | .markFundsReserved => c.status = .CREATED ∧ c' = { c with status := .FUNDS_RESERVED }
  | .bindExecutionEvent e => c.status = .FUNDS_RESERVED ∧
    (c.exchangeExecutionId = none ∨ c.exchangeExecutionId = some e) ∧
    c' = { c with exchangeExecutionId := some e }
  | .markExecutionRequested e => c.status = .FUNDS_RESERVED ∧
    (c.exchangeExecutionId = none ∨ c.exchangeExecutionId = some e) ∧
    c' = { c with exchangeExecutionId := some e, status := .EXECUTION_REQUESTED }
  | .applyExecutionResult r => c' = c ∨
    (c.status = .EXECUTION_REQUESTED ∨ c.status = .REQUIRES_RECONCILIATION) ∧ c' = c.settle r

/-- **One call** throws before it assigns, or does all it has to. -/
theorem Call.run_cases (call : Call) (c : Conversion) :
    (∃ e, call.run c = (.error e, c)) ∨ ∃ c', call.run c = (.ok (), c') ∧ call.Assigns c c' := by
  have hbound {p q : Prop} [Decidable p] [Decidable q] (h : ¬ (¬ p ∧ ¬ q)) : p ∨ q := by tauto
  cases call with
  | markFundsReserved =>
    simp only [Call.run, Conversion.markFundsReserved, Mutation.throwIf_bind, Mutation.assign_apply]
    split_ifs with hstatus
    · exact .inl ⟨_, rfl⟩
    · exact .inr ⟨_, rfl, not_not.1 hstatus, rfl⟩
  | bindExecutionEvent e =>
    simp only [Call.run, Conversion.bindExecutionEvent, Mutation.throwIf_bind,
      Mutation.assign_apply]
    split_ifs with hstatus hblank hother
    · exact .inl ⟨_, rfl⟩
    · exact .inl ⟨_, rfl⟩
    · exact .inl ⟨_, rfl⟩
    · exact .inr ⟨_, rfl, not_not.1 hstatus, hbound hother, rfl⟩
  | markExecutionRequested e =>
    simp only [Call.run, Conversion.markExecutionRequested, Mutation.throwIf_bind,
      Mutation.assign_bind, Mutation.assign_apply]
    split_ifs with hstatus hblank hother
    · exact .inl ⟨_, rfl⟩
    · exact .inl ⟨_, rfl⟩
    · exact .inl ⟨_, rfl⟩
    · exact .inr ⟨_, rfl, not_not.1 hstatus, hbound hother, rfl⟩
  | applyExecutionResult r =>
    by_cases hrequested : c.status = .EXECUTION_REQUESTED
    · exact .inr ⟨_, run_of_requested hrequested r, .inr ⟨.inl hrequested, rfl⟩⟩
    by_cases hreconciling : c.status = .REQUIRES_RECONCILIATION
    · refine .inr ⟨_, run_of_reconciling hreconciling r, ?_⟩
      split_ifs
      · exact .inr ⟨.inr hreconciling, rfl⟩
      · exact .inl rfl
    · obtain ⟨outcome, at', reason⟩ := r
      rcases hstatus : c.status <;> cases outcome <;>
        simp_all [Call.run, Conversion.applyExecutionResult, Call.Assigns]

/-- What every call keeps of the conversion it is called on. -/
structure Kept (c c' : Conversion) : Prop where
  id : c'.id = c.id
  quoteId : c'.quoteId = c.quoteId
  userId : c'.userId = c.userId
  sourceAmount : c'.sourceAmount = c.sourceAmount
  targetAmount : c'.targetAmount = c.targetAmount
  createdAt : c'.createdAt = c.createdAt
  bound : ∀ e, c.exchangeExecutionId = some e → c'.exchangeExecutionId = some e

theorem Kept.refl (c : Conversion) : Kept c c := ⟨rfl, rfl, rfl, rfl, rfl, rfl, fun _ h ↦ h⟩

theorem Kept.trans {c c' c'' : Conversion} (h : Kept c c') (h' : Kept c' c'') : Kept c c'' where
  id := h'.id.trans h.id
  quoteId := h'.quoteId.trans h.quoteId
  userId := h'.userId.trans h.userId
  sourceAmount := h'.sourceAmount.trans h.sourceAmount
  targetAmount := h'.targetAmount.trans h.targetAmount
  createdAt := h'.createdAt.trans h.createdAt
  bound e he := h'.bound e (h.bound e he)

/-- The time of completion belongs to the two final states. -/
def Timed (c : Conversion) : Prop :=
  c.completedAt.isSome = true ↔ c.status = .COMPLETED ∨ c.status = .FAILED

/-- A report keeps what the conversion was created with. -/
theorem kept_settle (c : Conversion) (r : Report) : Kept c (c.settle r) := by
  obtain ⟨outcome, at', reason⟩ := r
  cases outcome <;> exact ⟨rfl, rfl, rfl, rfl, rfl, rfl, fun _ h ↦ h⟩

/-- A report gives a time of completion exactly to what it ends. -/
theorem Timed.settle {r : Report} (htimed : c.Timed)
    (h : c.status = .EXECUTION_REQUESTED ∨ c.status = .REQUIRES_RECONCILIATION) :
    (c.settle r).Timed := by
  obtain ⟨outcome, at', reason⟩ := r
  cases outcome with
  | SUCCESS => simp [Timed, Conversion.settle, completed]
  | FAILURE => simp [Timed, Conversion.settle, failed]
  | UNKNOWN =>
    rcases h with h | h <;> simpa [Timed, Conversion.settle, reconciling, h] using htimed

/-- A call that returns keeps what the conversion was created with. -/
theorem Call.Assigns.kept {call : Call} {c' : Conversion} (h : call.Assigns c c') : Kept c c' := by
  cases call with
  | markFundsReserved =>
    obtain ⟨-, rfl⟩ := h
    exact ⟨rfl, rfl, rfl, rfl, rfl, rfl, fun _ h ↦ h⟩
  | bindExecutionEvent e | markExecutionRequested e =>
    obtain ⟨-, hbound, rfl⟩ := h
    refine ⟨rfl, rfl, rfl, rfl, rfl, rfl, fun e' he' ↦ ?_⟩
    simpa [he', eq_comm] using hbound
  | applyExecutionResult r =>
    rcases h with rfl | ⟨-, rfl⟩
    · exact Kept.refl _
    · exact kept_settle c r

/-- A call that returns leaves the time of completion to the final states. -/
theorem Call.Assigns.timed {call : Call} {c' : Conversion} (h : call.Assigns c c')
    (htimed : c.Timed) : c'.Timed := by
  cases call with
  | markFundsReserved =>
    obtain ⟨hstatus, rfl⟩ := h
    simpa [Timed, hstatus] using htimed
  | bindExecutionEvent e | markExecutionRequested e =>
    obtain ⟨hstatus, -, rfl⟩ := h
    simpa [Timed, hstatus] using htimed
  | applyExecutionResult r =>
    rcases h with rfl | ⟨hstatus, rfl⟩
    · exact htimed
    · exact htimed.settle hstatus

/-- Whether a call throws or not. -/
theorem Call.kept (call : Call) (c : Conversion) : Kept c (call.run c).2 := by
  rcases call.run_cases c with ⟨e, hrun⟩ | ⟨c', hrun, hassigns⟩ <;> rw [hrun]
  · exact Kept.refl c
  · exact hassigns.kept

/-- **Any calls**, with those that throw skipped. -/
theorem after_kept (calls : List Call) (htimed : c.Timed) :
    Kept c (c.after calls) ∧ (c.after calls).Timed := by
  induction calls generalizing c with
  | nil => exact ⟨Kept.refl c, htimed⟩
  | cons call calls ih =>
    rcases call.run_cases c with ⟨e, hrun⟩ | ⟨c', hrun, hassigns⟩
    · rw [after, hrun]
      exact ih htimed
    · have hkept := hassigns.kept
      have htimed' := hassigns.timed htimed
      rw [after, hrun]
      exact ⟨hkept.trans (ih htimed').1, (ih htimed').2⟩

/-- What a new conversion is. -/
theorem create_eq_ok {id : ConversionId} {quoteId : QuoteId} {userId : UserId}
    {sourceAmount targetAmount : Money} {createdAt : Date}
    (h : create id quoteId userId sourceAmount targetAmount createdAt = .ok c) :
    (c.status = .CREATED ∧ c.exchangeExecutionId = none ∧ c.completedAt = none ∧
      c.failureReason = none) ∧ c.sourceAmount.amount ≠ 0 ∧ c.targetAmount.amount ≠ 0 := by
  unfold create new at h
  split_ifs at h with hsource htarget
  cases h
  exact ⟨⟨rfl, rfl, rfl, rfl⟩, by simpa [Money.isZero] using hsource,
    by simpa [Money.isZero] using htarget⟩

/-- What holds of a conversion after any calls from `c₀` on. -/
structure Lawful (c₀ c : Conversion) : Prop where
  throws : ∀ (call : Call) e c', call.run c = (.error e, c') → c' = c
  kept : Kept c₀ c
  bound : ∀ (more : List Call) e, c.exchangeExecutionId = some e →
    (c.after more).exchangeExecutionId = some e
  timed : c.completedAt.isSome = true ↔ c.status = .COMPLETED ∨ c.status = .FAILED

theorem lawful_after (htimed : c.Timed) (calls : List Call) : Lawful c (c.after calls) where
  throws call e c' hrun := by
    rcases call.run_cases (c.after calls) with ⟨e', hrun'⟩ | ⟨c'', hrun', -⟩
    · rw [hrun'] at hrun
      exact (Prod.mk.inj hrun).2.symm
    · rw [hrun'] at hrun
      cases hrun
  kept := (after_kept calls htimed).1
  bound more e he := (after_kept more (after_kept calls htimed).2).1.bound e he
  timed := (after_kept calls htimed).2

/-- **A conversion is decided once.** Once its execution is requested, its final status is that of
the first outcome that is not unknown; what comes later changes nothing, and throws if it differs.
In any sequence of transitions from `create` on, a call that throws assigns nothing, the execution
id stays once it is set, the time of completion belongs to the final states, and identity, owner and
amounts stay. -/
theorem decided_once :
    (∀ (c : Conversion) (reports : List Report), c.status = .EXECUTION_REQUESTED →
      c.Decided reports) ∧
    ∀ (id : ConversionId) (quoteId : QuoteId) (userId : UserId) (sourceAmount targetAmount : Money)
      (createdAt : Date) (c₀ : Conversion) (calls : List Call),
      create id quoteId userId sourceAmount targetAmount createdAt = .ok c₀ →
        Lawful c₀ (c₀.after calls) := by
  refine ⟨fun c reports h ↦ decided_of_requested h reports, ?_⟩
  intro id quoteId userId sourceAmount targetAmount createdAt c₀ calls hcreate
  obtain ⟨⟨hstatus, -, hcompletedAt, -⟩, -⟩ := create_eq_ok hcreate
  exact lawful_after (by simp [Timed, hstatus, hcompletedAt]) calls

/-- A conversion of one USDT into one BTC. -/
def sampleConversion : Conversion where
  id := sampleConversionId
  quoteId := sampleQuoteId
  userId := sampleUser
  sourceAmount := Money.one USDT
  targetAmount := Money.one BTC
  status := .CREATED
  exchangeExecutionId := none
  createdAt := sampleTime
  completedAt := none
  failureReason := none
  distinct := by decide

/-- An unknown outcome, then a failure, then a success. -/
theorem decided_once_sample :
    let c := sampleConversion.after [.markFundsReserved, .markExecutionRequested "e-1"]
    Lawful sampleConversion c ∧
      c.reported [⟨.UNKNOWN, sampleTime, none⟩, ⟨.FAILURE, sampleTime, some "rejected"⟩,
        ⟨.SUCCESS, sampleTime, none⟩] = c.failed sampleTime (some "rejected") := by
  have hrequested : (sampleConversion.after [.markFundsReserved,
      .markExecutionRequested "e-1"]).status = .EXECUTION_REQUESTED := by decide +kernel
  exact ⟨decided_once.2 sampleConversion.id sampleConversion.quoteId sampleUser (Money.one USDT)
      (Money.one BTC) sampleTime _ _ (by decide +kernel),
    (decided_once.1 _ _ hrequested).failure ⟨.FAILURE, sampleTime, some "rejected"⟩ rfl rfl⟩

end Conversion

end WalletConversion
