import WalletConversion.Ledger.SteadyAccepts
import WalletConversion.Ledger.SteadyExecutions

/-!
# Every call on arbitrary tables

The use cases put together against `steady`, as `Calls` does against `ledger`. Runs start from any
tables, and an execution may be started with any payload.
-/

namespace WalletConversion

open Transactional Relation

/-- Any number of steps of the application, whatever payloads are delivered. -/
def System.Wanders (env : Platform) : System → System → Prop :=
  Transactional.Reaches postgres (Task.program env) Startable fun _ _ ↦ True

theorem System.Reaches.wanders {env : Platform} {s s' : System} (h : System.Reaches env s s') :
    System.Wanders env s s' := by
  refine h.lift id fun a b hstep ↦ ?_
  obtain ⟨m, hadmissible, hm⟩ := hstep
  exact ⟨m, fun pid t he ↦ (hadmissible pid t he).startable, hm⟩

namespace Ledger

variable {env : Platform} {t : Task} {a b db : Db}

/-! ### The remaining tasks -/

/-- Saving a quote creates it, or updates the columns of its lifecycle. -/
theorem upsertQuote_ok {data : QuoteData} {locked : LockKey → Bool} {u : Unit} {ws : List Write}
    (h : exec (.upsertQuote data) locked db = .ok (u, ws)) :
    ∃ row, ws = [.putQuote data.id row] ∧
      ∀ r, db.quotes.lookup data.id = some r → r.SameTerms row := by
  simp only [exec] at h
  obtain ⟨_, -, h⟩ := except_bind_eq_ok.1 h
  split at h
  · rename_i row hrow
    obtain ⟨_, -, h⟩ := except_bind_eq_ok.1 h
    cases h
    refine ⟨_, rfl, fun r hr ↦ ?_⟩
    rw [hrow, Option.some.injEq] at hr
    subst hr
    rfl
  · rename_i hnone
    obtain ⟨_, -, h⟩ := except_bind_eq_ok.1 h
    obtain ⟨_, -, h⟩ := except_bind_eq_ok.1 h
    obtain ⟨_, -, h⟩ := except_bind_eq_ok.1 h
    obtain ⟨_, -, h⟩ := except_bind_eq_ok.1 h
    cases h
    refine ⟨_, rfl, fun r hr ↦ ?_⟩
    rw [hnone] at hr
    cases hr

theorem keepsTerms_putQuote {id : String} {row : QuoteRow}
    (h : ∀ r, db.quotes.lookup id = some r → r.SameTerms row) :
    KeepsTerms db (db.write (.putQuote id row)) :=
  { KeepsTerms.refl db with
    quotes := fun id' r hr ↦ by
      by_cases he : id' = id
      · subst he
        exact ⟨row, Finmap.lookup_insert _, h r hr⟩
      · exact ⟨r, by simpa only [Db.write, Finmap.lookup_insert_of_ne _ he] using hr, .refl r⟩ }

theorem steady_createQuote {command : CreateQuoteCommand} {generatedId : Uuid} {now : Date} :
    (steady env).wp (.createQuote command generatedId now)
      ((Task.createQuote command generatedId now).program env)
        (fun _ o _ _ ↦ o = none) none [] db := by
  simp only [Task.program, CreateQuoteUseCase.execute]
  rcases CreateQuoteUseCase.build env command generatedId now with e | q
  · exact Contract.wp_raise fun _ _ _ ↦ rfl
  · refine Contract.wp_call_none
      (s := Stmt.upsertQuote (PrismaQuoteRepository.data q)) fun db' _ _ ↦
      ⟨fun _ _ (he : Task.createQuote _ _ _ = .execute _ _) ↦
        (by cases he), fun locked r ws hx _ ↦ ?_⟩
    have hexec : exec (.upsertQuote (PrismaQuoteRepository.data q)) locked db' = .ok (r, ws) := hx
    obtain ⟨row, rfl, hrow⟩ := upsertQuote_ok hexec
    exact ⟨⟨trivial, keepsTerms_putQuote hrow, fun _ hnone hsome ↦ absurd hnone hsome, trivial⟩,
      Contract.wp_ret fun _ _ _ ↦ rfl⟩

/-- A call of a single statement that writes neither quotes nor conversions. -/
theorem steady_aside {s : Stmt} {k : s.Result → App TaskResult}
    (hexecute : ∀ payload inputs, t ≠ .execute payload inputs)
    (haccept : ∀ command inputs, t ≠ .acceptQuote command inputs) (hs : writesAside s = true)
    (hk : ∀ r, ∃ result, k r = .ret result) :
    (steady env).wp t (.call s k) (fun _ o _ _ ↦ o = none) none [] db := by
  refine Contract.wp_call_none fun db' _ _ ↦
    ⟨fun _ _ he ↦ absurd he (hexecute _ _), fun locked r ws hx _ ↦ ⟨?_, ?_⟩⟩
  · refine publishes_of_keeps (fun w hw ↦ (aside_of_writes hs (exec_writes hx w hw).1).keeps _ _) ?_
    cases t with
    | acceptQuote => exact absurd rfl (haccept _ _)
    | execute => exact absurd rfl (hexecute _ _)
    | _ => trivial
  · obtain ⟨result, hresult⟩ := hk r
    rw [hresult]
    exact Contract.wp_ret fun _ _ _ ↦ rfl

/-! ### All tasks -/

/-- What a finished call can say of itself on arbitrary tables. -/
def SteadyEnd (env : Platform) (t : Task) (r : Except Thrown TaskResult) (durable : List Write)
    (db : Db) : Prop :=
  match t, r with
  | .acceptQuote command inputs, .ok (.accept result) =>
    SteadyAnswer command inputs (.ok result) durable db
  | .execute payload _, .ok (.execution report) => SteadyReport env payload (.ok report) db
  | _, _ => True

theorem SteadyReport.of_keepsTerms {payload : ConversionExecutionRequestedPayload}
    {r : Except Thrown ExecutionReport} (h : SteadyReport env payload r a)
    (hterms : KeepsTerms a b) :
    SteadyReport env payload r b := fun report hr ↦
  (h report hr).imp (And.imp_right (hterms.processed _)) fun h ↦ h.of_keepsTerms hterms

/-- **Every call keeps its promises on arbitrary tables.** -/
theorem steady_program (hfresh : t.Fresh db) :
    (steady env).wp t (t.program env)
      (fun r o d db ↦ o = none ∧ SteadyEnd env t r d db) none [] db := by
  cases t with
  | createQuote command generatedId now =>
    exact Contract.wp_mono steady_createQuote fun _ _ _ _ h ↦ ⟨h, trivial⟩
  | acceptQuote command inputs =>
    refine Contract.wp_bind (Contract.wp_mono (steady_accept hfresh) ?_) trivial
    rintro (x | result) o d db ⟨rfl, h⟩
    · exact Contract.wp_raise fun _ _ _ ↦ ⟨rfl, trivial⟩
    · exact Contract.wp_ret fun _ hr _ ↦ ⟨rfl, h.of_keepsTerms (steady_of_rely hr).1⟩
  | execute payload inputs =>
    refine Contract.wp_bind (Contract.wp_mono steady_execute ?_) trivial
    rintro (x | report) o d db ⟨rfl, h⟩
    · exact Contract.wp_raise fun _ _ _ ↦ ⟨rfl, trivial⟩
    · exact Contract.wp_ret fun _ hr _ ↦ ⟨rfl, h.of_keepsTerms (steady_of_rely hr).1⟩
  | markPublished id publishedAt =>
    exact Contract.wp_mono
      (steady_aside (s := Stmt.markPublished id publishedAt) (by simp) (by simp) rfl
      fun _ ↦ ⟨_, rfl⟩) fun _ _ _ _ h ↦ ⟨h, trivial⟩
  | cleanup now retentionMs batchSize place =>
    simp only [Task.program, IdempotencyCleanupService.cleanupBatch]
    rcases Date.ofTime? (now.getTime - retentionMs) with - | cutoff
    · exact Contract.wp_raise fun _ _ _ ↦ ⟨rfl, trivial⟩
    · exact Contract.wp_mono
        (steady_aside (s := Stmt.deleteExpired cutoff batchSize place) (by simp)
        (by simp) rfl fun _ ↦ ⟨_, rfl⟩) fun _ _ _ _ h ↦ ⟨h, trivial⟩

/-! ### Runs -/

section Runs

variable {s s' : System}

/-- What holds of the calls of a run on arbitrary tables. -/
def Steadfast (env : Platform) (s : System) : Prop :=
  Coherent (steady env) (SteadyEnd env) s

theorem steady_of_startable (s : System) (t : Task) (_ : Steadfast env s) (h : Startable s t) :
    (steady env).wp t (t.program env) (fun r o d db ↦ o = none ∧ SteadyEnd env t r d db) none []
      s.db ∧ ∀ pid p, s.procs.lookup pid = some p →
        (steady env).compat t p.task ∧ (steady env).compat p.task t :=
  ⟨steady_program h.1, fun pid p hp ↦ ⟨h.2 pid p hp, (h.2 pid p hp).symm⟩⟩

/-- **Every state of a run on arbitrary tables.** -/
theorem steadfast_of_wanders (hempty : s.procs = ∅) (h : System.Wanders env s s') :
    Steadfast env s' :=
  Coherent.of_reaches trivial hempty steady_of_startable h

end Runs

end Ledger

end WalletConversion
