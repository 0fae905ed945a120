import WalletConversion.Foundation.RelyGuarantee

/-!
# Programs that publish once

A program may open several transactions and still publish writes only once, at its very end: every
other transaction was dropped, or had collected nothing when it was committed. `Prog.Follows` reads
this off the text of a program. It follows the phases a call goes through: outside of transactions,
in one that has written nothing, in one that has, and after it has published. In the last phase
nothing but the exit may be left.

`State.phased_of_reaches` carries it to runs. It is silent about the store: whatever other calls do,
and wherever the call is cut off, a call that has not reached the last phase has published nothing.
-/

namespace Transactional

open Relation

variable {Db Write Key Err S : Type} {R : S → Type} {X T α β : Type}

/-- How far a call has come. -/
inductive Phase where
  | outside
  /-- In a transaction that has written nothing. -/
  | unwritten
  /-- In a transaction that has written something. -/
  | written
  | published
  deriving DecidableEq

/-- The transaction a call has open in a phase. -/
def Phase.Open : Phase → Option (List Write) → Prop
  | .outside, o | .published, o => o = none
  | .unwritten, o => o = some []
  | .written, o => ∃ vs, o = some vs

namespace Prog

/-- From the phase on, the program publishes once and exits then, and its exits are as `Q` says.
`wrote` tells from the result of a statement whether it may have written. -/
def Follows (wrote : (s : S) → R s → Bool) (Q : Except X α → Phase → Prop) :
    Prog S R X α → Phase → Prop
  | ret a, phase => Q (.ok a) phase
  | raise x, phase => Q (.error x) phase
  | call s k, .outside => ∀ r, wrote s r = false ∧ (k r).Follows wrote Q .outside
  | call s k, .unwritten => ∀ r, (k r).Follows wrote Q (if wrote s r then .written else .unwritten)
  | call _ k, .written => ∀ r, (k r).Follows wrote Q .written
  | begin k, .outside => k.Follows wrote Q .unwritten
  | commit k, .unwritten => k.Follows wrote Q .outside
  | commit k, .written => k.Follows wrote Q .published
  | rollback k, .unwritten => k.Follows wrote Q .outside
  | rollback k, .written => k.Follows wrote Q .outside
  | _, _ => False

/-- Nothing is left of the program but its result. -/
def Exited : Prog S R X α → Prop
  | ret _ | raise _ => True
  | _ => False

variable {wrote : (s : S) → R s → Bool} {Q : Except X β → Phase → Prop} {p : Prog S R X α}
  {phase : Phase}

theorem follows_ret {b : β} (h : Q (.ok b) phase) :
    (ret b : Prog S R X β).Follows wrote Q phase := h

theorem follows_raise {x : X} (h : Q (.error x) phase) :
    (raise x : Prog S R X β).Follows wrote Q phase := h

/-- Outside of transactions nothing may be written. -/
theorem follows_call_outside {s : S} {k : R s → Prog S R X β}
    (h : ∀ r, wrote s r = false ∧ (k r).Follows wrote Q .outside) :
    (call s k).Follows wrote Q .outside := h

/-- The first statements of a transaction. -/
theorem follows_call_unwritten {s : S} {k : R s → Prog S R X β}
    (h : ∀ r, (k r).Follows wrote Q (if wrote s r then .written else .unwritten)) :
    (call s k).Follows wrote Q .unwritten := h

theorem follows_call_written {s : S} {k : R s → Prog S R X β}
    (h : ∀ r, (k r).Follows wrote Q .written) : (call s k).Follows wrote Q .written := h

/-- After the publication only the exit is left. -/
theorem exit_of_follows {p : Prog S R X β} (h : p.Follows wrote Q .published) :
    (∃ b, p = ret b ∧ Q (.ok b) .published) ∨ ∃ x, p = raise x ∧ Q (.error x) .published := by
  cases p with
  | ret b => exact .inl ⟨b, rfl, h⟩
  | raise x => exact .inr ⟨x, rfl, h⟩
  | call | begin | commit | rollback => exact h.elim

theorem exited_of_follows {p : Prog S R X β} (h : p.Follows wrote Q .published) : p.Exited := by
  rcases exit_of_follows h with ⟨b, rfl, -⟩ | ⟨x, rfl, -⟩ <;> trivial

/-- Handling a program's exits goes on in the phases it exits in. -/
theorem follows_handle {f : α → Prog S R X β} {g : X → Prog S R X β}
    (h : p.Follows wrote (fun r phase ↦ match r with
      | .ok a => (f a).Follows wrote Q phase
      | .error x => (g x).Follows wrote Q phase) phase) :
    (p.handle f g).Follows wrote Q phase := by
  induction p generalizing phase with
  | ret a => exact h
  | raise x => exact h
  | call s k ih =>
    cases phase with
    | outside => exact fun r ↦ ⟨(h r).1, ih r (h r).2⟩
    | unwritten | written => exact fun r ↦ ih r (h r)
    | published => exact h
  | begin k ih | commit k ih | rollback k ih =>
    cases phase <;> first | exact ih h | exact h

theorem follows_bind {f : α → Prog S R X β}
    (h : p.Follows wrote (fun r phase ↦ match r with
      | .ok a => (f a).Follows wrote Q phase
      | .error x => Q (.error x) phase) phase) :
    (p >>= f).Follows wrote Q phase :=
  follows_handle h

theorem Follows.mono {Q Q' : Except X α → Phase → Prop} (h : p.Follows wrote Q phase)
    (hQ : ∀ r phase, Q r phase → Q' r phase) : p.Follows wrote Q' phase := by
  induction p generalizing phase with
  | ret | raise => exact hQ _ _ h
  | call s k ih =>
    cases phase with
    | outside => exact fun r ↦ ⟨(h r).1, ih r (h r).2⟩
    | unwritten | written => exact fun r ↦ ih r (h r)
    | published => exact h
  | begin k ih | commit k ih | rollback k ih =>
    cases phase <;> first | exact ih h | exact h

/-- A transaction publishes if its body returns after it has written. -/
theorem follows_transaction {Q : Except X α → Phase → Prop}
    (h : p.Follows wrote (fun r phase ↦ match r, phase with
      | .ok a, .unwritten => Q (.ok a) .outside
      | .ok a, .written => Q (.ok a) .published
      | .error x, .unwritten => Q (.error x) .outside
      | .error x, .written => Q (.error x) .outside
      | _, _ => False) .unwritten) : p.transaction.Follows wrote Q .outside := by
  refine follows_handle (Follows.mono h fun r phase hr ↦ ?_)
  cases r <;> cases phase <;> exact hr

end Prog

/-! ### Runs -/

section Runs

variable {σ : Store Db Write Key Err S R} {wrote : (s : S) → R s → Bool}
  {Q : Except X α → Phase → Prop} {p p' : Proc Write S R X T α}

/-- The call is in the phase. A call that was cut off keeps the phase in which it was. -/
structure Proc.InPhase (wrote : (s : S) → R s → Bool) (Q : Except X α → Phase → Prop)
    (p : Proc Write S R X T α) (phase : Phase) : Prop where
  rest : p.rest.Follows wrote Q phase
  pending : p.live = true → phase.Open p.pending
  durable : phase ≠ .published → p.durable = []

/-- **A step of a call takes it from one phase to another.** -/
theorem Proc.InPhase.advance (hwrote : ∀ s locked db r ws,
      σ.exec s locked db = .ok (r, ws) → wrote s r = false → ws = [])
    {phase : Phase} (h : p.InPhase wrote Q phase) (hlive : p.live = true) {locked : Key → Bool}
    {db db' : Db} (hadv : p.advance σ locked db = some (db', p')) :
    ∃ phase', p'.InPhase wrote Q phase' := by
  obtain ⟨hrest, hpending, hdurable⟩ := h
  replace hpending := hpending hlive
  unfold Phase.Open at hpending
  rcases Proc.advance_cases hadv with ⟨s, k, r, ws, hcall, hx, -, hcase⟩ |
    ⟨k, hbegin, hnone, -, rfl⟩ | ⟨k, vs, hcommit, hvs, -, rfl⟩ | ⟨k, vs, hback, hvs, -, rfl⟩
  · rw [hcall] at hrest
    cases phase with
    | outside =>
      rcases hcase with ⟨-, -, rfl⟩ | ⟨vs, hvs, -, -⟩
      · have hnothing := hwrote _ _ _ _ _ hx (hrest r).1
        exact ⟨.outside, (hrest r).2, fun _ ↦ hpending, fun _ ↦ by
          rw [hnothing, List.append_nil, hdurable (by decide)]⟩
      · rw [hpending] at hvs
        cases hvs
    | unwritten =>
      rcases hcase with ⟨hnone, -, -⟩ | ⟨vs, hvs, -, rfl⟩
      · rw [hpending] at hnone
        cases hnone
      · rw [hpending, Option.some.injEq] at hvs
        subst hvs
        rcases hw : wrote s r with - | -
        · have hnothing := hwrote _ _ _ _ _ hx hw
          exact ⟨.unwritten, by simpa [hw] using hrest r, fun _ ↦ by rw [hnothing]; rfl,
            fun _ ↦ hdurable (by decide)⟩
        · exact ⟨.written, by simpa [hw] using hrest r, fun _ ↦ ⟨_, rfl⟩,
            fun _ ↦ hdurable (by decide)⟩
    | written =>
      rcases hcase with ⟨hnone, -, -⟩ | ⟨vs, -, -, rfl⟩
      · obtain ⟨vs, hvs⟩ := hpending
        rw [hvs] at hnone
        cases hnone
      · exact ⟨.written, hrest r, fun _ ↦ ⟨_, rfl⟩, fun _ ↦ hdurable (by decide)⟩
    | published => exact hrest.elim
  · rw [hbegin] at hrest
    cases phase with
    | outside => exact ⟨.unwritten, hrest, fun _ ↦ rfl, fun _ ↦ hdurable (by decide)⟩
    | unwritten | written | published => exact hrest.elim
  · rw [hcommit] at hrest
    cases phase with
    | unwritten =>
      rw [hpending, Option.some.injEq] at hvs
      subst hvs
      exact ⟨.outside, hrest, fun _ ↦ rfl, fun _ ↦ by rw [List.append_nil, hdurable (by decide)]⟩
    | written => exact ⟨.published, hrest, fun _ ↦ rfl, fun h ↦ absurd rfl h⟩
    | outside | published => exact hrest.elim
  · rw [hback] at hrest
    cases phase with
    | unwritten | written => exact ⟨.outside, hrest, fun _ ↦ rfl, fun _ ↦ hdurable (by decide)⟩
    | outside | published => exact hrest.elim

variable [DecidableEq Key] {program : T → Prog S R X α} {s s' : State Db Write S R X T α}

/-- Every call whose program publishes once is in some phase. -/
def State.Phased (wrote : (s : S) → R s → Bool) (Q : T → Except X α → Phase → Prop)
    (program : T → Prog S R X α) (s : State Db Write S R X T α) : Prop :=
  ∀ pid p, s.procs.lookup pid = some p →
    (program p.task).Follows wrote (Q p.task) .outside → ∃ phase, p.InPhase wrote (Q p.task) phase

theorem State.phased_of_step {Q : T → Except X α → Phase → Prop} (hwrote : ∀ s locked db r ws,
      σ.exec s locked db = .ok (r, ws) → wrote s r = false → ws = [])
    {m : Move T} (hstep : s.step σ program m = some s') (h : s.Phased wrote Q program) :
    s'.Phased wrote Q program := by
  have hinsert : ∀ {j : ℕ} {q : Proc Write S R X T α} {db : Db},
      ((program q.task).Follows wrote (Q q.task) .outside →
        ∃ phase, q.InPhase wrote (Q q.task) phase) →
      State.Phased wrote Q program ⟨db, s.procs.insert j q⟩ :=
        fun {j q db} hq pid p hp hfollows ↦ by
    by_cases hne : pid = j
    · subst hne
      rw [Finmap.lookup_insert] at hp
      cases hp
      exact hq hfollows
    · rw [Finmap.lookup_insert_of_ne _ hne] at hp
      exact h pid p hp hfollows
  rcases State.step_cases hstep with ⟨j, t, rfl, -, rfl⟩ |
    ⟨j, q, db', q', rfl, hq, hlive, hadv, rfl⟩ |
    ⟨j, q, rfl, hq, -, rfl⟩
  · exact hinsert fun hfollows ↦ ⟨.outside, hfollows, fun _ ↦ rfl, fun _ ↦ rfl⟩
  · have htask : q'.task = q.task := by
      rcases Proc.advance_cases hadv with
        ⟨_, _, _, _, _, _, _, ⟨_, _, rfl⟩ | ⟨_, _, _, rfl⟩⟩ | ⟨_, _, _, _, rfl⟩ |
        ⟨_, _, _, _, _, rfl⟩ | ⟨_, _, _, _, _, rfl⟩ <;> rfl
    refine hinsert fun hfollows ↦ ?_
    rw [htask] at hfollows ⊢
    obtain ⟨phase, hphase⟩ := h j q hq hfollows
    exact hphase.advance hwrote hlive hadv
  · refine hinsert fun hfollows ↦ ?_
    obtain ⟨phase, hphase⟩ := h j q hq hfollows
    exact ⟨phase, hphase.rest, fun hdead ↦ (Bool.false_ne_true hdead).elim, hphase.durable⟩

/-- **In every run, a call is in some phase of its program.** -/
theorem State.phased_of_reaches {Q : T → Except X α → Phase → Prop}
    {allowed : State Db Write S R X T α → T → Prop} {observed : Db → Db → Prop}
    (hwrote : ∀ s locked db r ws, σ.exec s locked db = .ok (r, ws) → wrote s r = false → ws = [])
    (hrun : Reaches σ program allowed observed s s') (h : s.Phased wrote Q program) :
    s'.Phased wrote Q program := by
  induction hrun with
  | refl => exact h
  | tail _ hstep ih =>
    obtain ⟨m, -, hm, -⟩ := hstep
    exact State.phased_of_step hwrote hm ih

/-! ### What a call has published -/

/-- No step that the call takes between the two states changes the committed store. -/
def Untouched (σ : Store Db Write Key Err S R) (program : T → Prog S R X α)
    (allowed : State Db Write S R X T α → T → Prop) (observed : Db → Db → Prop) (pid : ℕ)
    (s s' : State Db Write S R X T α) : Prop :=
  ∀ a b, Reaches σ program allowed observed s a → a.step σ program (.run pid) = some b →
    Reaches σ program allowed observed b s' → b.db = a.db

variable {allowed : State Db Write S R X T α → T → Prop} {observed : Db → Db → Prop} {pid : ℕ}
  {a b : State Db Write S R X T α}

/-- A step of a call publishes the writes by which its record of them grows. -/
theorem State.run_cases (h : a.step σ program (.run pid) = some b) :
    ∃ p p' ws, a.procs.lookup pid = some p ∧ p.live = true ∧ b.procs.lookup pid = some p' ∧
      p'.live = true ∧ p'.task = p.task ∧ p'.durable = p.durable ++ ws ∧
      b.db = σ.applyAll a.db ws ∧ ¬ p.rest.Exited := by
  rcases State.step_cases h with ⟨j, t, he, -, -⟩ | ⟨j, p, db', p', he, hp, hlive, hadv, rfl⟩ |
    ⟨j, p, he, -, -, -⟩
  · cases he
  · cases he
    refine ⟨p, p', ?_⟩
    rcases Proc.advance_cases hadv with
      ⟨_, _, _, ws, hrest, _, _, ⟨_, rfl, rfl⟩ | ⟨_, _, rfl, rfl⟩⟩ | ⟨_, hrest, _, rfl, rfl⟩ |
      ⟨_, vs, hrest, _, rfl, rfl⟩ | ⟨_, _, hrest, _, rfl, rfl⟩
    · exact ⟨ws, hp, hlive, Finmap.lookup_insert _, hlive, rfl, rfl, rfl,
        by simp [hrest, Prog.Exited]⟩
    · exact ⟨[], hp, hlive, Finmap.lookup_insert _, hlive, rfl, (List.append_nil _).symm, rfl,
        by simp [hrest, Prog.Exited]⟩
    · exact ⟨[], hp, hlive, Finmap.lookup_insert _, hlive, rfl, (List.append_nil _).symm, rfl,
        by simp [hrest, Prog.Exited]⟩
    · exact ⟨vs, hp, hlive, Finmap.lookup_insert _, hlive, rfl, rfl, rfl,
        by simp [hrest, Prog.Exited]⟩
    · exact ⟨[], hp, hlive, Finmap.lookup_insert _, hlive, rfl, (List.append_nil _).symm, rfl,
        by simp [hrest, Prog.Exited]⟩
  · cases he

theorem not_exited_of_step (h : a.step σ program (.run pid) = some b)
    (hp : a.procs.lookup pid = some p) : ¬ p.rest.Exited := by
  obtain ⟨q, -, -, hq, -, -, -, -, -, -, hexit⟩ := State.run_cases h
  rw [hp, Option.some.injEq] at hq
  exact hq ▸ hexit

/-- What a call has published stays published. -/
theorem State.history_of_reaches (hrun : Reaches σ program allowed observed s s')
    (hp : s.procs.lookup pid = some p) : ∃ p' ws, s'.procs.lookup pid = some p' ∧
      p'.task = p.task ∧ p'.durable = p.durable ++ ws := by
  induction hrun with
  | refl => exact ⟨p, [], hp, rfl, (List.append_nil _).symm⟩
  | tail _ hstep ih =>
    obtain ⟨p₁, ws₁, hp₁, htask₁, hdurable₁⟩ := ih
    obtain ⟨m, -, hm, -⟩ := hstep
    obtain ⟨p₂, ws₂, hp₂, htask₂, hdurable₂⟩ := State.history_of_step hm hp₁
    exact ⟨p₂, ws₁ ++ ws₂, hp₂, htask₂.trans htask₁, by
      rw [hdurable₂, hdurable₁, List.append_assoc]⟩

/-- A call that has published nothing has changed nothing. -/
theorem untouched_of_unpublished (hp : s'.procs.lookup pid = some p) (hnothing : p.durable = []) :
    Untouched σ program allowed observed pid s s' := by
  intro a b _ hstep hrun
  obtain ⟨q, q', ws, -, -, hq', -, -, hdurable, hdb, -⟩ := State.run_cases hstep
  obtain ⟨q'', vs, hq'', -, hdurable'⟩ := State.history_of_reaches hrun hq'
  rw [hp] at hq''
  cases hq''
  rw [hnothing, hdurable] at hdurable'
  have hws : ws = [] := by
    cases ws with
    | nil => rfl
    | cons w ws => simp at hdurable'
  rw [hdb, hws, σ.applyAll_nil]

/-- A call at its exit stays as it is, unless it is cut off. -/
theorem State.exited_of_reaches (hrun : Reaches σ program allowed observed s s')
    (hp : s.procs.lookup pid = some p) (hexit : p.rest.Exited) :
    ∃ p', s'.procs.lookup pid = some p' ∧ p'.task = p.task ∧ p'.rest = p.rest ∧
      p'.durable = p.durable := by
  induction hrun with
  | refl => exact ⟨p, hp, rfl, rfl, rfl⟩
  | @tail s₁ s₂ _ hstep ih =>
    obtain ⟨p₁, hp₁, htask, hrest, hdurable⟩ := ih
    obtain ⟨m, -, hm, -⟩ := hstep
    have hother : ∀ {j : ℕ} {q : Proc Write S R X T α}, j ≠ pid →
        (s₁.procs.insert j q).lookup pid = some p₁ := fun hne ↦ by
      rwa [Finmap.lookup_insert_of_ne _ (Ne.symm hne)]
    rcases State.step_cases hm with ⟨j, t, rfl, hl, rfl⟩ | ⟨j, q, db', q', rfl, hl, -, hadv, rfl⟩ |
      ⟨j, q, rfl, hl, -, rfl⟩
    · refine ⟨p₁, hother ?_, htask, hrest, hdurable⟩
      rintro rfl
      rw [hp₁] at hl
      cases hl
    · refine ⟨p₁, hother ?_, htask, hrest, hdurable⟩
      rintro rfl
      rw [hp₁, Option.some.injEq] at hl
      subst hl
      exact not_exited_of_step hm hp₁ (hrest ▸ hexit)
    · by_cases hj : j = pid
      · subst hj
        rw [hp₁, Option.some.injEq] at hl
        subst hl
        exact ⟨_, Finmap.lookup_insert _, htask, hrest, hdurable⟩
      · exact ⟨p₁, hother hj, htask, hrest, hdurable⟩

/-- A call at its exit changes nothing any more. -/
theorem untouched_of_exited (hp : s.procs.lookup pid = some p) (hexit : p.rest.Exited) :
    Untouched σ program allowed observed pid s s' := by
  intro a b hrun hstep _
  obtain ⟨p', hp', -, hrest, -⟩ := State.exited_of_reaches hrun hp hexit
  exact absurd (hrest ▸ hexit) (not_exited_of_step hstep hp')

/-- **A call that publishes once**: either it has changed nothing yet, or it has exited, and exactly
one of its steps has changed anything, by publishing all its writes. -/
theorem State.published_once {Q : T → Except X α → Phase → Prop}
    (hwrote : ∀ s locked db r ws, σ.exec s locked db = .ok (r, ws) → wrote s r = false → ws = [])
    (hempty : s.procs = ∅) (hrun : Reaches σ program allowed observed s s')
    (hp : s'.procs.lookup pid = some p)
    (hfollows : (program p.task).Follows wrote (Q p.task) .outside)
    (hsome : p.durable ≠ []) :
    ∃ a b q q', Reaches σ program allowed observed s a ∧ a.step σ program (.run pid) = some b ∧
      Reaches σ program allowed observed b s' ∧ a.procs.lookup pid = some q ∧ q.durable = [] ∧
      b.procs.lookup pid = some q' ∧ q'.live = true ∧ q'.task = p.task ∧ q'.rest = p.rest ∧
      p.rest.Follows wrote (Q p.task) .published ∧ q'.durable = p.durable ∧
      b.db = σ.applyAll a.db p.durable := by
  have hphased : ∀ {s₁}, Reaches σ program allowed observed s s₁ → s₁.Phased wrote Q program :=
    fun hrun ↦ State.phased_of_reaches hwrote hrun fun pid p hp ↦ by simp [hempty] at hp
  induction hrun generalizing p with
  | refl => simp [hempty] at hp
  | @tail s₁ s₂ hrun hstep ih =>
    have hlast : ∀ {q : Proc Write S R X T α}, s₁.procs.lookup pid = some q → q.task = p.task →
        q.durable ≠ [] → ∃ a b r r', Reaches σ program allowed observed s a ∧
          a.step σ program (.run pid) = some b ∧ Reaches σ program allowed observed b s₂ ∧
          a.procs.lookup pid = some r ∧ r.durable = [] ∧ b.procs.lookup pid = some r' ∧
          r'.live = true ∧ r'.task = q.task ∧ r'.rest = q.rest ∧
          q.rest.Follows wrote (Q q.task) .published ∧ r'.durable = q.durable ∧
          b.db = σ.applyAll a.db q.durable := by
      intro q hq htask hq'
      obtain ⟨a, b, r, r', hsa, hab, hbs, h⟩ := ih hq (htask ▸ hfollows) hq'
      exact ⟨a, b, r, r', hsa, hab, hbs.tail hstep, h⟩
    obtain ⟨m, -, hm, -⟩ := id hstep
    rcases State.step_cases hm with ⟨j, t, rfl, hl, rfl⟩ | ⟨j, q, db', q', rfl, hl, -, hadv, rfl⟩ |
      ⟨j, q, rfl, hl, -, rfl⟩
    -- another call begins
    · by_cases hj : pid = j
      · subst hj
        rw [Finmap.lookup_insert] at hp
        cases hp
        exact absurd rfl hsome
      · rw [Finmap.lookup_insert_of_ne _ hj] at hp
        exact hlast hp rfl hsome
    · by_cases hj : pid = j
      swap
      · rw [Finmap.lookup_insert_of_ne _ hj] at hp
        exact hlast hp rfl hsome
      subst hj
      -- its own step: it is the one that publishes, if nothing was published before
      obtain ⟨r, r', ws, hr, hlive, hr', hlive', htask, hdurable, hdb, hexit⟩ := State.run_cases hm
      rw [hp, Option.some.injEq] at hr'
      subst hr'
      by_cases hnothing : r.durable = []
      swap
      · obtain ⟨_, _, _, _, _, _, _, _, _, _, _, _, _, hpublished, _⟩ :=
          ih hr (htask ▸ hfollows) hnothing
        exact absurd (Prog.exited_of_follows hpublished) hexit
      obtain ⟨phase, hphase⟩ := hphased (hrun.tail hstep) pid p hp hfollows
      have hpublished : phase = .published := by
        by_contra hne
        exact hsome (hphase.durable hne)
      subst hpublished
      rw [hnothing, List.nil_append] at hdurable
      exact ⟨s₁, _, r, p, hrun, hm, .refl, hr, hnothing, hp, hlive', rfl, rfl, hphase.rest, rfl,
        by rw [hdurable]; exact hdb⟩
    · by_cases hj : pid = j
      · subst hj
        rw [Finmap.lookup_insert] at hp
        cases hp
        exact hlast (q := q) hl rfl hsome
      · rw [Finmap.lookup_insert_of_ne _ hj] at hp
        exact hlast hp rfl hsome

end Runs

-- from here on programs are followed with the rules
attribute [irreducible] Prog.Follows

end Transactional
