import WalletConversion.Foundation.Footprint

/-!
# Rows that are claimed

Two arguments about what calls have published, for stores in which a call leaves a mark that others
can find.

* `Prog.Logs` is what a program has published while it goes on, and when it ends: a call that has
  published a certain write has ended with a certain result, and the other way round
  (`State.logged_of_reaches`).
* `Claiming` describes writes that are made only where nobody has made one, under a lock. The first
  writer wins: two calls never publish a claim of one key, a published claim stays as it was made,
  and what is claimed was claimed by some call (`claimed_of_reaches`).
-/

namespace Transactional

open Relation

variable {Db Write Key Err S : Type} {R : S → Type} {X T α β K : Type}

/-! ### What a program has published -/

namespace Prog

/-- From the open transaction and the published writes on, the program has published what `I` says
while it goes on, and ends as `Q` says: whatever its statements answer in tables that it `Sees`, if
what it publishes is within its guarantee. -/
def Logs (σ : Store Db Write Key Err S R) (Sees : Option (List Write) → Db → Prop)
    (guar : Db → Db → Prop) (I : List Write → Prop)
    (Q : Except X α → Option (List Write) → List Write → Prop) :
    Prog S R X α → Option (List Write) → List Write → Prop
  | ret a, o, d => Q (.ok a) o d
  | raise x, o, d => Q (.error x) o d
  | call s k, o, d => I d ∧
      ∀ db locked r ws, Sees o db → σ.exec s locked (σ.view db o) = .ok (r, ws) →
        match o with
        | none => guar db (σ.applyAll db ws) → (k r).Logs σ Sees guar I Q none (d ++ ws)
        | some vs => (k r).Logs σ Sees guar I Q (some (vs ++ ws)) d
  | begin k, _, d => I d ∧ k.Logs σ Sees guar I Q (some []) d
  | commit k, o, d => I d ∧ ∀ vs, o = some vs → k.Logs σ Sees guar I Q none (d ++ vs)
  | rollback k, _, d => I d ∧ k.Logs σ Sees guar I Q none d

variable {σ : Store Db Write Key Err S R} {Sees : Option (List Write) → Db → Prop}
  {guar : Db → Db → Prop} {I : List Write → Prop}
  {Q Q' : Except X α → Option (List Write) → List Write → Prop}
  {p : Prog S R X α} {o : Option (List Write)} {d : List Write}

/-- What is published up to here. -/
theorem Logs.now (h : p.Logs σ Sees guar I Q o d) : I d ∨ ∃ r, Q r o d := by
  cases p with
  | ret a => exact .inr ⟨_, h⟩
  | raise x => exact .inr ⟨_, h⟩
  | call | begin | commit | rollback => exact .inl h.1

theorem Logs.mono (h : p.Logs σ Sees guar I Q o d) (hQ : ∀ r o d, Q r o d → Q' r o d) :
    p.Logs σ Sees guar I Q' o d := by
  induction p generalizing o d with
  | ret | raise => exact hQ _ _ _ h
  | call s k ih =>
    refine ⟨h.1, fun db locked r ws hsees hx ↦ ?_⟩
    have hk := h.2 db locked r ws hsees hx
    cases o with
    | none => exact fun hguar ↦ ih r (hk hguar)
    | some vs => exact ih r hk
  | begin k ih => exact ⟨h.1, ih h.2⟩
  | commit k ih => exact ⟨h.1, fun vs ho ↦ ih (h.2 vs ho)⟩
  | rollback k ih => exact ⟨h.1, ih h.2⟩

theorem logs_handle {Q : Except X β → Option (List Write) → List Write → Prop}
    {f : α → Prog S R X β}
    {g : X → Prog S R X β} (h : p.Logs σ Sees guar I (fun r o d ↦ match r with
      | .ok a => (f a).Logs σ Sees guar I Q o d
      | .error x => (g x).Logs σ Sees guar I Q o d) o d) :
    (p.handle f g).Logs σ Sees guar I Q o d := by
  induction p generalizing o d with
  | ret | raise => exact h
  | call s k ih =>
    refine ⟨h.1, fun db locked r ws hsees hx ↦ ?_⟩
    have hk := h.2 db locked r ws hsees hx
    cases o with
    | none => exact fun hguar ↦ ih r (hk hguar)
    | some vs => exact ih r hk
  | begin k ih => exact ⟨h.1, ih h.2⟩
  | commit k ih => exact ⟨h.1, fun vs ho ↦ ih (h.2 vs ho)⟩
  | rollback k ih => exact ⟨h.1, ih h.2⟩

theorem logs_bind {Q : Except X β → Option (List Write) → List Write → Prop} {f : α → Prog S R X β}
    (h : p.Logs σ Sees guar I (fun r o d ↦ match r with
      | .ok a => (f a).Logs σ Sees guar I Q o d
      | .error x => Q (.error x) o d) o d) : (p >>= f).Logs σ Sees guar I Q o d :=
  logs_handle h

/-- A transaction publishes what its body has collected, if the body returns. -/
theorem logs_transaction (hI : I d) (h : p.Logs σ Sees guar I (fun r o d ↦ I d ∧ match r with
      | .ok a => ∀ vs, o = some vs → Q (.ok a) none (d ++ vs)
      | .error x => Q (.error x) none d) (some []) d) :
    p.transaction.Logs σ Sees guar I Q none d := by
  refine ⟨hI, logs_handle (h.mono fun r o d hr ↦ ?_)⟩
  cases r with
  | ok a => exact hr
  | error x => exact hr

/-- A program whose statements make writes of one kind publishes writes of this kind. -/
theorem logs_of_issues {P : S → Prop} {kind : Write → Prop} (hp : p.Issues P)
    (hexec : ∀ st locked db r ws, P st → σ.exec st locked db = .ok (r, ws) → ∀ w ∈ ws, kind w)
    (ho : ∀ vs, o = some vs → ∀ w ∈ vs, kind w) (hd : ∀ w ∈ d, kind w) :
    p.Logs σ Sees guar (fun d ↦ ∀ w ∈ d, kind w) (fun _ _ d ↦ ∀ w ∈ d, kind w) o d := by
  induction p generalizing o d with
  | ret | raise => exact hd
  | call s k ih =>
    refine ⟨hd, fun db locked r ws _ hx ↦ ?_⟩
    have hws := hexec s locked _ r ws hp.1 hx
    cases o with
    | none => exact fun _ ↦ ih r (hp.2 r) ho (List.forall_mem_append.2 ⟨hd, hws⟩)
    | some vs =>
      refine ih r (hp.2 r) ?_ hd
      rintro _ ⟨⟩
      exact List.forall_mem_append.2 ⟨ho vs rfl, hws⟩
  | begin k ih =>
    refine ⟨hd, ih hp ?_ hd⟩
    rintro _ ⟨⟩ w hw
    cases hw
  | commit k ih =>
    exact ⟨hd, fun vs hvs ↦ ih hp (fun _ h ↦ by cases h)
      (List.forall_mem_append.2 ⟨hd, ho vs hvs⟩)⟩
  | rollback k ih => exact ⟨hd, ih hp (fun _ h ↦ by cases h) hd⟩

/-! ### Programs without transactions -/

/-- A program that opens no transaction, and all of whose statements have the property. -/
def Plain (P : S → Prop) : Prog S R X α → Prop
  | ret _ | raise _ => True
  | call s k => P s ∧ ∀ r, (k r).Plain P
  | begin _ | commit _ | rollback _ => False

variable {P : S → Prop}

theorem plain_handle {f : α → Prog S R X β} {g : X → Prog S R X β} (hp : p.Plain P)
    (hf : ∀ a, (f a).Plain P) (hg : ∀ x, (g x).Plain P) : (p.handle f g).Plain P := by
  induction p with
  | ret a => exact hf a
  | raise x => exact hg x
  | call s k ih => exact ⟨hp.1, fun r ↦ ih r (hp.2 r)⟩
  | begin | commit | rollback => exact hp.elim

theorem plain_bind {f : α → Prog S R X β} (hp : p.Plain P) (hf : ∀ a, (f a).Plain P) :
    (p >>= f).Plain P :=
  plain_handle hp hf fun _ ↦ trivial

variable {kind : Write → Prop}
  (hexec : ∀ st locked db r ws, P st → σ.exec st locked db = .ok (r, ws) → ∀ w ∈ ws, kind w)

include hexec in
/-- Outside of transactions it publishes more and more writes. -/
theorem logs_of_plain (hp : p.Plain P) (hI : ∀ ws, (∀ w ∈ ws, kind w) → I (d ++ ws))
    (h : ∀ r ws, (∀ w ∈ ws, kind w) → Q r none (d ++ ws)) : p.Logs σ Sees guar I Q none d := by
  induction p generalizing d with
  | ret | raise => simpa only [Logs, List.append_nil] using h _ [] (List.forall_mem_nil _)
  | call s k ih =>
    refine ⟨by simpa only [List.append_nil] using hI [] (List.forall_mem_nil _),
      fun db locked r ws _ hx _ ↦ ?_⟩
    have hws := hexec s locked _ r ws hp.1 hx
    refine ih r (hp.2 r) (fun us hus ↦ ?_) fun r' us hus ↦ ?_
    · rw [List.append_assoc]
      exact hI _ (List.forall_mem_append.2 ⟨hws, hus⟩)
    · rw [List.append_assoc]
      exact h r' _ (List.forall_mem_append.2 ⟨hws, hus⟩)
  | begin | commit | rollback => exact hp.elim

include hexec in
/-- Inside a transaction it collects more and more of them. -/
theorem logs_of_plain_some {vs : List Write} (hp : p.Plain P) (hI : I d)
    (h : ∀ r ws, (∀ w ∈ ws, kind w) → Q r (some (vs ++ ws)) d) :
    p.Logs σ Sees guar I Q (some vs) d := by
  induction p generalizing vs with
  | ret | raise => simpa only [Logs, List.append_nil] using h _ [] (List.forall_mem_nil _)
  | call s k ih =>
    refine ⟨hI, fun db locked r ws _ hx ↦ ih r (hp.2 r) fun r' us hus ↦ ?_⟩
    rw [List.append_assoc]
    exact h r' _ (List.forall_mem_append.2 ⟨hexec s locked _ r ws hp.1 hx, hus⟩)
  | begin | commit | rollback => exact hp.elim

end Prog

section Runs

variable [DecidableEq Key] {σ : Store Db Write Key Err S R} {program : T → Prog S R X α}
  {allowed : State Db Write S R X T α → T → Prop} {observed : Db → Db → Prop}
  {Sees : T → Option (List Write) → Db → Prop} {guar : T → Db → Db → Prop}
  {I : T → List Write → Prop} {Q : T → Except X α → Option (List Write) → List Write → Prop}
  {s₀ s s' : State Db Write S R X T α}

/-- What every call has published, and will have published when it ends. -/
structure State.Logged (σ : Store Db Write Key Err S R)
    (Sees : T → Option (List Write) → Db → Prop) (guar : T → Db → Db → Prop)
    (I : T → List Write → Prop) (Q : T → Except X α → Option (List Write) → List Write → Prop)
    (s : State Db Write S R X T α) : Prop where
  ends : ∀ pid p, s.procs.lookup pid = some p → p.live = true →
    p.rest.Logs σ (Sees p.task) (guar p.task) (I p.task) (Q p.task) p.pending p.durable
  now : ∀ pid p, s.procs.lookup pid = some p → I p.task p.durable ∨ ∃ r o, Q p.task r o p.durable

theorem State.logged_of_step
    (hprogram : ∀ t, (program t).Logs σ (Sees t) (guar t) (I t) (Q t) none [])
    (hsees : ∀ i p, s.procs.lookup i = some p → p.live = true → Sees p.task p.pending s.db)
    {m : Move T} (h : s.step σ program m = some s')
    (hguar : ∀ i p, m = .run i → s.procs.lookup i = some p → guar p.task s.db s'.db)
    (hs : s.Logged σ Sees guar I Q) : s'.Logged σ Sees guar I Q := by
  have hinsert : ∀ {j : ℕ} {q : Proc Write S R X T α} {db : Db},
      (q.live = true →
        q.rest.Logs σ (Sees q.task) (guar q.task) (I q.task) (Q q.task) q.pending q.durable) →
      (I q.task q.durable ∨ ∃ r o, Q q.task r o q.durable) →
      State.Logged σ Sees guar I Q ⟨db, s.procs.insert j q⟩ := fun {j q db} hends hnow ↦ by
    refine ⟨fun pid p hp ↦ ?_, fun pid p hp ↦ ?_⟩
    · rcases eq_or_ne pid j with rfl | hne
      · rw [Finmap.lookup_insert, Option.some.injEq] at hp
        exact hp ▸ hends
      · rw [Finmap.lookup_insert_of_ne _ hne] at hp
        exact hs.ends pid p hp
    · rcases eq_or_ne pid j with rfl | hne
      · rw [Finmap.lookup_insert, Option.some.injEq] at hp
        exact hp ▸ hnow
      · rw [Finmap.lookup_insert_of_ne _ hne] at hp
        exact hs.now pid p hp
  -- a call that goes on has published what is known of its program
  have hlive : ∀ {j : ℕ} {q : Proc Write S R X T α} {db : Db},
      q.rest.Logs σ (Sees q.task) (guar q.task) (I q.task) (Q q.task) q.pending q.durable →
      State.Logged σ Sees guar I Q ⟨db, s.procs.insert j q⟩ :=
    fun hq ↦ hinsert (fun _ ↦ hq) (hq.now.imp_right fun ⟨r, hr⟩ ↦ ⟨r, _, hr⟩)
  rcases State.step_cases h with ⟨j, t, rfl, hl, rfl⟩ | ⟨j, q, db', q', rfl, hl, hq, hadv, rfl⟩ |
    ⟨j, q, rfl, hl, -, rfl⟩
  · exact hlive (hprogram t)
  · have hsaw := hsees j q hl hq
    have hends := hs.ends j q hl hq
    refine hlive ?_
    rcases Proc.advance_cases hadv with
      ⟨_, _, r, ws, hrest, hx, _, ⟨hpend, rfl, rfl⟩ | ⟨vs, hpend, _, rfl⟩⟩ | ⟨_, hrest, _, _, rfl⟩ |
      ⟨_, vs, hrest, hpend, _, rfl⟩ | ⟨_, _, hrest, _, _, rfl⟩
    · rw [hrest, hpend] at hends
      rw [hpend] at hx hsaw
      simpa only [hpend] using hends.2 _ _ r ws hsaw hx (hguar j q rfl hl)
    · rw [hrest, hpend] at hends
      rw [hpend] at hx hsaw
      exact hends.2 _ _ r ws hsaw hx
    · rw [hrest] at hends
      exact hends.2
    · rw [hrest, hpend] at hends
      exact hends.2 vs rfl
    · rw [hrest] at hends
      exact hends.2
  · exact hinsert (fun hdead ↦ by cases hdead) (hs.now j q hl)

/-- **What a program has published when it ends holds in every run.** -/
theorem State.logged_of_reaches (hempty : s₀.procs = ∅)
    (hprogram : ∀ t, (program t).Logs σ (Sees t) (guar t) (I t) (Q t) none [])
    (hsees : ∀ s, Reaches σ program allowed observed s₀ s → ∀ i p, s.procs.lookup i = some p →
      p.live = true → Sees p.task p.pending s.db)
    (hguar : ∀ s s', Reaches σ program allowed observed s₀ s → observed s.db s'.db →
      ∀ i p, s.step σ program (.run i) = some s' → s.procs.lookup i = some p →
        guar p.task s.db s'.db)
    (h : Reaches σ program allowed observed s₀ s) : s.Logged σ Sees guar I Q := by
  induction h with
  | refl => exact ⟨fun pid p hp ↦ by simp [hempty] at hp, fun pid p hp ↦ by simp [hempty] at hp⟩
  | tail hrun hstep ih =>
    obtain ⟨m, -, hm, ho⟩ := hstep
    exact State.logged_of_step hprogram (hsees _ hrun) hm
      (fun i p hi hp ↦ hguar _ _ hrun ho i p (hi ▸ hm) hp) ih

end Runs

/-! ### Claims -/

/-- Writes that are made only where nobody has made one before. -/
structure Claiming (σ : Store Db Write Key Err S R) (K : Type) where
  /-- The key that a write claims. -/
  claims : Write → Option K
  /-- What a claim leaves in the store. -/
  Holds : Db → Write → Prop
  /-- Somebody has claimed the key. -/
  Taken : Db → K → Prop
  /-- What is locked by a claim. -/
  lock : K → Key
  lock_mem : ∀ w k, claims w = some k → lock k ∈ σ.keys w
  same_taken : ∀ a b k, σ.same (lock k) a b → (Taken a k ↔ Taken b k)
  /-- A statement makes one claim at most, where there was none. -/
  exec_free : ∀ s locked db r ws, σ.exec s locked db = .ok (r, ws) →
    (∀ w ∈ ws, ∀ k, claims w = some k → ¬ Taken db k) ∧
      ws.Pairwise fun w w' ↦ ∀ k, claims w = some k → claims w' ≠ some k
  taken_apply : ∀ db w k, Taken db k → Taken (σ.apply db w) k
  taken_cases : ∀ db w k, Taken (σ.apply db w) k → Taken db k ∨ claims w = some k
  taken_of_holds : ∀ db w k, claims w = some k → Holds db w → Taken db k
  holds_apply : ∀ db w k, claims w = some k → Holds (σ.apply db w) w
  /-- Only a claim of the same key could undo it. -/
  holds_keep : ∀ db w w' k, claims w = some k → claims w' ≠ some k → Holds db w →
    Holds (σ.apply db w') w

namespace Claiming

variable {σ : Store Db Write Key Err S R} (c : Claiming σ K) {db : Db} {ws vs : List Write}
  {w : Write} {k : K}

/-- The writes claim different keys. -/
def Distinct (ws : List Write) : Prop :=
  ws.Pairwise fun w w' ↦ ∀ k, c.claims w = some k → c.claims w' ≠ some k

theorem taken_applyAll (h : c.Taken db k) (ws : List Write) : c.Taken (σ.applyAll db ws) k := by
  induction ws generalizing db with
  | nil => exact h
  | cons w ws ih => exact ih (c.taken_apply _ _ _ h)

/-- What is claimed was claimed before, or by one of the writes. -/
theorem taken_applyAll_cases (h : c.Taken (σ.applyAll db ws) k) :
    c.Taken db k ∨ ∃ w ∈ ws, c.claims w = some k := by
  induction ws generalizing db with
  | nil => exact .inl h
  | cons w ws ih =>
    rcases ih h with htaken | ⟨w', hw', hk⟩
    · rcases c.taken_cases _ _ _ htaken with hbefore | hk
      · exact .inl hbefore
      · exact .inr ⟨w, List.mem_cons_self, hk⟩
    · exact .inr ⟨w', List.mem_cons_of_mem _ hw', hk⟩

theorem holds_keepAll (hk : c.claims w = some k) (hws : ∀ w' ∈ ws, c.claims w' ≠ some k)
    (h : c.Holds db w) : c.Holds (σ.applyAll db ws) w := by
  induction ws generalizing db with
  | nil => exact h
  | cons w' ws ih =>
    exact ih (fun u hu ↦ hws u (List.mem_cons_of_mem _ hu))
      (c.holds_keep _ _ _ _ hk (hws w' List.mem_cons_self) h)

/-- Different claims are all there when they are published. -/
theorem holds_applyAll (hdistinct : c.Distinct ws) (hw : w ∈ ws) (hk : c.claims w = some k) :
    c.Holds (σ.applyAll db ws) w := by
  induction ws generalizing db with
  | nil => cases hw
  | cons u ws ih =>
    obtain ⟨hfirst, hrest⟩ := List.pairwise_cons.1 hdistinct
    rcases List.mem_cons.1 hw with heq | hw
    · subst heq
      have hkept : c.Holds (σ.applyAll (σ.apply db w) ws) w :=
        c.holds_keepAll hk (fun w' hw' ↦ hfirst w' hw' k hk) (c.holds_apply _ _ _ hk)
      exact hkept
    · exact ih hrest hw

/-- A key that nobody locks is not claimed. -/
theorem not_taken_applyAll (h : ¬ c.Taken db k) (hlock : c.lock k ∉ σ.keysOf ws) :
    ¬ c.Taken (σ.applyAll db ws) k := fun htaken ↦
  h ((c.same_taken _ _ _ (σ.same_applyAll hlock db)).2 htaken)

variable [DecidableEq Key] {program : T → Prog S R X α}
  {allowed : State Db Write S R X T α → T → Prop} {observed : Db → Db → Prop}
  {s s' : State Db Write S R X T α}

/-- **The first writer wins.** -/
structure Claimed (s : State Db Write S R X T α) : Prop where
  /-- What a call is going to claim is free. -/
  free : ∀ i p vs w k, s.procs.lookup i = some p → p.pending = some vs → w ∈ vs →
    c.claims w = some k → ¬ c.Taken s.db k
  distinct : ∀ i p vs, s.procs.lookup i = some p → p.pending = some vs → c.Distinct vs
  /-- What was claimed is as it was claimed. -/
  holds : ∀ i p w k, s.procs.lookup i = some p → w ∈ p.durable → c.claims w = some k →
    c.Holds s.db w
  once : ∀ i j p q w w' k, s.procs.lookup i = some p → s.procs.lookup j = some q →
    w ∈ p.durable → w' ∈ q.durable → c.claims w = some k → c.claims w' = some k → i = j
  /-- What is claimed was claimed by a call. -/
  origin : ∀ k, c.Taken s.db k → ∃ i p w, s.procs.lookup i = some p ∧ w ∈ p.durable ∧
    c.claims w = some k

/-- No two calls hold one lock. -/
def Exclusive (σ : Store Db Write Key Err S R) (s : State Db Write S R X T α) : Prop :=
  ∀ i j key, i ≠ j → s.Holds σ i key → ¬ s.Holds σ j key

/-- A call after a step is the call that has made the step, or was there before. -/
private theorem lookup_cases {i j : ℕ} {p' q : Proc Write S R X T α}
    (h : (s.procs.insert i p').lookup j = some q) :
    (j = i ∧ q = p') ∨ (j ≠ i ∧ s.procs.lookup j = some q) := by
  rcases eq_or_ne j i with rfl | hne
  · rw [Finmap.lookup_insert, Option.some.injEq] at h
    exact .inl ⟨rfl, h.symm⟩
  · rw [Finmap.lookup_insert_of_ne _ hne] at h
    exact .inr ⟨hne, h⟩

omit [DecidableEq Key] in
/-- A call begins, or goes on without publishing anything. -/
private theorem Claimed.goOn (h : c.Claimed s) {i : ℕ} {p' : Proc Write S R X T α}
    (hdurable : p'.durable = (s.procs.lookup i).elim [] Proc.durable)
    (hfree : ∀ vs w k, p'.pending = some vs → w ∈ vs → c.claims w = some k → ¬ c.Taken s.db k)
    (hdistinct : ∀ vs, p'.pending = some vs → c.Distinct vs) :
    c.Claimed { s with procs := s.procs.insert i p' } := by
  -- what a call has published now it had published before
  have hbefore : ∀ j q w, (s.procs.insert i p').lookup j = some q → w ∈ q.durable →
      ∃ q', s.procs.lookup j = some q' ∧ w ∈ q'.durable := by
    intro j q w hq hw
    rcases lookup_cases hq with ⟨rfl, rfl⟩ | ⟨-, hq⟩
    · rw [hdurable] at hw
      rcases hp : s.procs.lookup j with - | p
      · rw [hp] at hw
        cases hw
      · rw [hp] at hw
        exact ⟨p, rfl, hw⟩
    · exact ⟨q, hq, hw⟩
  refine ⟨fun j q vs w k hq hvs hw hk ↦ ?_, fun j q vs hq hvs ↦ ?_, fun j q w k hq hw hk ↦ ?_,
    fun j j' q q' w w' k hq hq' hw hw' hk hk' ↦ ?_, fun k hk ↦ ?_⟩
  · rcases lookup_cases hq with ⟨rfl, rfl⟩ | ⟨-, hq⟩
    · exact hfree vs w k hvs hw hk
    · exact h.free j q vs w k hq hvs hw hk
  · rcases lookup_cases hq with ⟨rfl, rfl⟩ | ⟨-, hq⟩
    · exact hdistinct vs hvs
    · exact h.distinct j q vs hq hvs
  · obtain ⟨r, hr, hw⟩ := hbefore j q w hq hw
    exact h.holds j r w k hr hw hk
  · obtain ⟨r, hr, hw⟩ := hbefore j q w hq hw
    obtain ⟨r', hr', hw'⟩ := hbefore j' q' w' hq' hw'
    exact h.once j j' r r' w w' k hr hr' hw hw' hk hk'
  · obtain ⟨j, q, w, hq, hw, hwk⟩ := h.origin k hk
    rcases eq_or_ne j i with rfl | hne
    · exact ⟨j, p', w, Finmap.lookup_insert _, by rwa [hdurable, hq], hwk⟩
    · exact ⟨j, q, w, by rwa [Finmap.lookup_insert_of_ne _ hne], hw, hwk⟩

omit [DecidableEq Key] in
/-- A call publishes claims of free keys, on which nobody else has a lock. -/
private theorem Claimed.publish (h : c.Claimed s) {i : ℕ} {p p' : Proc Write S R X T α}
    (hp : s.procs.lookup i = some p) (hpending : p'.pending = none)
    (hdurable : p'.durable = p.durable ++ ws) (hdistinct : c.Distinct ws)
    (hfree : ∀ w ∈ ws, ∀ k, c.claims w = some k → ¬ c.Taken s.db k)
    (hlocks : ∀ j, j ≠ i → ∀ key, s.Holds σ j key → key ∉ σ.keysOf ws) :
    c.Claimed ⟨σ.applyAll s.db ws, s.procs.insert i p'⟩ := by
  -- a claim that was published before is of another key
  have hother : ∀ j q w w' k, s.procs.lookup j = some q → w ∈ q.durable → c.claims w = some k →
      w' ∈ ws → c.claims w' ≠ some k := fun j q w w' k hq hw hk hw' hk' ↦
    hfree w' hw' k hk' (c.taken_of_holds _ _ _ hk (h.holds j q w k hq hw hk))
  -- what a call has published now it had published before, or is what is published
  have hbefore : ∀ j q w, (s.procs.insert i p').lookup j = some q → w ∈ q.durable →
      (∃ q', s.procs.lookup j = some q' ∧ w ∈ q'.durable) ∨ (j = i ∧ w ∈ ws) := by
    intro j q w hq hw
    rcases lookup_cases hq with ⟨rfl, rfl⟩ | ⟨-, hq⟩
    · rw [hdurable, List.mem_append] at hw
      exact hw.imp (fun hw ↦ ⟨p, hp, hw⟩) fun hw ↦ ⟨rfl, hw⟩
    · exact .inl ⟨q, hq, hw⟩
  refine ⟨fun j q vs w k hq hvs hw hk ↦ ?_, fun j q vs hq hvs ↦ ?_, fun j q w k hq hw hk ↦ ?_,
    fun j j' q q' w w' k hq hq' hw hw' hk hk' ↦ ?_, fun k hk ↦ ?_⟩
  · rcases lookup_cases hq with ⟨rfl, rfl⟩ | ⟨hne, hq⟩
    · rw [hpending] at hvs
      cases hvs
    · refine c.not_taken_applyAll (h.free j q vs w k hq hvs hw hk) (hlocks j hne _ ⟨q, hq, ?_⟩)
      rw [hvs]
      exact List.mem_flatMap.2 ⟨w, hw, c.lock_mem w k hk⟩
  · rcases lookup_cases hq with ⟨rfl, rfl⟩ | ⟨-, hq⟩
    · rw [hpending] at hvs
      cases hvs
    · exact h.distinct j q vs hq hvs
  · rcases hbefore j q w hq hw with ⟨r, hr, hw⟩ | ⟨-, hw⟩
    · exact c.holds_keepAll hk (fun w' hw' ↦ hother j r w w' k hr hw hk hw')
        (h.holds j r w k hr hw hk)
    · exact c.holds_applyAll hdistinct hw hk
  · rcases hbefore j q w hq hw with ⟨r, hr, hw⟩ | ⟨rfl, hw⟩ <;>
      rcases hbefore j' q' w' hq' hw' with ⟨r', hr', hw'⟩ | ⟨rfl, hw'⟩
    · exact h.once j j' r r' w w' k hr hr' hw hw' hk hk'
    · exact absurd hk' (hother j r w w' k hr hw hk hw')
    · exact absurd hk (hother j' r' w' w k hr' hw' hk' hw)
    · rfl
  · rcases c.taken_applyAll_cases hk with hbefore | ⟨w, hw, hwk⟩
    · obtain ⟨j, q, w, hq, hw, hwk⟩ := h.origin k hbefore
      rcases eq_or_ne j i with rfl | hne
      · obtain rfl : p = q := Option.some.inj (hp.symm.trans hq)
        exact ⟨j, p', w, Finmap.lookup_insert _, hdurable ▸ List.mem_append_left _ hw, hwk⟩
      · exact ⟨j, q, w, by rwa [Finmap.lookup_insert_of_ne _ hne], hw, hwk⟩
    · exact ⟨i, p', w, Finmap.lookup_insert _, hdurable ▸ List.mem_append_right _ hw, hwk⟩

/-- **Every step keeps it.** -/
theorem Claimed.step (h : c.Claimed s) (hexclusive : Exclusive σ s) {m : Move T}
    (hm : s.step σ program m = some s') : c.Claimed s' := by
  rcases State.step_cases hm with ⟨i, t, rfl, hnew, rfl⟩ | ⟨i, p, db', p', rfl, hp, -, hadv, rfl⟩ |
    ⟨i, p, rfl, hp, -, rfl⟩
  · exact h.goOn c (by rw [hnew]; rfl) (fun vs w k hvs ↦ by cases hvs)
      fun vs hvs ↦ by cases hvs
  · have hlocks : ∀ ws : List Write, (∀ key ∈ σ.keysOf ws, s.Holds σ i key ∨
        s.lockedFor σ i key = false) →
        ∀ j, j ≠ i → ∀ key, s.Holds σ j key → key ∉ σ.keysOf ws := by
      intro ws hws j hne key hj hkey
      rcases hws key hkey with hi | hfree
      · exact hexclusive i j key hne.symm hi hj
      · have hlocked := (State.lockedFor_eq_true σ).2 ⟨j, hne, hj⟩
        rw [hfree] at hlocked
        cases hlocked
    rcases Proc.advance_cases hadv with
      ⟨st, k, r, ws, -, hx, hkeys, ⟨hpend, rfl, rfl⟩ | ⟨vs, hpend, rfl, rfl⟩⟩ |
      ⟨k, -, -, rfl, rfl⟩ | ⟨k, vs, -, hpend, rfl, rfl⟩ | ⟨k, vs, -, -, rfl, rfl⟩
    · rw [hpend] at hx
      obtain ⟨hfree, hdistinct⟩ := c.exec_free _ _ _ _ _ hx
      exact h.publish c hp hpend rfl hdistinct hfree (hlocks ws fun key hk ↦ .inr (hkeys key hk))
    · rw [hpend] at hx
      obtain ⟨hfree, hdistinct⟩ := c.exec_free _ _ _ _ _ hx
      have hold : ∀ w ∈ vs, ∀ k, c.claims w = some k → ¬ c.Taken s.db k :=
        fun w hw k hk ↦ h.free i p vs w k hp hpend hw hk
      -- the statement sees what the call has collected before
      have hview : ∀ w ∈ vs, ∀ k, c.claims w = some k → c.Taken (σ.applyAll s.db vs) k :=
        fun w hw k hk ↦ c.taken_of_holds _ _ _ hk
          (c.holds_applyAll (h.distinct i p vs hp hpend) hw hk)
      refine h.goOn c (by rw [hp]; rfl) ?_ ?_
      · rintro _ w k ⟨⟩ hw hk
        rcases List.mem_append.1 hw with hw | hw
        · exact hold w hw k hk
        · exact fun htaken ↦ hfree w hw k hk (c.taken_applyAll htaken vs)
      · rintro _ ⟨⟩
        refine List.pairwise_append.2 ⟨h.distinct i p vs hp hpend, hdistinct, ?_⟩
        exact fun w hw w' hw' k hk hk' ↦ hfree w' hw' k hk' (hview w hw k hk)
    · refine h.goOn c (by rw [hp]; rfl) ?_ ?_
      · rintro _ w k ⟨⟩ hw
        cases hw
      · rintro _ ⟨⟩
        exact List.Pairwise.nil
    · refine h.publish c hp rfl rfl (h.distinct i p vs hp hpend)
        (fun w hw k hk ↦ h.free i p vs w k hp hpend hw hk) (hlocks vs fun key hk ↦ .inl ⟨p, hp, ?_⟩)
      rw [hpend]
      exact hk
    · exact h.goOn c (by rw [hp]; rfl) (fun vs w k hvs ↦ by cases hvs)
        fun vs hvs ↦ by cases hvs
  · exact h.goOn c (by rw [hp]; rfl) (fun vs w k hvs ↦ by cases hvs)
      fun vs hvs ↦ by cases hvs

/-- **In every run the first writer wins**, if locks are exclusive in it. -/
theorem claimed_of_reaches {s₀ : State Db Write S R X T α} (hempty : s₀.procs = ∅)
    (hnone : ∀ k, ¬ c.Taken s₀.db k)
    (hexclusive : ∀ s, Reaches σ program allowed observed s₀ s → Exclusive σ s)
    (h : Reaches σ program allowed observed s₀ s) : c.Claimed s := by
  induction h with
  | refl =>
    have hnobody : ∀ i p, s₀.procs.lookup i ≠ some p := fun i p hp ↦ by simp [hempty] at hp
    exact ⟨fun i p _ _ _ hp ↦ absurd hp (hnobody i p), fun i p _ hp ↦ absurd hp (hnobody i p),
      fun i p _ _ hp ↦ absurd hp (hnobody i p), fun i _ p _ _ _ _ hp ↦ absurd hp (hnobody i p),
      fun k hk ↦ absurd hk (hnone k)⟩
  | tail hrun hstep ih =>
    obtain ⟨m, -, hm, -⟩ := hstep
    exact ih.step c (hexclusive _ hrun) hm

end Claiming

end Transactional
