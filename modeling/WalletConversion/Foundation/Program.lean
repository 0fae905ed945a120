import Mathlib.Data.Finmap
import Mathlib.Data.Finset.Basic
import Mathlib.Logic.Relation

/-!
# Transactional programs over a shared store

A store is read and written by *statements*. A program issues statements one at a time, may
open a transaction around some of them, and may raise an exception. Many programs run
interleaved against one store, statement by statement, under the `READ COMMITTED` discipline:

* a statement sees the committed store with the writes of its own open transaction on top;
* inside a transaction the writes stay private until `commit` publishes them in one step;
* every write locks its keys until its transaction ends, and a statement that needs a key locked
  by another transaction cannot run;
* outside a transaction a statement publishes its writes at once.

## What is fixed and what is arbitrary

Nothing here says what a statement *is*: `Store` supplies their meaning (`exec`), what a write does
(`apply`), which keys it locks (`keys`), and what it means for a key to be left alone (`same`). The
scheduler is arbitrary — a run is any sequence of `Move`s — and every choice a program makes is a
parameter of its task, so that `State.step` is a function and small runs can be checked by
evaluation.

## Failure

`Move.fail` cuts a program off at any point and drops its open transaction. It stands for a
statement that the store refuses, for a lost connection and for the crash of the process alike: all
three lose exactly the writes that were not committed. A call cut off after its last statement has
done its work, but nobody gets its result.
-/

namespace Transactional

/-! ### Programs -/

/-- A program over statements `S` with results `R`, raising exceptions of type `X`. -/
inductive Prog (S : Type) (R : S → Type) (X α : Type) where
  /-- The program returned. -/
  | ret (a : α)
  /-- The program threw. -/
  | raise (x : X)
  /-- Issue a statement and continue with its result. -/
  | call (s : S) (k : R s → Prog S R X α)
  /-- Open a transaction. -/
  | begin (k : Prog S R X α)
  /-- Publish the open transaction. -/
  | commit (k : Prog S R X α)
  /-- Drop the open transaction. -/
  | rollback (k : Prog S R X α)

namespace Prog

variable {S : Type} {R : S → Type} {X α β γ : Type}

/-- Continue a program after either of its exits. -/
def handle (p : Prog S R X α) (onRet : α → Prog S R X β) (onRaise : X → Prog S R X β) :
    Prog S R X β :=
  match p with
  | ret a => onRet a
  | raise x => onRaise x
  | call s k => call s fun r ↦ (k r).handle onRet onRaise
  | begin k => begin (k.handle onRet onRaise)
  | commit k => commit (k.handle onRet onRaise)
  | rollback k => rollback (k.handle onRet onRaise)

instance : Monad (Prog S R X) where
  pure := ret
  bind p f := p.handle f raise

/-- A single statement. -/
def stmt (s : S) : Prog S R X (R s) := call s ret

/-- A pure computation that may throw. -/
def ofExcept : Except X α → Prog S R X α
  | .ok a => ret a
  | .error x => raise x

/-- `try p catch h`. -/
def tryCatch (p : Prog S R X α) (h : X → Prog S R X α) : Prog S R X α :=
  p.handle ret h

/-- Run a body in a transaction: commit when it returns, roll back and rethrow when it throws. -/
def transaction (body : Prog S R X α) : Prog S R X α :=
  begin (body.handle (fun a ↦ commit (ret a)) fun x ↦ rollback (raise x))

/-- The statement the program is about to issue. -/
def next : Prog S R X α → Option S
  | call s _ => some s
  | _ => none

/-- A program that waits for a statement is a call of it. -/
theorem next_eq_some {p : Prog S R X α} {s : S} : p.next = some s ↔ ∃ k, p = call s k := by
  constructor
  · intro h
    cases p with
    | call s' k =>
      cases h
      exact ⟨k, rfl⟩
    | ret | raise | begin | commit | rollback => cases h
  · rintro ⟨k, rfl⟩
    rfl

/-- Binding handles the value and raises what was raised. -/
theorem bind_eq_handle (p : Prog S R X α) (f : α → Prog S R X β) :
    p >>= f = p.handle f raise := rfl

theorem pure_eq_ret (a : α) : (pure a : Prog S R X α) = ret a := rfl

@[simp] theorem handle_ret (a : α) (f : α → Prog S R X β) (g : X → Prog S R X β) :
    (ret a).handle f g = f a := rfl

@[simp] theorem handle_raise (x : X) (f : α → Prog S R X β) (g : X → Prog S R X β) :
    (raise x).handle f g = g x := rfl

@[simp] theorem handle_call (s : S) (k : R s → Prog S R X α) (f : α → Prog S R X β)
    (g : X → Prog S R X β) :
    (call s k).handle f g = call s fun r ↦ (k r).handle f g := rfl

@[simp] theorem handle_stmt (s : S) (f : R s → Prog S R X β) (g : X → Prog S R X β) :
    (stmt s).handle f g = call s f := rfl

@[simp] theorem ofExcept_ok (a : α) : (ofExcept (.ok a) : Prog S R X α) = ret a := rfl

@[simp] theorem ofExcept_error (x : X) : (ofExcept (.error x) : Prog S R X α) = raise x := rfl

/-- Handling composes: the continuation of a handled program handles the rest. -/
theorem handle_handle (p : Prog S R X α) (f : α → Prog S R X β) (g : X → Prog S R X β)
    (f' : β → Prog S R X γ) (g' : X → Prog S R X γ) :
    (p.handle f g).handle f' g' = p.handle (fun a ↦ (f a).handle f' g')
      fun x ↦ (g x).handle f' g' := by
  induction p with
  | ret a => rfl
  | raise x => rfl
  | call s k ih => simp only [handle, ih]
  | begin k ih => simp only [handle, ih]
  | commit k ih => simp only [handle, ih]
  | rollback k ih => simp only [handle, ih]

/-- Handlers that change nothing. -/
theorem handle_ret_raise (p : Prog S R X α) : p.handle ret raise = p := by
  induction p with
  | ret a => rfl
  | raise x => rfl
  | call s k ih => simp only [handle, ih]
  | begin k ih => simp only [handle, ih]
  | commit k ih => simp only [handle, ih]
  | rollback k ih => simp only [handle, ih]

end Prog

/-! ### Stores -/

/-- The meaning of a statement language over a store `Db`. -/
structure Store (Db Write Key Err S : Type) (R : S → Type) where
  /-- Run a statement on the store it sees. The first argument tells which keys are locked by other
  transactions, for statements that skip locked rows. -/
  exec : (s : S) → (Key → Bool) → Db → Except Err (R s × List Write)
  /-- The effect of one write. -/
  apply : Db → Write → Db
  /-- The keys a write locks until its transaction ends. -/
  keys : Write → List Key
  /-- What a lock on the key protects: everything the key stands for is as it was. -/
  same : Key → Db → Db → Prop
  same_refl : ∀ k a, same k a a
  same_trans : ∀ k a b c, same k a b → same k b c → same k a c
  /-- A write leaves alone whatever it does not lock. -/
  same_apply : ∀ k a w, k ∉ keys w → same k a (apply a w)

namespace Store

variable {Db Write Key Err S : Type} {R : S → Type} (σ : Store Db Write Key Err S R)

/-- Apply writes in order. -/
def applyAll (db : Db) (ws : List Write) : Db := ws.foldl σ.apply db

/-- What a statement sees: the committed store under the writes of the open transaction. -/
def view (db : Db) : Option (List Write) → Db
  | none => db
  | some ws => σ.applyAll db ws

/-- The keys locked by a list of writes. -/
def keysOf (ws : List Write) : List Key := ws.flatMap σ.keys

/-- The keys an open transaction holds. -/
def held : Option (List Write) → List Key
  | none => []
  | some ws => σ.keysOf ws

@[simp] theorem applyAll_nil (db : Db) : σ.applyAll db [] = db := rfl

@[simp] theorem applyAll_cons (db : Db) (w : Write) (ws : List Write) :
    σ.applyAll db (w :: ws) = σ.applyAll (σ.apply db w) ws := rfl

/-- Writes are applied one after the other. -/
theorem applyAll_append (db : Db) (ws vs : List Write) :
    σ.applyAll db (ws ++ vs) = σ.applyAll (σ.applyAll db ws) vs := by
  simp only [applyAll, List.foldl_append]

@[simp] theorem view_none (db : Db) : σ.view db none = db := rfl

@[simp] theorem view_some (db : Db) (ws : List Write) :
    σ.view db (some ws) = σ.applyAll db ws := rfl

@[simp] theorem held_none : σ.held none = [] := rfl

@[simp] theorem held_some (ws : List Write) : σ.held (some ws) = σ.keysOf ws := rfl

@[simp] theorem keysOf_nil : σ.keysOf [] = [] := rfl

@[simp] theorem keysOf_cons (w : Write) (ws : List Write) :
    σ.keysOf (w :: ws) = σ.keys w ++ σ.keysOf ws := rfl

/-- Writes lock what each of them locks. -/
theorem keysOf_append (ws vs : List Write) :
    σ.keysOf (ws ++ vs) = σ.keysOf ws ++ σ.keysOf vs := by
  simp only [keysOf, List.flatMap_append]

/-- Writes leave alone every key that none of them locks. -/
theorem same_applyAll {key : Key} {ws : List Write} (h : key ∉ σ.keysOf ws) (db : Db) :
    σ.same key db (σ.applyAll db ws) := by
  induction ws generalizing db with
  | nil => exact σ.same_refl _ _
  | cons w ws ih =>
    rw [keysOf_cons, List.mem_append, not_or] at h
    exact σ.same_trans _ _ _ _ (σ.same_apply _ _ _ h.1) (ih h.2 _)

end Store

/-! ### One program alone -/

/-- How an undisturbed call ended. -/
inductive Ending (Err X α : Type) where
  | returned (a : α)
  | threw (x : X)
  /-- The store refused a statement. -/
  | refused (e : Err)
  deriving DecidableEq

namespace Prog

variable {Db Write Key Err S : Type} {R : S → Type} {X α β : Type}
  (σ : Store Db Write Key Err S R)

/-- Run a program with nobody else around, from the committed store `db` and the open transaction
`o`, to its ending and the committed store it leaves. A refused statement drops the open
transaction. -/
def solo (p : Prog S R X α) (o : Option (List Write)) (db : Db) : Ending Err X α × Db :=
  match p with
  | ret a => (.returned a, db)
  | raise x => (.threw x, db)
  | call s k =>
    match σ.exec s (fun _ ↦ false) (σ.view db o) with
    | .error e => (.refused e, db)
    | .ok (r, ws) =>
      match o with
      | none => (k r).solo none (σ.applyAll db ws)
      | some vs => (k r).solo (some (vs ++ ws)) db
  | begin k => k.solo (some []) db
  | commit k => k.solo none (σ.view db o)
  | rollback k => k.solo none db

@[simp] theorem solo_ret (a : α) (o : Option (List Write)) (db : Db) :
    (ret a : Prog S R X α).solo σ o db = (.returned a, db) := rfl

@[simp] theorem solo_raise (x : X) (o : Option (List Write)) (db : Db) :
    (raise x : Prog S R X α).solo σ o db = (.threw x, db) := rfl

@[simp] theorem solo_begin (k : Prog S R X α) (o : Option (List Write)) (db : Db) :
    (begin k).solo σ o db = k.solo σ (some []) db := rfl

@[simp] theorem solo_commit (k : Prog S R X α) (o : Option (List Write)) (db : Db) :
    (commit k).solo σ o db = k.solo σ none (σ.view db o) := rfl

@[simp] theorem solo_rollback (k : Prog S R X α) (o : Option (List Write)) (db : Db) :
    (rollback k).solo σ o db = k.solo σ none db := rfl

variable {σ}

/-- Alone and outside a transaction, a statement takes effect at once. -/
theorem solo_call_none {s : S} {k : R s → Prog S R X α} {db : Db} {r : R s} {ws : List Write}
    (h : σ.exec s (fun _ ↦ false) db = .ok (r, ws)) :
    (call s k).solo σ none db = (k r).solo σ none (σ.applyAll db ws) := by
  rw [solo, Store.view_none, h]

/-- Alone and inside a transaction, the writes of a statement wait for the commit. -/
theorem solo_call_some {s : S} {k : R s → Prog S R X α} {db : Db} {r : R s}
    {vs ws : List Write}
    (h : σ.exec s (fun _ ↦ false) (σ.applyAll db vs) = .ok (r, ws)) :
    (call s k).solo σ (some vs) db = (k r).solo σ (some (vs ++ ws)) db := by
  rw [solo, Store.view_some, h]

/-- Alone, a statement that is refused ends the program, and the tables stay as they were
committed. -/
theorem solo_call_error {s : S} {k : R s → Prog S R X α} {o : Option (List Write)} {db : Db}
    {e : Err} (h : σ.exec s (fun _ ↦ false) (σ.view db o) = .error e) :
    (call s k).solo σ o db = (.refused e, db) := by
  rw [solo, h]

end Prog

/-! ### Many programs interleaved -/

/-- A started call: the task it serves, what is left of its program, the writes of its open
transaction, and the writes it has published so far. -/
structure Proc (Write S : Type) (R : S → Type) (X T α : Type) where
  task : T
  rest : Prog S R X α
  pending : Option (List Write)
  durable : List Write
  /-- Cleared when the call is cut off. -/
  live : Bool

/-- The committed store and every call ever started. -/
structure State (Db Write S : Type) (R : S → Type) (X T α : Type) where
  db : Db
  procs : Finmap fun _ : ℕ ↦ Proc Write S R X T α

/-- What the scheduler may do: start a call, let a call take its next step, or cut it off. -/
inductive Move (T : Type) where
  | spawn (pid : ℕ) (task : T)
  | run (pid : ℕ)
  | fail (pid : ℕ)

/-- The task a move starts. -/
def Move.spawned {T : Type} : Move T → Option T
  | spawn _ t => some t
  | _ => none

section Interleaving

variable {Db Write Key Err S : Type} {R : S → Type} {X T α : Type}
  (σ : Store Db Write Key Err S R)

namespace Proc

/-- A call that has just started. -/
def start (program : T → Prog S R X α) (t : T) : Proc Write S R X T α where
  task := t
  rest := program t
  pending := none
  durable := []
  live := true

/-- One step of a call against the committed store, if it is not blocked. -/
def advance (locked : Key → Bool) (db : Db) (p : Proc Write S R X T α) :
    Option (Db × Proc Write S R X T α) :=
  match p.rest, p.pending with
  | .call s k, o =>
    match σ.exec s locked (σ.view db o) with
    | .error _ => none
    | .ok (r, ws) =>
      if (σ.keysOf ws).all fun key ↦ !locked key then
        match o with
        | none => some (σ.applyAll db ws, { p with rest := k r, durable := p.durable ++ ws })
        | some vs => some (db, { p with rest := k r, pending := some (vs ++ ws) })
      else none
  | .begin k, none => some (db, { p with rest := k, pending := some [] })
  | .commit k, some vs =>
    some (σ.applyAll db vs,
      { p with rest := k, pending := none, durable := p.durable ++ vs })
  | .rollback k, some _ => some (db, { p with rest := k, pending := none })
  | _, _ => none

variable {σ} {locked : Key → Bool} {db : Db} {p : Proc Write S R X T α}

/-- A statement outside a transaction is durable at once. -/
theorem advance_call_none {s : S} {k : R s → Prog S R X α} {r : R s} {ws : List Write}
    (hrest : p.rest = .call s k) (hpending : p.pending = none)
    (hx : σ.exec s locked db = .ok (r, ws)) (hfree : ∀ key ∈ σ.keysOf ws, locked key = false) :
    p.advance σ locked db =
      some (σ.applyAll db ws, { p with rest := k r, durable := p.durable ++ ws }) := by
  have hall : ((σ.keysOf ws).all fun key ↦ !locked key) = true :=
    List.all_eq_true.2 fun key hk ↦ by rw [hfree key hk]; rfl
  unfold advance
  simp [hrest, hpending, hx, hall]

/-- A statement inside a transaction adds its writes to what is pending. -/
theorem advance_call_some {s : S} {k : R s → Prog S R X α} {r : R s} {vs ws : List Write}
    (hrest : p.rest = .call s k) (hpending : p.pending = some vs)
    (hx : σ.exec s locked (σ.applyAll db vs) = .ok (r, ws))
    (hfree : ∀ key ∈ σ.keysOf ws, locked key = false) :
    p.advance σ locked db = some (db, { p with rest := k r, pending := some (vs ++ ws) }) := by
  have hall : ((σ.keysOf ws).all fun key ↦ !locked key) = true :=
    List.all_eq_true.2 fun key hk ↦ by rw [hfree key hk]; rfl
  unfold advance
  simp [hrest, hpending, hx, hall]

/-- A transaction begins with nothing pending. -/
theorem advance_begin {k : Prog S R X α} (hrest : p.rest = .begin k) (hpending : p.pending = none) :
    p.advance σ locked db = some (db, { p with rest := k, pending := some [] }) := by
  unfold advance
  simp [hrest, hpending]

/-- A commit makes the pending writes durable. -/
theorem advance_commit {k : Prog S R X α} {vs : List Write} (hrest : p.rest = .commit k)
    (hpending : p.pending = some vs) :
    p.advance σ locked db =
      some (σ.applyAll db vs,
        { p with rest := k, pending := none, durable := p.durable ++ vs }) := by
  unfold advance
  simp [hrest, hpending]

/-- A rollback drops the pending writes. -/
theorem advance_rollback {k : Prog S R X α} {vs : List Write} (hrest : p.rest = .rollback k)
    (hpending : p.pending = some vs) :
    p.advance σ locked db = some (db, { p with rest := k, pending := none }) := by
  unfold advance
  simp [hrest, hpending]

end Proc

namespace State

/-- Call `pid` of the state holds the lock on the key. -/
def Holds (s : State Db Write S R X T α) (pid : ℕ) (key : Key) : Prop :=
  ∃ p, s.procs.lookup pid = some p ∧ key ∈ σ.held p.pending

/-- Whether a key is locked by a call other than `pid`. -/
def lockedFor [DecidableEq Key] (s : State Db Write S R X T α) (pid : ℕ) (key : Key) : Bool :=
  decide (∃ j ∈ s.procs.keys, j ≠ pid ∧
    ((s.procs.lookup j).elim false fun p ↦ decide (key ∈ σ.held p.pending)) = true)

/-- What is locked for a process is what another one holds. -/
theorem lockedFor_eq_true [DecidableEq Key] {s : State Db Write S R X T α} {pid : ℕ} {key : Key} :
    s.lockedFor σ pid key = true ↔ ∃ j, j ≠ pid ∧ s.Holds σ j key := by
  simp only [lockedFor, decide_eq_true_eq, Holds]
  constructor
  · rintro ⟨j, -, hne, hj⟩
    rcases hl : s.procs.lookup j with - | p
    · simp [hl] at hj
    · exact ⟨j, hne, p, hl ▸ rfl, by simpa [hl] using hj⟩
  · rintro ⟨j, hne, p, hl, hk⟩
    exact ⟨j, Finmap.mem_keys.2 (Finmap.mem_of_lookup_eq_some hl), hne, by simpa [hl] using hk⟩

/-- The effect of a move, if it is possible. -/
def step [DecidableEq Key] (program : T → Prog S R X α) (s : State Db Write S R X T α) :
    Move T → Option (State Db Write S R X T α)
  | .spawn pid t =>
    match s.procs.lookup pid with
    | some _ => none
    | none => some { s with procs := s.procs.insert pid (Proc.start program t) }
  | .run pid =>
    match s.procs.lookup pid with
    | none => none
    | some p =>
      if p.live then
        (p.advance σ (s.lockedFor σ pid) s.db).map fun q ↦
          ⟨q.1, s.procs.insert pid q.2⟩
      else none
  | .fail pid =>
    match s.procs.lookup pid with
    | none => none
    | some p =>
      if p.live then
        some { s with procs := s.procs.insert pid { p with live := false, pending := none } }
      else none

/-- Follow a schedule. -/
def steps [DecidableEq Key] (program : T → Prog S R X α) (s : State Db Write S R X T α) :
    List (Move T) → Option (State Db Write S R X T α)
  | [] => some s
  | m :: ms => (s.step σ program m).bind fun s' ↦ steps program s' ms

end State

end Interleaving

end Transactional
