import WalletConversion.Application.Reference
import WalletConversion.Ledger.Calls
import WalletConversion.Ledger.Writes

/-!
# The constraints of the database are never hit

The rules of the tables are written twice: as transitions of the aggregates and as constraints of
the database. `constraints_respected` says that the two agree wherever the application writes: in
every state of every run, the statement a call is about to issue meets no constraint, and every row
it writes passes its checks. Only a number that does not fit its column, or a text with a `NUL` in
the request for a quote, can be refused.
-/

namespace WalletConversion

open Transactional

namespace Ledger

/-- **No statement meets a constraint.** Whatever a call is about to issue, the database refuses it
only for a number out of range or a text that it does not store, and the rows it writes pass their
checks. -/
theorem constraints_respected {env : Platform} {wallets : Table (String × String) WalletRow}
    {s : System} (hwallets : InitialWallets wallets)
    (hrun : System.Reaches env (System.initial wallets) s) {pid : ℕ}
    {p : Proc Write Stmt Stmt.Result Thrown Task TaskResult} (hp : s.procs.lookup pid = some p)
    (hlive : p.live = true) {st : Stmt} (hnext : p.rest.next = some st) (locked : LockKey → Bool) :
    (∀ e, exec st locked (postgres.view s.db p.pending) = .error e →
      (e = .numericOverflow ∧ OutOfRange p.task s.db) ∨ (e = .invalidText ∧ HoldsNul p.task)) ∧
    ∀ r ws, exec st locked (postgres.view s.db p.pending) = .ok (r, ws) →
      ∀ w ∈ ws, w.violated = none := by
  have hsound : Sound env wallets (fun _ _ ↦ True) s := sound_of_reaches hwallets hrun
  obtain ⟨k, hrest⟩ := Prog.next_eq_some.1 hnext
  have hdemand : Disciplined p.task p.pending s.db st := hsound.demand hp hlive hrest
  exact ⟨hdemand.accepted locked, fun r ws hexec w hw ↦ (exec_writes hexec w hw).2⟩

/-- An accept about to insert its conversion in status `CREATED`: it is not refused. -/
theorem constraints_respected_sample : ∃ (s : System)
    (p : Proc Write Stmt Stmt.Result Thrown Task TaskResult) (data : ConversionData),
    s.procs.lookup 2 = some p ∧ p.rest.next = some (.upsertConversion data) ∧
    data.status = .CREATED ∧ ∀ e, exec (.upsertConversion data) (fun _ ↦ false)
      (postgres.view s.db p.pending) ≠ .error e := by
  have hrun : ∃ s, System.Reaches .reference (System.initial sampleWallets) s ∧
      ∃ p ∈ s.procs.lookup 2, p.live = true ∧ ∃ st ∈ p.rest.next,
        (match p.task, st with
          | .acceptQuote _ _, .upsertConversion data => decide (data.status = .CREATED)
          | _, _ => false) = true :=
    System.exists_of_play
      (callFor 1 sampleQuote 1 ++ callFor 2 sampleAccept 4) _ (by decide +kernel)
  obtain ⟨s, hreaches, p, hp, hlive, st, hst, hcreated⟩ := hrun
  cases htask : p.task with
  | acceptQuote command inputs =>
    cases st with
    | upsertConversion data =>
      rw [htask] at hcreated
      refine ⟨s, p, data, hp, hst, of_decide_eq_true hcreated, fun e he ↦ ?_⟩
      have hrefused := (constraints_respected (by decide +kernel) hreaches hp hlive hst _).1 e he
      rw [htask] at hrefused
      rcases hrefused with ⟨-, hrange⟩ | ⟨-, hnul⟩
      · exact hrange
      · exact hnul
    | _ =>
      rw [htask] at hcreated
      cases hcreated
  | _ =>
    rw [htask] at hcreated
    cases hcreated

end Ledger

end WalletConversion
