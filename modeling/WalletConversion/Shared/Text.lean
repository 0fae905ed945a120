import Mathlib.Algebra.GroupWithZero.Nat
import Mathlib.Data.List.DropRight
import Mathlib.Tactic.Basic

/-!
# Text, errors and identifiers

Strings as the application handles them. Identifiers are trimmed and never blank; `Identifier`
carries both facts, so a stored identifier is read back as itself (`Identifier.of_value`).

A mutating method of an aggregate is a `Mutation`: it runs on a state, and when it throws the
assignments made before the throw stay.
-/

namespace WalletConversion

/-! ### Errors -/

/-- The error classes the application distinguishes. -/
inductive ErrorClass where
  | Error
  | InsufficientAvailableBalanceError
  | WalletInvariantViolationError
  | WalletNotFoundError
  | QuoteExpiredError
  | QuoteAlreadyAcceptedError
  | InvalidQuoteError
  | UnsupportedAssetPairError
  | InvalidQuoteRequestError
  | InvalidConversionTransitionError
  | ConflictingExecutionResultError
  deriving DecidableEq

/-- A thrown error: its class and its message. -/
structure JsError where
  name : ErrorClass
  message : String
  deriving DecidableEq

/-- A plain `Error`. -/
def JsError.error (message : String) : JsError := ⟨.Error, message⟩

/-- Inversion of a computation that did not throw. -/
theorem except_bind_eq_ok {ε α β : Type} {x : Except ε α} {f : α → Except ε β} {b : β} :
    (x >>= f) = .ok b ↔ ∃ a, x = .ok a ∧ f a = .ok b := by
  cases x with
  | error e => simp [bind, Except.bind]
  | ok a => simp [bind, Except.bind]

/-- A computation that does not throw, by evaluation. -/
theorem exists_ok_of_any {ε α : Type} {x : Except ε α} {P : α → Prop} [DecidablePred P]
    (h : x.toOption.any (fun a ↦ decide (P a)) = true) : ∃ a, x = .ok a ∧ P a := by
  cases x with
  | error e => cases h
  | ok a => exact ⟨a, rfl, of_decide_eq_true h⟩

/-- A method that assigns to the fields of `σ` and may throw in between. -/
def Mutation (σ α : Type) := σ → Except JsError α × σ

namespace Mutation

variable {σ α β : Type}

instance : Monad (Mutation σ) where
  pure a := fun s ↦ (.ok a, s)
  bind m f := fun s ↦
    match m s with
    | (.ok a, s') => f a s'
    | (.error e, s') => (.error e, s')

/-- Assign to fields. -/
def assign (f : σ → σ) : Mutation σ Unit := fun s ↦ (.ok (), f s)

/-- Compute from the current fields, perhaps throwing. -/
def compute (f : σ → Except JsError α) : Mutation σ α := fun s ↦ (f s, s)

/-- Throw when a condition on the current fields holds. -/
def throwIf (p : σ → Prop) [DecidablePred p] (e : σ → JsError) : Mutation σ Unit :=
  compute fun s ↦ if p s then .error (e s) else .ok ()

theorem bind_apply (m : Mutation σ α) (f : α → Mutation σ β) (s : σ) :
    (m >>= f) s = match m s with
      | (.ok a, s') => f a s'
      | (.error e, s') => (.error e, s') := rfl

@[simp] theorem assign_apply (f : σ → σ) (s : σ) : assign f s = (.ok (), f s) := rfl

@[simp] theorem compute_apply (f : σ → Except JsError α) (s : σ) : compute f s = (f s, s) := rfl

@[simp] theorem throwIf_apply (p : σ → Prop) [DecidablePred p] (e : σ → JsError) (s : σ) :
    throwIf p e s = (if p s then .error (e s) else .ok (), s) := rfl

/-- A guard at the start of a method. -/
theorem throwIf_bind (p : σ → Prop) [DecidablePred p] (e : σ → JsError) (f : Unit → Mutation σ β)
    (s : σ) : (throwIf p e >>= f) s = if p s then (.error (e s), s) else f () s := by
  rw [bind_apply, throwIf_apply]
  split_ifs <;> rfl

theorem assign_bind (f : σ → σ) (g : Unit → Mutation σ β) (s : σ) :
    (assign f >>= g) s = g () (f s) := rfl

/-- Call a mutating method on an aggregate that the caller gives up when the method throws. -/
def call (m : Mutation σ Unit) (s : σ) : Except JsError σ :=
  match m s with
  | (.ok _, s') => .ok s'
  | (.error e, _) => .error e

end Mutation

/-! ### Trimming -/

/-- The white space and line terminators that `String.prototype.trim` removes. -/
def isWhiteSpace (c : Char) : Bool :=
  let n := c.toNat
  (9 ≤ n && n ≤ 13) || n == 0x20 || n == 0xA0 || n == 0x1680 || (0x2000 ≤ n && n ≤ 0x200A) ||
    n == 0x2028 || n == 0x2029 || n == 0x202F || n == 0x205F || n == 0x3000 || n == 0xFEFF

/-- `value.trim()`. -/
def trim (value : String) : String :=
  String.ofList ((value.toList.dropWhile isWhiteSpace).rdropWhile isWhiteSpace)

/-- Trimming twice is trimming once. -/
theorem rdropWhile_dropWhile_fixed {α : Type} (p : α → Bool) (l : List α) :
    (((l.dropWhile p).rdropWhile p).dropWhile p).rdropWhile p = (l.dropWhile p).rdropWhile p := by
  have hhead : ((l.dropWhile p).rdropWhile p).dropWhile p = (l.dropWhile p).rdropWhile p := by
    rw [List.dropWhile_eq_self_iff]
    intro hlen
    have hpre := List.rdropWhile_prefix p (l := l.dropWhile p)
    have hne : l.dropWhile p ≠ [] := fun hnil ↦ by
      rw [hnil, List.rdropWhile_nil] at hlen
      exact absurd hlen (by simp)
    have hget := hpre.getElem hlen
    rw [hget]
    exact List.dropWhile_get_zero_not p l (List.length_pos_of_ne_nil hne)
  rw [hhead, List.rdropWhile_idempotent]

/-- **Trimming twice is trimming once.** -/
@[simp] theorem trim_trim (value : String) : trim (trim value) = trim value := by
  simp only [trim, String.toList_ofList]
  rw [rdropWhile_dropWhile_fixed]

theorem mem_dropWhile_of_not {α : Type} {p : α → Bool} {l : List α} {a : α} (ha : a ∈ l)
    (hp : p a = false) : a ∈ l.dropWhile p := by
  rw [← List.takeWhile_append_dropWhile (p := p) (l := l), List.mem_append] at ha
  rcases ha with h | h
  · rw [List.mem_takeWhile_imp h] at hp
    cases hp
  · exact h

/-- Trimming removes white space and nothing else. -/
theorem mem_trim {value : String} {c : Char} (hc : c ∈ value.toList)
    (hwhite : isWhiteSpace c = false) : c ∈ (trim value).toList := by
  rw [trim, String.toList_ofList, List.rdropWhile, List.mem_reverse]
  exact mem_dropWhile_of_not (List.mem_reverse.2 (mem_dropWhile_of_not hc hwhite)) hwhite

/-- Trimming adds no character. -/
theorem mem_of_mem_trim {value : String} {c : Char} (hc : c ∈ (trim value).toList) :
    c ∈ value.toList := by
  rw [trim, String.toList_ofList] at hc
  exact (List.dropWhile_sublist _).mem ((List.rdropWhile_prefix _ _).mem hc)

/-- PostgreSQL has no text with the character `NUL`. -/
def storable (text : String) : Bool := text.toList.all (· ≠ '\x00')

/-- `NUL` is no white space. -/
@[simp] theorem storable_trim (value : String) : storable (trim value) = storable value := by
  rw [Bool.eq_iff_iff, storable, storable, List.all_eq_true, List.all_eq_true]
  refine ⟨fun h c hc ↦ ?_, fun h c hc ↦ h c (mem_of_mem_trim hc)⟩
  by_cases hnul : c = '\x00'
  · exact h c (mem_trim hc (by rw [hnul]; rfl))
  · exact decide_eq_true hnul

/-- `value.length`: the number of UTF-16 code units. -/
def utf16Length (value : String) : ℕ :=
  (value.toList.map fun c ↦ if c.toNat < 0x10000 then 1 else 2).sum

/-! ### Identifiers -/

/-- A trimmed string that is not blank. -/
@[ext] structure Identifier where
  value : String
  trimmed : trim value = value
  nonempty : value ≠ ""
  deriving DecidableEq

/-- The factory shared by the identifier classes: trim, and refuse what is blank. -/
def Identifier.of (name value : String) : Except JsError Identifier :=
  if h : trim value = "" then
    .error (.error s!"{name} must not be empty")
  else
    .ok ⟨trim value, trim_trim value, h⟩

/-- **A stored identifier is read back as itself.** -/
@[simp] theorem Identifier.of_value (name : String) (i : Identifier) :
    Identifier.of name i.value = .ok i := by
  simp [Identifier.of, i.trimmed, i.nonempty]

/-- An identifier is its trimmed text. -/
theorem Identifier.of_eq_ok {name value : String} {i : Identifier}
    (h : Identifier.of name value = .ok i) : i.value = trim value := by
  unfold Identifier.of at h
  split at h
  · cases h
  · cases h
    rfl

/-- Identifies a user. -/
abbrev UserId := Identifier

/-- The id of a quote. -/
abbrev QuoteId := Identifier

/-- The id of a conversion. -/
abbrev ConversionId := Identifier

/-- `UserId.of(text)`: any text that is not blank, without the blanks around it. -/
def UserId.of : String → Except JsError UserId := Identifier.of "UserId"

/-- `QuoteId.of(text)`. It does not ask for a UUID; the route does. -/
def QuoteId.of : String → Except JsError QuoteId := Identifier.of "QuoteId"

/-- `ConversionId.of(text)`. -/
def ConversionId.of : String → Except JsError ConversionId := Identifier.of "ConversionId"

@[simp] theorem UserId.of_value (i : UserId) : UserId.of i.value = .ok i := Identifier.of_value _ i

@[simp] theorem QuoteId.of_value (i : QuoteId) : QuoteId.of i.value = .ok i :=
  Identifier.of_value _ i

@[simp] theorem ConversionId.of_value (i : ConversionId) : ConversionId.of i.value = .ok i :=
  Identifier.of_value _ i

end WalletConversion
