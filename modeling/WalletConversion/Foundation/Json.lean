import Mathlib.Data.List.Basic
import Mathlib.Data.List.TakeWhile

/-!
# JSON texts

Values as `JSON.stringify` writes them and as `JSON.parse` reads them. A number is kept as it is
written, and an object keeps its members in order, repetitions included; `Json.field` looks a member
up as the parser of the language leaves it, where the last one wins.

`parse` takes fuel for the nesting of the text, and every level of it consumes a character. The text
of a value is read back as the value (`parse_stringify`), so no two values have one text.

A string is a list of characters here. The escape of a surrogate that stands alone denotes none, so
a text with such an escape is refused.
-/

namespace WalletConversion

/-! ### Numbers -/

namespace Json

/-- Drop the digits in front, of which there is one at least. -/
def dropDigits : List Char → Option (List Char)
  | [] => none
  | c :: cs => if c.isDigit then some (cs.dropWhile Char.isDigit) else none

/-- The end of a number: its exponent, if there is one. -/
def isExponent : List Char → Bool
  | [] => true
  | c :: cs =>
    (c = 'e' ∨ c = 'E') ∧
      dropDigits (match cs with
        | [] => []
        | d :: ds => if d = '+' ∨ d = '-' then ds else d :: ds) = some []

/-- What follows the integer part of a number. -/
def isFraction : List Char → Bool
  | '.' :: cs => (dropDigits cs).any isExponent
  | cs => isExponent cs

/-- A number without its sign. There is no zero in front of another digit. -/
def isUnsigned : List Char → Bool
  | '0' :: cs => isFraction cs
  | cs => (dropDigits cs).any isFraction

/-- The characters are the text of a number. -/
def isNumber : List Char → Bool
  | '-' :: cs => isUnsigned cs
  | cs => isUnsigned cs

/-- The characters that numbers are written with. -/
def inNumber (c : Char) : Bool := c.isDigit ∨ c ∈ ['-', '+', '.', 'e', 'E']

/-- A number as it is written. -/
structure Number where
  text : List Char
  valid : isNumber text = true
  written : text.all inNumber = true

end Json

/-! ### Values -/

/-- A JSON value. -/
inductive Json where
  | null
  | bool (value : Bool)
  | num (value : Json.Number)
  | str (text : List Char)
  | arr (elements : List Json)
  | obj (members : List (List Char × Json))

namespace Json

/-- The member of an object with the name. -/
def field (name : String) : Json → Option Json
  | obj members => (members.reverse.find? fun m ↦ m.1 = name.toList).map Prod.snd
  | _ => none

/-! ### Strings -/

/-- A hexadecimal digit. -/
def hexDigit (n : ℕ) : Char := if n < 10 then .ofNat (48 + n) else .ofNat (87 + n)

/-- The characters with an escape of one letter. -/
def letterOf (c : Char) : Option Char :=
  if c = '\x22' then some '\x22'
  else if c = '\\' then some '\\'
  else if c = '\x08' then some 'b'
  else if c = '\t' then some 't'
  else if c = '\n' then some 'n'
  else if c = '\x0c' then some 'f'
  else if c = '\r' then some 'r'
  else none

/-- How a character is written in a string. -/
def escape (c : Char) : List Char :=
  match letterOf c with
  | some letter => ['\\', letter]
  | none =>
    if c.toNat < 32 then ['\\', 'u', '0', '0', hexDigit (c.toNat / 16), hexDigit (c.toNat % 16)]
    else [c]

/-- A string as it is written. -/
def quote (text : List Char) : List Char := '\x22' :: text.flatMap escape ++ ['\x22']

/-- The value of a hexadecimal digit. -/
def hexValue (c : Char) : Option ℕ :=
  if c.isDigit then some (c.toNat - 48)
  else if 'a' ≤ c ∧ c ≤ 'f' then some (c.toNat - 87)
  else if 'A' ≤ c ∧ c ≤ 'F' then some (c.toNat - 55)
  else none

/-- The code unit that four hexadecimal digits stand for. -/
def codeUnit (a b c d : Char) : Option ℕ := do
  return (((← hexValue a) * 16 + (← hexValue b)) * 16 + (← hexValue c)) * 16 + (← hexValue d)

/-- The character with the code point. -/
def charOf (n : ℕ) : Option Char := if n.isValidChar then some (.ofNat n) else none

/-- What an escape of one letter stands for. -/
def unescape (letter : Char) : Option Char :=
  if letter = '\x22' ∨ letter = '\\' ∨ letter = '/' then some letter
  else if letter = 'b' then some '\x08'
  else if letter = 't' then some '\t'
  else if letter = 'n' then some '\n'
  else if letter = 'f' then some '\x0c'
  else if letter = 'r' then some '\r'
  else none

/-- A character of a string, or a code unit that it is a part of. -/
abbrev Piece := Char ⊕ ℕ

/-- The rest of a string, after the quotation mark that opens it. -/
def pieces : List Char → Option (List Piece × List Char)
  | [] => none
  | '\x22' :: rest => some ([], rest)
  | '\\' :: 'u' :: a :: b :: c :: d :: rest => do
    let unit ← codeUnit a b c d
    let (text, rest) ← pieces rest
    return (.inr unit :: text, rest)
  | '\\' :: c :: rest => do
    let char ← unescape c
    let (text, rest) ← pieces rest
    return (.inl char :: text, rest)
  | c :: rest =>
    if c.toNat < 32 ∨ c = '\\' then none
    else do
      let (text, rest) ← pieces rest
      return (.inl c :: text, rest)

/-- Put code units together: two that make a surrogate pair are one character. -/
def assemble : List Piece → Option (List Char)
  | [] => some []
  | .inl c :: rest => do return c :: (← assemble rest)
  | .inr high :: .inr low :: rest =>
    if 0xD800 ≤ high ∧ high < 0xDC00 ∧ 0xDC00 ≤ low ∧ low < 0xE000 then do
      return (← charOf (0x10000 + (high - 0xD800) * 0x400 + (low - 0xDC00))) :: (← assemble rest)
    else do return (← charOf high) :: (← assemble (.inr low :: rest))
  | .inr unit :: rest => do return (← charOf unit) :: (← assemble rest)

/-- A string, after the quotation mark that opens it. -/
def string (cs : List Char) : Option (List Char × List Char) := do
  let (text, rest) ← pieces cs
  return (← assemble text, rest)

/-! ### Writing -/

mutual

/-- The text of a value. -/
def render : Json → List Char
  | null => ['n', 'u', 'l', 'l']
  | bool true => ['t', 'r', 'u', 'e']
  | bool false => ['f', 'a', 'l', 's', 'e']
  | num value => value.text
  | str text => quote text
  | arr [] => ['[', ']']
  | arr (e :: es) => '[' :: render e ++ renderElements es
  | obj [] => ['{', '}']
  | obj ((name, v) :: ms) => '{' :: quote name ++ ':' :: render v ++ renderMembers ms

/-- The text of an array after one of its elements. -/
def renderElements : List Json → List Char
  | [] => [']']
  | e :: es => ',' :: render e ++ renderElements es

/-- The text of an object after one of its members. -/
def renderMembers : List (List Char × Json) → List Char
  | [] => ['}']
  | (name, v) :: ms => ',' :: quote name ++ ':' :: render v ++ renderMembers ms

end

/-- `JSON.stringify(value)`. -/
def stringify (value : Json) : String := String.ofList value.render

/-! ### Reading -/

/-- White space between the tokens. -/
def isSpace (c : Char) : Bool := c = ' ' ∨ c = '\t' ∨ c = '\n' ∨ c = '\r'

/-- The text after its leading blanks. -/
def skip (cs : List Char) : List Char := cs.dropWhile isSpace

/-- A number in front of a text. -/
def number (cs : List Char) : Option (Json × List Char) :=
  if h : isNumber (cs.takeWhile inNumber) = true then
    some (num ⟨cs.takeWhile inNumber, h, List.all_takeWhile⟩, cs.dropWhile inNumber)
  else none

/-- The name of a member and the colon after it. -/
def name (cs : List Char) : Option (List Char × List Char) :=
  match skip cs with
  | '\x22' :: rest => do
    let (text, rest) ← string rest
    match skip rest with
    | ':' :: rest => return (text, rest)
    | _ => none
  | _ => none

mutual

/-- A value in front of a text. -/
def value : ℕ → List Char → Option (Json × List Char)
  | 0, _ => none
  | n + 1, cs =>
    match skip cs with
    | 'n' :: 'u' :: 'l' :: 'l' :: rest => some (null, rest)
    | 't' :: 'r' :: 'u' :: 'e' :: rest => some (bool true, rest)
    | 'f' :: 'a' :: 'l' :: 's' :: 'e' :: rest => some (bool false, rest)
    | '\x22' :: rest => do
      let (text, rest) ← string rest
      return (str text, rest)
    | '[' :: rest =>
      match skip rest with
      | ']' :: rest => some (arr [], rest)
      | rest => do
        let (e, rest) ← value n rest
        let (es, rest) ← elements n rest
        return (arr (e :: es), rest)
    | '{' :: rest =>
      match skip rest with
      | '}' :: rest => some (obj [], rest)
      | rest => do
        let (text, rest) ← name rest
        let (v, rest) ← value n rest
        let (ms, rest) ← members n rest
        return (obj ((text, v) :: ms), rest)
    | rest => number rest

/-- An array after one of its elements. -/
def elements : ℕ → List Char → Option (List Json × List Char)
  | 0, _ => none
  | n + 1, cs =>
    match skip cs with
    | ']' :: rest => some ([], rest)
    | ',' :: rest => do
      let (e, rest) ← value n rest
      let (es, rest) ← elements n rest
      return (e :: es, rest)
    | _ => none

/-- An object after one of its members. -/
def members : ℕ → List Char → Option (List (List Char × Json) × List Char)
  | 0, _ => none
  | n + 1, cs =>
    match skip cs with
    | '}' :: rest => some ([], rest)
    | ',' :: rest => do
      let (text, rest) ← name rest
      let (v, rest) ← value n rest
      let (ms, rest) ← members n rest
      return ((text, v) :: ms, rest)
    | _ => none

end

/-- `JSON.parse(text)`, or nothing if it throws. -/
def parse (text : String) : Option Json := do
  let (v, rest) ← value (text.toList.length + 1) text.toList
  if skip rest = [] then return v else none

/-! ### Strings are read back -/

variable {c letter : Char} {cs rest : List Char} {n : ℕ}

theorem hexValue_hexDigit : ∀ n < 16, hexValue (hexDigit n) = some n := by decide

theorem charOf_toNat (c : Char) : charOf c.toNat = some c := by
  have hvalid : c.toNat.isValidChar := c.valid
  rw [charOf, if_pos hvalid, Char.ofNat_toNat]

theorem unescape_of_letterOf (h : letterOf c = some letter) :
    unescape letter = some c ∧ letter ≠ 'u' := by
  unfold letterOf at h
  split_ifs at h with h₁ h₂ h₃ h₄ h₅ h₆ h₇ <;> cases h <;> simp_all [unescape]

theorem codeUnit_hexDigit (h : n < 32) :
    codeUnit '0' '0' (hexDigit (n / 16)) (hexDigit (n % 16)) = some n := by
  have hzero : hexValue '0' = some 0 := by decide
  rw [codeUnit, hzero, hexValue_hexDigit _ (by omega),
    hexValue_hexDigit _ (Nat.mod_lt _ (by decide))]
  simp only [Option.bind_eq_bind, Option.bind_some, Option.pure_def]
  congr 1
  omega

/-- The piece that an escaped character is read as. -/
def pieceOf (c : Char) : Piece := if letterOf c = none ∧ c.toNat < 32 then .inr c.toNat else .inl c

/-- **An escaped character is read back.** -/
theorem pieces_escape (c : Char) (cs : List Char) :
    pieces (escape c ++ cs) = (pieces cs).map fun r ↦ (pieceOf c :: r.1, r.2) := by
  rcases hletter : letterOf c with - | letter
  · by_cases hc : c.toNat < 32
    · have hpiece : pieceOf c = .inr c.toNat := if_pos ⟨hletter, hc⟩
      rw [hpiece, escape, hletter]
      simp only [hc, if_true, List.cons_append, List.nil_append, pieces, codeUnit_hexDigit hc]
      cases pieces cs <;> rfl
    · have hpiece : pieceOf c = .inl c := if_neg fun h ↦ hc h.2
      have hquote : c ≠ '\x22' := by
        rintro rfl
        cases hletter
      have hslash : c ≠ '\\' := by
        rintro rfl
        cases hletter
      rw [hpiece, escape, hletter]
      simp only [hc, if_false, List.cons_append, List.nil_append]
      rw [pieces.eq_5 _ _ (by simpa using hquote) (by simp [hslash]) (by simp [hslash])]
      simp only [hc, hslash, or_self, if_false]
      cases pieces cs <;> rfl
  · obtain ⟨hunescape, hne⟩ := unescape_of_letterOf hletter
    have hpiece : pieceOf c = .inl c := if_neg fun h ↦ by simp [hletter] at h
    rw [hpiece, escape, hletter]
    simp only [List.cons_append, List.nil_append]
    rw [pieces.eq_4 _ _ (by simp [hne]), hunescape]
    cases pieces cs <;> rfl

theorem assemble_pieceOf (c : Char) (ps : List Piece) :
    assemble (pieceOf c :: ps) = (assemble ps).map (c :: ·) := by
  unfold pieceOf
  split_ifs with h
  · -- a control character is no half of a surrogate pair
    have hhigh : ¬ 0xD800 ≤ c.toNat := by omega
    rcases ps with - | ⟨d | low, ps⟩
    · simp [assemble, charOf_toNat]
    · simp only [assemble, charOf_toNat]
      cases assemble ps <;> rfl
    · simp only [assemble, charOf_toNat, hhigh, false_and, if_false]
      cases assemble (.inr low :: ps) <;> rfl
  · simp only [assemble]
    cases assemble ps <;> rfl

theorem string_quote (text rest : List Char) :
    string (text.flatMap escape ++ '\x22' :: rest) = some (text, rest) := by
  have hpieces : pieces (text.flatMap escape ++ '\x22' :: rest) =
      some (text.map pieceOf, rest) := by
    induction text with
    | nil => rfl
    | cons c text ih => rw [List.flatMap_cons, List.append_assoc, pieces_escape, ih]; rfl
  have htext : assemble (text.map pieceOf) = some text := by
    clear hpieces
    induction text with
    | nil => rfl
    | cons c text ih => rw [List.map_cons, assemble_pieceOf, ih]; rfl
  simp [string, hpieces, htext]

/-! ### Values are read back -/

/-- A number does not go on in the text. -/
def Stops (cs : List Char) : Prop := ∀ c ∈ cs.head?, inNumber c = false

theorem stops_cons (h : inNumber c = false) : Stops (c :: cs) := by
  rintro _ ⟨⟩
  exact h

theorem skip_cons (h : isSpace c = false) : skip (c :: cs) = c :: cs := by
  rw [skip, List.dropWhile_cons, h]
  rfl

/-- A number starts with one of its characters. -/
theorem Number.exists_cons (x : Number) : ∃ c cs, x.text = c :: cs ∧ inNumber c = true := by
  obtain ⟨text, hvalid, hwritten⟩ := x
  cases text with
  | nil => cases hvalid
  | cons c cs => exact ⟨c, cs, rfl, (List.all_eq_true.1 hwritten) c List.mem_cons_self⟩

theorem not_isSpace_of_inNumber (h : inNumber c = true) : isSpace c = false := by
  by_contra hspace
  rcases of_decide_eq_true (Bool.not_eq_false _ ▸ hspace) with rfl | rfl | rfl | rfl <;>
    revert h <;> decide

theorem number_append (x : Number) (h : Stops rest) :
    number (x.text ++ rest) = some (num x, rest) := by
  have hall : ∀ c ∈ x.text, inNumber c = true := List.all_eq_true.1 x.written
  have htake : rest.takeWhile inNumber = [] := by
    cases rest with
    | nil => rfl
    | cons c cs => rw [List.takeWhile_cons, h c rfl]; rfl
  have hdrop : rest.dropWhile inNumber = rest := by
    have happend := List.takeWhile_append_dropWhile (p := inNumber) (l := rest)
    rwa [htake, List.nil_append] at happend
  have htext : (x.text ++ rest).takeWhile inNumber = x.text := by
    rw [List.takeWhile_append_of_pos hall, htake, List.append_nil]
  have hrest : (x.text ++ rest).dropWhile inNumber = rest := by
    rw [List.dropWhile_append_of_pos hall, hdrop]
  simp only [number, htext, hrest, x.valid, dif_pos]

/-- The first character of a value. -/
theorem render_head (v : Json) : ∃ c cs, v.render = c :: cs ∧ isSpace c = false ∧ c ≠ ']' := by
  cases v with
  | null => exact ⟨_, _, rfl, rfl, by decide⟩
  | bool b => cases b <;> exact ⟨_, _, rfl, rfl, by decide⟩
  | num x =>
    obtain ⟨c, cs, htext, hc⟩ := x.exists_cons
    refine ⟨c, cs, by rw [render, htext], not_isSpace_of_inNumber hc, ?_⟩
    rintro rfl
    cases hc
  | str text => exact ⟨_, _, by rw [render, quote]; rfl, rfl, by decide⟩
  | arr es => cases es <;> exact ⟨_, _, rfl, rfl, by decide⟩
  | obj ms => cases ms <;> exact ⟨_, _, rfl, rfl, by decide⟩

theorem quote_append (text cs : List Char) :
    quote text ++ cs = '\x22' :: (text.flatMap escape ++ '\x22' :: cs) := by
  simp only [quote, List.cons_append, List.append_assoc, List.nil_append]

theorem name_quote (text rest : List Char) :
    name (quote text ++ ':' :: rest) = some (text, rest) := by
  have hstring := string_quote text (':' :: rest)
  rw [quote_append, name, skip_cons rfl]
  simp only [hstring]
  rfl

theorem stops_renderElements (es : List Json) (rest : List Char) :
    Stops (renderElements es ++ rest) := by
  cases es <;> exact stops_cons (by decide)

theorem stops_renderMembers (ms : List (List Char × Json)) (rest : List Char) :
    Stops (renderMembers ms ++ rest) := by
  cases ms <;> exact stops_cons (by decide)

/-- A number is no other token. -/
theorem value_of_inNumber (h : inNumber c = true) : value (n + 1) (c :: cs) = number (c :: cs) := by
  rw [value, skip_cons (not_isSpace_of_inNumber h)]
  split <;> first
    | rfl
    | (rename_i heq; cases heq; cases h)

/-- **The text of a value is read as the value**, whatever follows it; likewise the texts of the
rest of an array and of an object. -/
theorem value_render (n : ℕ) :
    (∀ v rest, (render v).length ≤ n → Stops rest → value n (render v ++ rest) = some (v, rest)) ∧
    (∀ es rest, (renderElements es).length ≤ n →
      elements n (renderElements es ++ rest) = some (es, rest)) ∧
    ∀ ms rest, (renderMembers ms).length ≤ n →
      members n (renderMembers ms ++ rest) = some (ms, rest) := by
  -- the fuel bounds the length of what is left to read
  induction n with
  | zero =>
    refine ⟨fun v rest hlength ↦ ?_, fun es rest hlength ↦ ?_, fun ms rest hlength ↦ ?_⟩
    · obtain ⟨c, cs, hv, -⟩ := render_head v
      simp [hv] at hlength
    · cases es <;> simp [renderElements] at hlength
    · rcases ms with - | ⟨⟨name, v⟩, ms⟩ <;> simp [renderMembers] at hlength
  | succ n ih =>
    obtain ⟨ihvalue, ihelements, ihmembers⟩ := ih
    refine ⟨fun v rest hlength hstops ↦ ?_, fun es rest hlength ↦ ?_, fun ms rest hlength ↦ ?_⟩
    · cases v with
      | null => rfl
      | bool b => cases b <;> rfl
      | num x =>
        obtain ⟨c, cs, htext, hc⟩ := x.exists_cons
        rw [render, htext, List.cons_append, value_of_inNumber hc, ← List.cons_append, ← htext,
          number_append x hstops]
      | str text =>
        have hstring := string_quote text rest
        rw [render, quote_append, value, skip_cons rfl]
        simp only [hstring]
        rfl
      | arr es =>
        cases es with
        | nil => rfl
        | cons e es =>
          simp only [render, List.length_cons, List.length_append] at hlength
          obtain ⟨c, cs, he, hspace, hc⟩ := render_head e
          have hhead := ihvalue e (renderElements es ++ rest) (by omega)
            (stops_renderElements es rest)
          have htail := ihelements es rest (by omega)
          simp only [render, List.cons_append, List.append_assoc]
          rw [value, skip_cons rfl]
          simp only [he, List.cons_append] at hhead ⊢
          rw [skip_cons hspace]
          split
          · rename_i heq
            cases heq
            exact absurd rfl hc
          · simp only [hhead, Option.bind_eq_bind, Option.bind_some, htail]
            rfl
      | obj ms =>
        rcases ms with - | ⟨⟨text, v⟩, ms⟩
        · rfl
        · simp only [render, List.length_cons, List.length_append] at hlength
          have hname := name_quote text (render v ++ (renderMembers ms ++ rest))
          have hhead := ihvalue v (renderMembers ms ++ rest) (by omega)
            (stops_renderMembers ms rest)
          have htail := ihmembers ms rest (by omega)
          simp only [render, List.cons_append, List.append_assoc]
          rw [quote_append] at hname ⊢
          rw [value, skip_cons rfl]
          simp only
          rw [skip_cons rfl]
          split
          · rename_i heq
            cases heq
          · simp only [hname, Option.bind_eq_bind, Option.bind_some, hhead, htail]
            rfl
    · cases es with
      | nil => rfl
      | cons e es =>
        simp only [renderElements, List.length_cons, List.length_append] at hlength
        have hhead := ihvalue e (renderElements es ++ rest) (by omega)
          (stops_renderElements es rest)
        have htail := ihelements es rest (by omega)
        simp only [renderElements, List.cons_append, List.append_assoc]
        rw [elements, skip_cons rfl]
        simp only [hhead, Option.bind_eq_bind, Option.bind_some, htail]
        rfl
    · rcases ms with - | ⟨⟨text, v⟩, ms⟩
      · rfl
      · simp only [renderMembers, List.length_cons, List.length_append] at hlength
        have hname := name_quote text (render v ++ (renderMembers ms ++ rest))
        have hhead := ihvalue v (renderMembers ms ++ rest) (by omega)
          (stops_renderMembers ms rest)
        have htail := ihmembers ms rest (by omega)
        simp only [renderMembers, List.cons_append, List.append_assoc]
        rw [members, skip_cons rfl]
        simp only [hname, Option.bind_eq_bind, Option.bind_some, hhead, htail]
        rfl

/-- **What was written is read back.** -/
theorem parse_stringify (v : Json) : parse (stringify v) = some v := by
  have hlength : (render v).length ≤ (render v).length + 1 := Nat.le_succ _
  have hread := (value_render _).1 v [] hlength (by rintro _ ⟨⟩)
  rw [List.append_nil] at hread
  rw [parse, stringify, String.toList_ofList, hread]
  rfl

end Json

end WalletConversion
