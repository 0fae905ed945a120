import Mathlib.Data.List.Basic
import Mathlib.Data.List.Infix

/-!
# Patterns

Regular expressions as programs write them: character classes with a bounded repetition, lookahead,
and the anchor for the end of the text. `rests` lists what a pattern may leave of a text that it
matches from the start, in the order in which it is tried; for lookahead and anchors a language of
words would not do.

`mem_rests_chars` and its neighbours say when a rest is in that list, one lemma for each
constructor.
-/

namespace WalletConversion

/-- A regular expression. -/
inductive Pattern where
  | empty
  /-- `$`, the end of the text. -/
  | ending
  /-- `[class]{least,most}`; without an upper bound, `[class]{least,}`. -/
  | chars (class' : Char → Bool) (least : ℕ) (most : Option ℕ)
  | seq (a b : Pattern)
  | alt (a b : Pattern)
  /-- `(?=a)`, which consumes nothing. -/
  | ahead (a : Pattern)

namespace Pattern

variable {a b : Pattern} {cs rest : List Char}

/-- A single character. -/
def char (c : Char) : Pattern := chars (· = c) 1 (some 1)

/-- One character of a class. -/
def one (class' : Char → Bool) : Pattern := chars class' 1 (some 1)

/-- What the pattern may leave of a text. -/
def rests : Pattern → List Char → List (List Char)
  | empty, cs => [cs]
  | ending, cs => if cs = [] then [[]] else []
  | chars class' least most, cs =>
    ((List.range (cs.length + 1)).filter fun n ↦
      least ≤ n ∧ (∀ k ∈ most, n ≤ k) ∧ (cs.take n).all class').map cs.drop
  | seq a b, cs => (a.rests cs).flatMap b.rests
  | alt a b, cs => a.rests cs ++ b.rests cs
  | ahead a, cs => if a.rests cs = [] then [] else [cs]

/-- `/^a/.test(text)`. -/
def test (a : Pattern) (text : String) : Bool := a.rests text.toList ≠ []

/-- `/a/.test(text)`: the pattern may match anywhere. -/
def search (a : Pattern) (text : String) : Bool := text.toList.tails.any fun cs ↦ a.rests cs ≠ []

@[simp] theorem mem_rests_empty : rest ∈ empty.rests cs ↔ rest = cs := by
  simp [rests]

@[simp] theorem mem_rests_ending : rest ∈ ending.rests cs ↔ cs = [] ∧ rest = [] := by
  rw [rests]
  split_ifs with h <;> simp [h]

theorem mem_rests_chars {class' : Char → Bool} {least : ℕ} {most : Option ℕ} :
    rest ∈ (chars class' least most).rests cs ↔ ∃ run, cs = run ++ rest ∧
      (∀ c ∈ run, class' c = true) ∧ least ≤ run.length ∧ ∀ k ∈ most, run.length ≤ k := by
  simp only [rests, List.mem_map, List.mem_filter, List.mem_range,
    decide_eq_true_eq, List.all_eq_true]
  constructor
  · rintro ⟨n, ⟨hn, hleast, hmost, hall⟩, rfl⟩
    have hlength : (cs.take n).length = n := by
      rw [List.length_take]
      omega
    exact ⟨cs.take n, (List.take_append_drop n cs).symm, hall, by rwa [hlength], by rwa [hlength]⟩
  · rintro ⟨run, rfl, hall, hleast, hmost⟩
    refine ⟨run.length, ⟨?_, hleast, hmost, ?_⟩, List.drop_left⟩
    · rw [List.length_append]
      omega
    · rwa [List.take_left]

@[simp] theorem mem_rests_one {class' : Char → Bool} :
    rest ∈ (one class').rests cs ↔ ∃ c, cs = c :: rest ∧ class' c = true := by
  rw [one, mem_rests_chars]
  constructor
  · rintro ⟨run, rfl, hall, hleast, hmost⟩
    obtain ⟨c, rfl⟩ := List.length_eq_one_iff.1 (le_antisymm (hmost 1 rfl) hleast)
    exact ⟨c, rfl, hall c (by simp)⟩
  · rintro ⟨c, rfl, hc⟩
    exact ⟨[c], rfl, by simpa using hc, le_rfl, by simp⟩

@[simp] theorem mem_rests_char {c : Char} : rest ∈ (char c).rests cs ↔ cs = c :: rest := by
  have hone : char c = one (· = c) := rfl
  rw [hone, mem_rests_one]
  simp

@[simp] theorem mem_rests_seq :
    rest ∈ (seq a b).rests cs ↔ ∃ middle ∈ a.rests cs, rest ∈ b.rests middle := by
  rw [rests, List.mem_flatMap]

@[simp] theorem mem_rests_alt :
    rest ∈ (alt a b).rests cs ↔ rest ∈ a.rests cs ∨ rest ∈ b.rests cs := by
  rw [rests, List.mem_append]

@[simp] theorem mem_rests_ahead :
    rest ∈ (ahead a).rests cs ↔ rest = cs ∧ ∃ rest', rest' ∈ a.rests cs := by
  rw [rests]
  split_ifs with h
  · simp [h]
  · simp [List.exists_mem_of_ne_nil _ h]

theorem test_iff {text : String} : a.test text = true ↔ ∃ rest, rest ∈ a.rests text.toList := by
  rw [test, decide_eq_true_eq]
  exact ⟨List.exists_mem_of_ne_nil _, fun ⟨_, h⟩ ↦ List.ne_nil_of_mem h⟩

/-- Somewhere in the text a character of the class is found. -/
theorem search_one_iff {class' : Char → Bool} {text : String} :
    (one class').search text = true ↔ ∃ c ∈ text.toList, class' c = true := by
  simp only [search, List.any_eq_true, decide_eq_true_eq, List.mem_tails]
  constructor
  · rintro ⟨cs, ⟨before, hcs⟩, hne⟩
    obtain ⟨rest, hrest⟩ := List.exists_mem_of_ne_nil _ hne
    obtain ⟨c, rfl, hc⟩ := mem_rests_one.1 hrest
    exact ⟨c, by simp [← hcs], hc⟩
  · rintro ⟨c, hmem, hc⟩
    obtain ⟨before, rest, htext⟩ := List.append_of_mem hmem
    exact ⟨c :: rest, ⟨before, htext.symm⟩, List.ne_nil_of_mem (mem_rests_one.2 ⟨c, rfl, hc⟩)⟩

end Pattern

end WalletConversion
