import TensorGraph.Proofs.Decimal.Layout
import TensorGraph.Shader.Kernel

/-!
# TensorGraph.Proofs.Shader.Literals

The unsigned literals in the text of code.

* `Text.literals`: the values of the words of a text that are digits with the suffix `u`.
* `literals_closing`, `literals_opening`: a text can be taken apart where no word goes on.
* `Index.literals_add` and the other lemmas of this form: the literals of code are those of its
  parts.
-/

namespace TensorGraph

namespace Text

/-- A character that goes on with a word: a name, a keyword or a number. -/
def isWordChar (c : Char) : Bool := c.isAlphanum || c == '_'

/-- The value of a word that is an unsigned literal: digits and the suffix `u`. -/
def unsigned? (word : List Char) : Option Nat :=
  let digits := word.takeWhile Char.isDigit
  if digits ≠ [] ∧ word.dropWhile Char.isDigit = ['u'] then some (Nat.ofDigitChars 10 digits 0)
  else none

def literalsIn (text : List Char) : List Nat :=
  (text.splitOnP fun c => !isWordChar c).filterMap unsigned?

/-- The values of the unsigned literals of a text, in their order. -/
def literals (text : String) : List Nat := literalsIn text.toList

/-- No word goes on over the start of the text. -/
def Opens (text : String) : Prop := text.toList.head?.map isWordChar = some false

/-- No word goes on over the end of the text. -/
def Closes (text : String) : Prop := text.toList.getLast?.map isWordChar = some false

instance (text : String) : Decidable (Opens text) :=
  inferInstanceAs (Decidable (text.toList.head?.map isWordChar = some false))

instance (text : String) : Decidable (Closes text) :=
  inferInstanceAs (Decidable (text.toList.getLast?.map isWordChar = some false))

variable {s t sep : String}

theorem literalsIn_append_cons (a b : List Char) {c : Char} (ends : isWordChar c = false) :
    literalsIn (a ++ c :: b) = literalsIn a ++ literalsIn b := by
  rw [literalsIn, List.splitOnP_append_cons a b (by simp [ends]), List.filterMap_append]
  rfl

theorem literalsIn_nil : literalsIn [] = [] := rfl

theorem literalsIn_blanks (n : Nat) (text : List Char) :
    literalsIn (List.replicate n ' ' ++ text) = literalsIn text := by
  induction n with
  | zero => rfl
  | succ n ih => exact (literalsIn_append_cons [] _ (by decide)).trans ih

theorem literals_opening (h : Opens t) : literals (s ++ t) = literals s ++ literals t := by
  obtain ⟨c, hc, ends⟩ := Option.map_eq_some_iff.1 h
  obtain ⟨rest, text⟩ := List.head?_eq_some_iff.1 hc
  rw [literals, String.toList_append, text, literalsIn_append_cons _ _ ends]
  rw [literals, literals, text, ← List.nil_append (c :: rest), literalsIn_append_cons _ _ ends]
  rfl

theorem literals_closing (h : Closes s) : literals (s ++ t) = literals s ++ literals t := by
  obtain ⟨c, hc, ends⟩ := Option.map_eq_some_iff.1 h
  obtain ⟨front, text⟩ := List.getLast?_eq_some_iff.1 hc
  have alone := literalsIn_append_cons front [] ends
  rw [literals, literals, literals, String.toList_append, text, alone, List.append_assoc,
    List.singleton_append, literalsIn_append_cons _ _ ends, literalsIn_nil, List.append_nil]

theorem literals_append_nil (apart : Closes s ∨ Opens t) (front : literals s = [])
    (rest : literals t = []) : literals (s ++ t) = [] := by
  rcases apart with closes | opens
  · rw [literals_closing closes, front, rest, List.append_nil]
  · rw [literals_opening opens, front, rest, List.append_nil]

theorem closes_append (h : Closes t) : Closes (s ++ t) := by
  obtain ⟨c, hc, ends⟩ := Option.map_eq_some_iff.1 h
  obtain ⟨front, text⟩ := List.getLast?_eq_some_iff.1 hc
  exact Option.map_eq_some_iff.2 ⟨c, by simp [text], ends⟩

theorem mem_of_mem_splitOnP {p : Char → Bool} {text word : List Char} {c : Char}
    (hw : word ∈ text.splitOnP p) (hc : c ∈ word) : c ∈ text := by
  induction text generalizing word with
  | nil =>
    rw [List.splitOnP_nil, List.mem_singleton] at hw
    exact hw ▸ hc
  | cons d text ih =>
    rw [List.splitOnP_cons_eq_if_modifyHead] at hw
    split at hw
    · rcases List.mem_cons.1 hw with rfl | hw
      · cases hc
      · exact List.mem_cons_of_mem d (ih hw hc)
    · obtain ⟨first, others, words⟩ := List.exists_cons_of_ne_nil (List.splitOnP_ne_nil p text)
      rw [words, List.modifyHead_cons] at hw
      rw [words] at ih
      rcases List.mem_cons.1 hw with rfl | hw
      · rcases List.mem_cons.1 hc with rfl | hc
        · exact List.mem_cons_self
        · exact List.mem_cons_of_mem d (ih List.mem_cons_self hc)
      · exact List.mem_cons_of_mem d (ih (List.mem_cons_of_mem first hw) hc)

theorem mem_of_unsigned? {word : List Char} {n : Nat} (h : unsigned? word = some n) :
    'u' ∈ word := by
  simp only [unsigned?, Option.ite_none_right_eq_some] at h
  refine (List.dropWhile_suffix Char.isDigit).subset ?_
  rw [h.1.2]
  exact List.mem_singleton_self _

/-- A text without the letter of the suffix. -/
theorem literals_of_not_mem (h : 'u' ∉ s.toList) : literals s = [] := by
  rw [literals, literalsIn, List.filterMap_eq_nil_iff]
  intro word hw
  cases found : unsigned? word with
  | none => rfl
  | some n => exact absurd (mem_of_mem_splitOnP hw (mem_of_unsigned? found)) h

theorem literals_word (word : s.toList.all isWordChar) :
    literals s = (unsigned? s.toList).toList := by
  have inside (c : Char) (hc : c ∈ s.toList) : (!isWordChar c) = false := by
    rw [List.all_eq_true.1 word c hc, Bool.not_true]
  rw [literals, literalsIn, List.splitOnP_eq_singleton inside]
  cases h : unsigned? s.toList <;> simp [h]

theorem isWordChar_of_isDigit {c : Char} (h : c.isDigit) : isWordChar c := by
  simp [isWordChar, Char.isAlphanum, h]

/-- A name does not start with a digit. -/
theorem literals_name (word : s.toList.all isWordChar)
    (letter : s.toList.head?.map Char.isDigit = some false) : literals s = [] := by
  obtain ⟨c, first, letter⟩ := Option.map_eq_some_iff.1 letter
  obtain ⟨rest, text⟩ := List.head?_eq_some_iff.1 first
  rw [literals_word word, text]
  simp [unsigned?, letter]

/-- The text of a number with the suffix. -/
theorem literals_suffixed (n : Nat) : literals (n.repr ++ "u") = [n] := by
  have digits : ∀ c ∈ Nat.toDigits 10 n, c.isDigit := DecimalText.isDigit_of_mem_toDigits
  have text : (n.repr ++ "u").toList = Nat.toDigits 10 n ++ ['u'] := by simp
  have value : unsigned? (Nat.toDigits 10 n ++ ['u']) = some n := by
    rw [unsigned?, List.takeWhile_append_of_pos digits, List.dropWhile_append_of_pos digits]
    simp [Nat.toDigits_ne_nil, Nat.ofDigitChars_ten_toDigits]
  rw [literals_word, text, value]
  · rfl
  · rw [text, List.all_append, Bool.and_eq_true]
    exact ⟨List.all_eq_true.2 fun c hc => isWordChar_of_isDigit (digits c hc), by decide⟩

/-- Digits alone are a literal of another kind. -/
theorem literals_repr (n : Nat) : literals n.repr = [] := by
  refine literals_of_not_mem fun mem => ?_
  rw [Nat.toList_repr] at mem
  exact absurd (DecimalText.isDigit_of_mem_toDigits _ mem) (by decide)

theorem literals_decimal (h : DecimalText s.toList) : literals s = [] := by
  refine literals_of_not_mem fun mem => ?_
  rcases h.spelled _ mem with digit | sign
  · cases digit
  · exact absurd sign (by decide)

/-- A part between a word with an opening parenthesis and the closing one. -/
theorem literals_call (closes : Closes s) (plain : literals s = []) (t : String) :
    literals (s ++ t ++ ")") = literals t := by
  rw [literals_opening (by decide), literals_closing closes, plain]
  exact List.append_nil _

theorem literals_parenthesized (s : String) : literals ("(" ++ s ++ ")") = literals s :=
  literals_call (by decide) (by decide) s

end Text

open Text

/-- The shader literal of a number has no suffix. -/
theorem Binary32.literals_literal (x : Binary32) : literals x.literal = [] := by
  have plain : literals (x.text .shader) = [] := by
    rw [Binary32.text]
    cases x.value.toModel.unpack with
    | notANumber => decide
    | infinity s => cases s <;> decide
    | zero | finite => exact literals_decimal (.of_finite rfl .binary32 rfl)
  rw [Binary32.literal]
  split
  · rw [literals_parenthesized, plain]
  · exact plain

namespace Shader

@[simp] theorem Buffer.literals_name (b : Buffer) : literals b.name = [] := by
  cases b <;> decide

@[simp] theorem literals_enclosed (needed : Bool) (text : String) :
    literals (enclosed needed text) = literals text := by
  cases needed with
  | false => rfl
  | true => exact literals_parenthesized text

/-- What stands between two parts of a line, and has no literal of its own. -/
theorem literals_between {s t sep : String} (opens : Opens sep) (closes : Closes sep)
    (plain : literals sep = []) : literals (s ++ sep ++ t) = literals s ++ literals t := by
  rw [literals_closing (closes_append closes), literals_opening opens, plain, List.append_nil]

namespace Index

variable (a b : Index)

@[simp] theorem literals_literal (n : Nat) : literals (literal n).text = [n] :=
  literals_suffixed n

@[simp] theorem literals_named {name : String} (plain : literals name = []) :
    literals (named name).text = [] := plain

@[simp] theorem literals_add : literals (a + b).text = literals a.text ++ literals b.text :=
  literals_between (by decide) (by decide) (by decide)

@[simp] theorem literals_sub : literals (a - b).text = literals a.text ++ literals b.text :=
  literals_between (by decide) (by decide) (by decide)

@[simp] theorem literals_mul : literals (a * b).text = literals a.text ++ literals b.text := by
  show literals (enclosed _ a.text ++ " * " ++ enclosed _ b.text) = _
  rw [literals_between (by decide) (by decide) (by decide), literals_enclosed, literals_enclosed]

@[simp] theorem literals_div : literals (a / b).text = literals a.text ++ literals b.text := by
  show literals (enclosed _ a.text ++ " / " ++ enclosed _ b.text) = _
  rw [literals_between (by decide) (by decide) (by decide), literals_enclosed, literals_enclosed]

@[simp] theorem literals_mod : literals (a % b).text = literals a.text ++ literals b.text := by
  show literals (enclosed _ a.text ++ " % " ++ enclosed _ b.text) = _
  rw [literals_between (by decide) (by decide) (by decide), literals_enclosed, literals_enclosed]

end Index

namespace Test

@[simp] theorem literals_less (a b : Index) :
    literals (less a b).text = literals a.text ++ literals b.text :=
  literals_between (by decide) (by decide) (by decide)

@[simp] theorem literals_atLeast (a b : Index) :
    literals (atLeast a b).text = literals a.text ++ literals b.text :=
  literals_between (by decide) (by decide) (by decide)

@[simp] theorem literals_or (a b : Test) :
    literals (or a b).text = literals a.text ++ literals b.text :=
  literals_between (by decide) (by decide) (by decide)

end Test

namespace Term

variable (a b c : Term Binary32)

@[simp] theorem literals_named {name : String} (plain : literals name = []) :
    literals (named name : Term Binary32).text = [] := plain

@[simp] theorem literals_zero : literals (zero : Term Binary32).text = [] := by
  decide

@[simp] theorem literals_one : literals (one : Term Binary32).text = [] := by
  decide

@[simp] theorem literals_least : literals (least : Term Binary32).text = [] := by
  decide

@[simp] theorem literals_constant (x : Binary32) : literals (constant x).text = [] :=
  x.literals_literal

@[simp] theorem literals_read (buffer : Buffer) (i : Index) :
    literals (read buffer i : Term Binary32).text = literals i.text := by
  show literals (buffer.name ++ "[" ++ i.text ++ "]") = _
  rw [literals_opening (by decide), literals_between (by decide) (by decide) (by decide),
    Buffer.literals_name]
  exact List.append_nil _

@[simp] theorem literals_grouped : literals (grouped a).text = literals a.text :=
  literals_parenthesized a.text

@[simp] theorem literals_add : literals (a + b).text = literals a.text ++ literals b.text := by
  show literals (a.text ++ " + " ++ enclosed _ b.text) = _
  rw [literals_between (by decide) (by decide) (by decide), literals_enclosed]

@[simp] theorem literals_sub : literals (a - b).text = literals a.text ++ literals b.text := by
  show literals (a.text ++ " - " ++ enclosed _ b.text) = _
  rw [literals_between (by decide) (by decide) (by decide), literals_enclosed]

@[simp] theorem literals_mul : literals (a * b).text = literals a.text ++ literals b.text := by
  show literals (enclosed _ a.text ++ " * " ++ enclosed _ b.text) = _
  rw [literals_between (by decide) (by decide) (by decide), literals_enclosed, literals_enclosed]

@[simp] theorem literals_div : literals (a / b).text = literals a.text ++ literals b.text := by
  show literals (enclosed _ a.text ++ " / " ++ enclosed _ b.text) = _
  rw [literals_between (by decide) (by decide) (by decide), literals_enclosed, literals_enclosed]

@[simp] theorem literals_neg : literals (-a).text = literals a.text := by
  show literals ("-" ++ enclosed _ a.text) = _
  rw [literals_closing (by decide), literals_enclosed]
  rfl

@[simp] theorem literals_exp : literals (exp a).text = literals a.text :=
  literals_call (by decide) (by decide) a.text

@[simp] theorem literals_tanh : literals (tanh a).text = literals a.text :=
  literals_call (by decide) (by decide) a.text

@[simp] theorem literals_sqrt : literals (sqrt a).text = literals a.text :=
  literals_call (by decide) (by decide) a.text

@[simp] theorem literals_max :
    literals (max a b).text = literals a.text ++ literals b.text := by
  show literals ("max(" ++ a.text ++ ", " ++ b.text ++ ")") = _
  rw [literals_opening (by decide), literals_between (by decide) (by decide) (by decide),
    literals_closing (by decide)]
  exact List.append_nil _

@[simp] theorem literals_ifPositive :
    literals (ifPositive c a b).text = literals c.text ++ literals a.text ++ literals b.text := by
  show literals ("select(" ++ c.text ++ ", " ++ a.text ++ ", " ++ b.text ++ " > 0.0)") = _
  rw [literals_opening (by decide), literals_between (by decide) (by decide) (by decide),
    literals_between (by decide) (by decide) (by decide), literals_closing (by decide)]
  exact List.append_nil _

end Term

namespace Statement

theorem closes_indented (level : Nat) (line : String) : Closes (indented level line) :=
  closes_append (by decide)

@[simp] theorem literals_indented (level : Nat) (line : String) :
    literals (indented level line) = literals line := by
  have blanks : literals (.ofList (List.replicate (4 * level) ' ') ++ line) = literals line := by
    rw [literals, String.toList_append, String.toList_ofList]
    exact literalsIn_blanks _ _
  rw [indented, literals_opening (by decide), blanks]
  exact List.append_nil _

theorem literals_jumpLines (level : Nat) (test : Test) {jump : String}
    (plain : literals jump = []) : literals (jumpLines level test jump) = literals test.text := by
  rw [jumpLines, literals_closing (closes_append (closes_indented _ _)),
    literals_closing (closes_indented _ _), literals_indented, literals_indented,
    literals_indented, plain, literals_opening (by decide), literals_closing (by decide)]
  exact (List.append_nil _).trans ((List.append_nil _).trans (List.append_nil _))

variable {name : String} (named : literals name = []) {level : Nat}

include named

/-- A line that gives a name a value. -/
theorem literals_binding {head sign : String} (starts : Closes head ∧ literals head = [])
    (opens : Opens sign) (closes : Closes sign) (plain : literals sign = []) (value : String) :
    literals (indented level (head ++ name ++ sign ++ value ++ ";")) = literals value := by
  rw [literals_indented, literals_opening (by decide), literals_between opens closes plain,
    literals_closing starts.1, starts.2, named]
  exact List.append_nil _

@[simp] theorem literals_index (i : Index) :
    literals (lines level (.index name i : Statement Binary32)) = literals i.text :=
  literals_binding named (by decide) (by decide) (by decide) (by decide) i.text

@[simp] theorem literals_parameter (entry : Nat) :
    literals (lines level (.parameter name entry : Statement Binary32)) = [entry] := by
  rw [lines, literals_indented, literals_opening (by decide),
    literals_between (by decide) (by decide) (by decide), literals_closing (by decide),
    Index.literals_literal, named]
  rfl

@[simp] theorem literals_number (x : Term Binary32) :
    literals (lines level (.number name x)) = literals x.text :=
  literals_binding named (by decide) (by decide) (by decide) (by decide) x.text

@[simp] theorem literals_accumulator (x : Term Binary32) :
    literals (lines level (.accumulator name x)) = literals x.text :=
  literals_binding named (by decide) (by decide) (by decide) (by decide) x.text

@[simp] theorem literals_assign (x : Term Binary32) :
    literals (lines level (.assign name x)) = literals x.text := by
  rw [lines, literals_indented, literals_opening (by decide),
    literals_between (by decide) (by decide) (by decide), named]
  exact List.append_nil _

omit named

@[simp] theorem literals_store (i : Index) (x : Term Binary32) :
    literals (lines level (.store i x)) = literals i.text ++ literals x.text := by
  rw [lines, literals_indented, literals_opening (by decide),
    literals_between (by decide) (by decide) (by decide), Term.literals_read]
  exact List.append_nil _

@[simp] theorem literals_returnIf (test : Test) :
    literals (lines level (.returnIf test : Statement Binary32)) = literals test.text :=
  literals_jumpLines level test (by decide)

@[simp] theorem literals_continueIf (test : Test) :
    literals (lines level (.continueIf test : Statement Binary32)) = literals test.text :=
  literals_jumpLines level test (by decide)

theorem closes_lines (s : Statement Binary32) : Closes (s.lines level) := by
  cases s with
  | index | parameter | number | accumulator | assign | store => exact closes_indented _ _
  | returnIf | continueIf | loop | block => exact closes_append (closes_indented _ _)

@[simp] theorem literals_bodyLines_nil :
    literals (bodyLines level ([] : List (Statement Binary32))) = [] := rfl

@[simp] theorem literals_bodyLines_cons (s : Statement Binary32)
    (body : List (Statement Binary32)) : literals (bodyLines level (s :: body)) =
      literals (s.lines level) ++ literals (bodyLines level body) :=
  literals_closing (closes_lines s)

@[simp] theorem literals_bodyLines_append (front body : List (Statement Binary32)) :
    literals (bodyLines level (front ++ body)) =
      literals (bodyLines level front) ++ literals (bodyLines level body) := by
  induction front with
  | nil => rfl
  | cons s front ih =>
    rw [List.cons_append, literals_bodyLines_cons, literals_bodyLines_cons, ih, List.append_assoc]

theorem literals_behind (body : List (Statement Binary32)) (text : String) :
    literals (bodyLines level body ++ text) = literals (bodyLines level body) ++ literals text := by
  induction body with
  | nil => rw [bodyLines, String.empty_append]; rfl
  | cons s body ih =>
    rw [bodyLines, String.append_assoc, literals_closing (closes_lines s), ih,
      literals_closing (closes_lines s), List.append_assoc]

/-- Statements between two lines. -/
theorem literals_framed (head tail : String) (plain : literals tail = [])
    (body : List (Statement Binary32)) :
    literals (indented level head ++ bodyLines (level + 1) body ++ indented level tail) =
      literals head ++ literals (bodyLines (level + 1) body) := by
  rw [String.append_assoc, literals_closing (closes_indented _ _), literals_behind,
    literals_indented, literals_indented, plain, List.append_nil]

include named in
/-- A loop counts from zero, by ones. -/
@[simp] theorem literals_loop (bound : Nat) (body : List (Statement Binary32)) :
    literals (lines level (.loop name bound body)) =
      0 :: bound :: 1 :: literals (bodyLines (level + 1) body) := by
  have zero : literals ": u32 = 0u; " = [0] := by decide
  have one : literals " + 1u) \x7b" = [1] := by decide
  rw [lines, literals_framed _ _ (by decide), literals_opening (by decide), one,
    literals_between (by decide) (by decide) (by decide),
    literals_between (by decide) (by decide) (by decide),
    literals_between (by decide) (by decide) (by decide), Index.literals_literal,
    literals_closing (closes_append (by decide)), literals_opening (by decide), zero,
    literals_closing (by decide), named]
  rfl

@[simp] theorem literals_block (body : List (Statement Binary32)) :
    literals (lines level (.block body)) = literals (bodyLines (level + 1) body) := by
  rw [lines, literals_framed _ _ (by decide)]
  rfl

end Statement

end Shader

end TensorGraph
