import Mathlib.Data.List.Basic
import TensorGraph.Shader.Code
import TensorGraph.Text.Hex

/-!
# TensorGraph.Proofs.Shader.Lines

Reading the text of code line by line.

* `Text.seek`, `Text.past`: finding a line by its beginning, and what follows a character.
* `Text.Flat`: a text that stays on its line. Indices do, whatever numbers are in them.
* `Statement.Flat`: a statement whose parts stay on their lines.
* `Statement.seek_store`: such declarations in front of a store do not hide it.
-/

namespace TensorGraph

namespace Text

/-- What follows the first `c`. -/
def past (c : Char) (text : List Char) : List Char := (text.dropWhile (· ≠ c)).drop 1

/-- The text from the first line on that begins with `start`. Whether a line begins where the text
does is told by `fresh`. -/
def seekFrom (start : List Char) : Bool → List Char → List Char
  | _, [] => []
  | fresh, c :: rest =>
    if fresh && start.isPrefixOf (c :: rest) then c :: rest else seekFrom start (c == '\n') rest

/-- The text from the first line on that begins with `start`. -/
def seek (start : String) (text : List Char) : List Char := seekFrom start.toList true text

def begins (start : String) (text : List Char) : Bool := start.toList.isPrefixOf text

/-- A text without ends of lines. -/
def Flat (text : String) : Prop := '\n' ∉ text.toList

instance (text : String) : Decidable (Flat text) :=
  inferInstanceAs (Decidable ('\n' ∉ text.toList))

section

variable {c : Char} {front rest : List Char}

theorem takeWhile_append (new : c ∉ front) :
    (front ++ c :: rest).takeWhile (· ≠ c) = front := by
  rw [List.takeWhile_append_of_pos fun d hd => by simpa using fun e : d = c => new (e ▸ hd)]
  simp

theorem dropWhile_append (new : c ∉ front) :
    (front ++ c :: rest).dropWhile (· ≠ c) = c :: rest := by
  rw [List.dropWhile_append_of_pos fun d hd => by simpa using fun e : d = c => new (e ▸ hd)]
  simp

theorem past_append (new : c ∉ front) : past c (front ++ c :: rest) = rest := by
  rw [past, dropWhile_append new]
  rfl

end

theorem seekFrom_rest {start line rest : List Char} (flat : '\n' ∉ line) :
    seekFrom start false (line ++ '\n' :: rest) = seekFrom start true rest := by
  induction line with
  | nil => rfl
  | cons c line ih =>
    obtain ⟨ne, flat⟩ := not_or.1 (List.mem_cons.not.1 flat)
    have other : (c == '\n') = false := beq_false_of_ne (Ne.symm ne)
    rw [List.cons_append, seekFrom, Bool.false_and, if_neg Bool.false_ne_true, other, ih flat]

theorem seek_line {start : String} {line rest : List Char} (flat : '\n' ∉ line)
    (differs : begins start (line ++ '\n' :: rest) = false) :
    seek start (line ++ '\n' :: rest) = seek start rest := by
  rw [begins] at differs
  cases line with
  | nil =>
    rw [List.nil_append] at differs ⊢
    rw [seek, seekFrom, differs]
    rfl
  | cons c line =>
    obtain ⟨ne, flat⟩ := not_or.1 (List.mem_cons.not.1 flat)
    have other : (c == '\n') = false := beq_false_of_ne (Ne.symm ne)
    rw [List.cons_append] at differs ⊢
    rw [seek, seekFrom, differs, other]
    exact seekFrom_rest flat

theorem seek_here {start : String} {text : List Char} (here : begins start text = true) :
    seek start text = text := by
  rw [begins] at here
  cases text with
  | nil => rfl
  | cons c rest =>
    rw [seek, seekFrom, here]
    rfl

@[simp] theorem flat_append {s t : String} : Flat (s ++ t) ↔ Flat s ∧ Flat t := by
  simp [Flat, not_or]

@[simp] theorem flat_repr (n : Nat) : Flat n.repr := by
  rw [Flat, Nat.toList_repr]
  intro mem
  exact absurd (Nat.isDigit_of_mem_toDigits (by decide) (by decide) mem) (by decide)

end Text

open Text

namespace Shader

@[simp] theorem flat_enclosed {needed : Bool} {text : String} :
    Flat (enclosed needed text) ↔ Flat text := by
  cases needed with
  | false => rfl
  | true => simp [enclosed, Flat]

@[simp] theorem Buffer.flat_name (b : Buffer) : Flat b.name := by
  cases b <;> simp [name, Flat]

namespace Index

variable {a b : Index}

@[simp] theorem flat_literal (n : Nat) : Flat (literal n).text := by
  show Flat (n.repr ++ "u")
  simp +decide

@[simp] theorem flat_named {name : String} : Flat (named name).text ↔ Flat name := Iff.rfl

@[simp] theorem flat_add : Flat (a + b).text ↔ Flat a.text ∧ Flat b.text := by
  show Flat (a.text ++ " + " ++ b.text) ↔ _
  simp +decide

@[simp] theorem flat_sub : Flat (a - b).text ↔ Flat a.text ∧ Flat b.text := by
  show Flat (a.text ++ " - " ++ b.text) ↔ _
  simp +decide

@[simp] theorem flat_mul : Flat (a * b).text ↔ Flat a.text ∧ Flat b.text := by
  show Flat (enclosed _ a.text ++ " * " ++ enclosed _ b.text) ↔ _
  simp +decide

@[simp] theorem flat_div : Flat (a / b).text ↔ Flat a.text ∧ Flat b.text := by
  show Flat (enclosed _ a.text ++ " / " ++ enclosed _ b.text) ↔ _
  simp +decide

@[simp] theorem flat_mod : Flat (a % b).text ↔ Flat a.text ∧ Flat b.text := by
  show Flat (enclosed _ a.text ++ " % " ++ enclosed _ b.text) ↔ _
  simp +decide

end Index

namespace Test

@[simp] theorem flat_less {a b : Index} :
    Flat (less a b).text ↔ Flat a.text ∧ Flat b.text := by
  show Flat (a.text ++ " < " ++ b.text) ↔ _
  simp +decide

@[simp] theorem flat_atLeast {a b : Index} :
    Flat (atLeast a b).text ↔ Flat a.text ∧ Flat b.text := by
  show Flat (a.text ++ " >= " ++ b.text) ↔ _
  simp +decide

@[simp] theorem flat_or {a b : Test} : Flat (or a b).text ↔ Flat a.text ∧ Flat b.text := by
  show Flat (a.text ++ " || " ++ b.text) ↔ _
  simp +decide

end Test

variable {α : Type} [Scalar α]

namespace Term

@[simp] theorem flat_read {b : Buffer} {i : Index} :
    Flat (read b i : Term α).text ↔ Flat i.text := by
  show Flat (b.name ++ "[" ++ i.text ++ "]") ↔ _
  simp +decide

@[simp] theorem flat_named {name : String} : Flat (named name : Term α).text ↔ Flat name :=
  Iff.rfl

@[simp] theorem flat_zero : Flat (zero : Term α).text := by
  show Flat "0.0"
  decide

@[simp] theorem flat_least : Flat (least : Term α).text := by
  show Flat "-3.4028235e38"
  decide

@[simp] theorem flat_max {a b : Term α} : Flat (max a b).text ↔ Flat a.text ∧ Flat b.text := by
  show Flat ("max(" ++ a.text ++ ", " ++ b.text ++ ")") ↔ _
  simp +decide

@[simp] theorem flat_add {a b : Term α} : Flat (a + b).text ↔ Flat a.text ∧ Flat b.text := by
  show Flat (a.text ++ " + " ++ enclosed _ b.text) ↔ _
  simp +decide

theorem text_read (b : Buffer) (i : Index) :
    (read b i : Term α).text = b.name ++ "[" ++ i.text ++ "]" := rfl

theorem text_add (a b : Term α) :
    (a + b).text = a.text ++ " + " ++ enclosed b.isSum b.text := rfl

theorem text_sub (a b : Term α) :
    (a - b).text = a.text ++ " - " ++ enclosed b.isSum b.text := rfl

theorem text_mul (a b : Term α) : (a * b).text =
    enclosed a.isSum a.text ++ " * " ++ enclosed (b.isSum || b.isProduct) b.text := rfl

theorem text_div (a b : Term α) : (a / b).text =
    enclosed a.isSum a.text ++ " / " ++ enclosed (b.isSum || b.isProduct) b.text := rfl

end Term

namespace Statement

mutual

/-- The parts of a statement stay on their lines. -/
def Flat : Statement α → Prop
  | .index name i => Text.Flat name ∧ Text.Flat i.text
  | .parameter name _ => Text.Flat name
  | .number name x => Text.Flat name ∧ Text.Flat x.text
  | .accumulator name x => Text.Flat name ∧ Text.Flat x.text
  | .assign name x => Text.Flat name ∧ Text.Flat x.text
  | .store i x => Text.Flat i.text ∧ Text.Flat x.text
  | .returnIf test => Text.Flat test.text
  | .continueIf test => Text.Flat test.text
  | .loop name _ body => Text.Flat name ∧ AllFlat body
  | .block body => AllFlat body

def AllFlat : List (Statement α) → Prop
  | [] => True
  | s :: rest => s.Flat ∧ AllFlat rest

end

/-- The first line of the statement is no assignment. -/
def Declares : Statement α → Prop
  | .assign _ _ => False
  | .store _ _ => False
  | _ => True

omit [Scalar α] in
theorem toList_indented (level : Nat) (line : String) :
    (indented level line).toList = List.replicate (4 * level) ' ' ++ line.toList ++ ['\n'] := by
  simp [indented]

theorem past_indented {level : Nat} {line : String} {rest : List Char} (flat : Text.Flat line) :
    past '\n' ((indented level line).toList ++ rest) = rest := by
  have parts : (indented level line).toList ++ rest =
      (List.replicate (4 * level) ' ' ++ line.toList) ++ '\n' :: rest := by
    rw [toList_indented, List.append_assoc, List.singleton_append]
  rw [parts]
  exact past_append (by simpa [Text.Flat] using flat)

/-- A line is skipped if it does not begin as the line that is sought. -/
theorem seek_indented {start : String} {level : Nat} {line : String} {rest : List Char}
    (flat : Text.Flat line)
    (differs : begins start ((indented level line).toList ++ rest) = false) :
    seek start ((indented level line).toList ++ rest) = seek start rest := by
  have parts : (indented level line).toList ++ rest =
      (List.replicate (4 * level) ' ' ++ line.toList) ++ '\n' :: rest := by
    rw [toList_indented, List.append_assoc, List.singleton_append]
  rw [parts] at differs ⊢
  exact seek_line (by simpa [Text.Flat] using flat) differs

/-- Lines below the first level are no stores of the first level. -/
theorem seek_deep {level : Nat} {line : String} {rest : List Char} (flat : Text.Flat line) :
    seek "    data[" ((indented (level + 2) line).toList ++ rest) = seek "    data[" rest := by
  refine seek_indented flat ?_
  have blanks : 4 * (level + 2) = 4 * level + 3 + 1 + 1 + 1 + 1 + 1 := by omega
  rw [begins, toList_indented, blanks]
  simp [List.replicate_succ, List.isPrefixOf_cons_cons]

mutual

theorem seek_lines (level : Nat) (rest : List Char) (s : Statement α) (flat : s.Flat) :
    seek "    data[" ((s.lines (level + 2)).toList ++ rest) = seek "    data[" rest := by
  cases s with
  | index | parameter | number | accumulator | assign | store =>
    exact seek_deep (by simpa +decide [Flat] using flat)
  | returnIf test | continueIf test =>
    simp only [lines, jumpLines, String.toList_append, List.append_assoc]
    rw [seek_deep (by simpa +decide [Flat] using flat), seek_deep (by decide),
      seek_deep (by decide)]
  | loop name bound body =>
    simp only [lines, String.toList_append, List.append_assoc]
    rw [seek_deep (by simpa +decide [Flat] using flat.1), seek_bodyLines (level + 1) _ body flat.2,
      seek_deep (by decide)]
  | block body =>
    simp only [lines, String.toList_append, List.append_assoc]
    rw [seek_deep (by decide), seek_bodyLines (level + 1) _ body flat, seek_deep (by decide)]

theorem seek_bodyLines (level : Nat) (rest : List Char) (body : List (Statement α))
    (flat : AllFlat body) :
    seek "    data[" ((bodyLines (level + 2) body).toList ++ rest) = seek "    data[" rest := by
  cases body with
  | nil => rfl
  | cons s body =>
    rw [bodyLines, String.toList_append, List.append_assoc, seek_lines level _ s flat.1,
      seek_bodyLines level _ body flat.2]

end

/-- A line of the first level that does not begin as a store. -/
theorem seek_first {line : String} {rest : List Char} (flat : Text.Flat line)
    (differs : begins "data[" (line.toList ++ '\n' :: rest) = false) :
    seek "    data[" ((indented 1 line).toList ++ rest) = seek "    data[" rest := by
  refine seek_indented flat ?_
  rw [toList_indented]
  simpa [begins, List.replicate_succ, List.isPrefixOf_cons_cons] using differs

theorem seek_declaration {s : Statement α} (flat : s.Flat) (declares : s.Declares)
    (rest : List Char) :
    seek "    data[" ((s.lines 1).toList ++ rest) = seek "    data[" rest := by
  have brace (rest : List Char) : seek "    data[" ((indented 1 "\x7d").toList ++ rest) =
      seek "    data[" rest := seek_first (by decide) rfl
  have jump {line : String} (rest : List Char) (flat : Text.Flat line) :
      seek "    data[" ((indented (1 + 1) line).toList ++ rest) = seek "    data[" rest :=
    @seek_deep 0 line rest flat
  cases s with
  | assign | store => cases declares
  | index | parameter | number | accumulator =>
    exact seek_first (by simpa +decide [Flat] using flat)
      (by simp [begins, List.isPrefixOf_cons_cons])
  | returnIf test | continueIf test =>
    simp only [lines, jumpLines, String.toList_append, List.append_assoc]
    rw [seek_first (by simpa +decide [Flat] using flat)
      (by simp [begins, List.isPrefixOf_cons_cons]), jump _ (by decide), brace]
  | loop name bound body =>
    simp only [lines, String.toList_append, List.append_assoc]
    rw [seek_first (by simpa +decide [Flat] using flat.1)
      (by simp [begins, List.isPrefixOf_cons_cons]), seek_bodyLines 0 _ body flat.2, brace]
  | block body =>
    simp only [lines, String.toList_append, List.append_assoc]
    rw [seek_first (by decide) rfl, seek_bodyLines 0 _ body flat, brace]

/-- Declarations do not hide the store behind them. -/
theorem seek_store {front : List (Statement α)} (h : ∀ s ∈ front, s.Flat ∧ s.Declares)
    (i : Index) (x : Term α) (rest : List Char) :
    seek "    data[" ((bodyLines 1 (front ++ [.store i x])).toList ++ rest) =
      (indented 1 ((Term.read .data i : Term α).text ++ " = " ++ x.text ++ ";")).toList ++
        rest := by
  induction front with
  | nil =>
    refine (congrArg _ ?_).trans (seek_here ?_)
    · simp [bodyLines, lines]
    · simp [begins, toList_indented, List.replicate_succ, Term.text_read, Buffer.name]
  | cons s front ih =>
    obtain ⟨flat, declares⟩ := h s List.mem_cons_self
    rw [List.cons_append, bodyLines, String.toList_append, List.append_assoc,
      seek_declaration flat declares]
    exact ih fun s hs => h s (List.mem_cons_of_mem _ hs)

theorem bodyLines_append (level : Nat) (xs ys : List (Statement α)) :
    bodyLines level (xs ++ ys) = bodyLines level xs ++ bodyLines level ys := by
  induction xs with
  | nil => exact String.empty_append.symm
  | cons x xs ih => rw [List.cons_append, bodyLines, bodyLines, ih, String.append_assoc]

end Statement

end Shader

end TensorGraph
