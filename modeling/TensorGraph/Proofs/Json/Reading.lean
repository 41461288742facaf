import Mathlib.Data.List.Forall2
import TensorGraph.Json.Printer
import TensorGraph.Json.Reader
import TensorGraph.Proofs.Edit.Run

/-!
# TensorGraph.Proofs.Json.Reading

What readers make of printed text.

* `Json.Reads`: behind any blanks, a reader takes one text for one value.
* `stringBody_escaped`: a string comes back from its escapes, whatever its characters.
* `run_sequence`: an array comes back if each of its elements does.
* `Gathers`, `Gathers.run_members`: an object comes back member by member.
-/

namespace TensorGraph.Json

open Edit (run_bind run_bind_ok)

variable {β σ : Type} {s rest : List Char} {c : Char}

/-! ## Tokens -/

/-- The text does not go on with a number that ends in front of it. -/
def Stops (rest : List Char) : Prop :=
  ∀ c ∈ rest.head?, isDigit c = false ∧ c ≠ '.' ∧ isExponentMark c = false

theorem stops_nil : Stops [] := nofun

theorem stops_cons :
    Stops (c :: rest) ↔ isDigit c = false ∧ c ≠ '.' ∧ isExponentMark c = false := by
  simp [Stops]

theorem stops_newLine (level : Nat) (rest : List Char) : Stops (newLine level ++ rest) :=
  stops_cons.2 (by decide)

/-- A text that starts like a value: neither with a blank nor with the end of an array. -/
def Leads (text : List Char) : Prop := ∃ c ∈ text.head?, isBlank c = false ∧ c ≠ ']'

theorem leads_cons : Leads (c :: rest) ↔ isBlank c = false ∧ c ≠ ']' := by simp [Leads]

/-- Behind any blanks, the reader takes `text` for `x`, whatever stands behind the text. -/
structure Reads (r : Reader β) (text : List Char) (x : β) : Prop where
  leads : Leads text
  run : ∀ {s rest}, s.dropWhile isBlank = text ++ rest → Stops rest → r s = .ok x rest

theorem dropWhile_newLine (level : Nat) (rest : List Char) :
    (newLine level ++ rest).dropWhile isBlank = rest.dropWhile isBlank :=
  List.dropWhile_append_of_pos fun c hc => by
    rcases List.mem_cons.1 hc with rfl | hc
    · rfl
    · rw [List.eq_of_mem_replicate hc]; rfl

theorem Leads.dropWhile {text : List Char} (h : Leads text) (rest : List Char) :
    (text ++ rest).dropWhile isBlank = text ++ rest := by
  obtain ⟨c, hc, visible, -⟩ := h
  obtain ⟨more, rfl⟩ := List.head?_eq_some_iff.1 hc
  exact List.dropWhile_cons_of_neg (by simp [visible])

theorem Reads.run_here {r : Reader β} {text : List Char} {x : β} (h : Reads r text x)
    (stops : Stops rest) : r (text ++ rest) = .ok x rest :=
  h.run (h.leads.dropWhile rest) stops

theorem peekToken_eq (s : List Char) :
    peekToken s = .ok (s.dropWhile isBlank).head? (s.dropWhile isBlank) := rfl

theorem run_peekToken (h : s.dropWhile isBlank = c :: rest) :
    peekToken s = .ok (some c) (c :: rest) := by
  rw [peekToken_eq, h]; rfl

theorem run_skipChar (c : Char) (rest : List Char) : skipChar (c :: rest) = .ok ⟨⟩ rest := rfl

theorem front_ok_iff {part : List Char → Except Fault (β × List Char)} {x : β} :
    front part s = .ok x rest ↔ part s = .ok (x, rest) := by
  rw [front, run_bind_ok (show (get : Reader (List Char)) s = .ok s s from rfl)]
  cases part s with
  | ok read =>
    show EStateM.Result.ok read.1 read.2 = _ ↔ _
    simp [Prod.ext_iff]
  | error fault =>
    constructor
    · intro h
      cases h
    · intro h
      cases h

/-! ## Strings -/

theorem hexValue?_hexDigit : ∀ n < 16, hexValue? (Text.hexDigit n) = some n := by decide

theorem codeUnit?_hexDigits {n : Nat} (bound : n < 0x10000) :
    ∃ a b c d, Text.hexDigits 4 n = [a, b, c, d] ∧ codeUnit? a b c d = some n := by
  refine ⟨_, _, _, _, rfl, ?_⟩
  have digit (m : Nat) : hexValue? (Text.hexDigit (m % 16)) = some (m % 16) :=
    hexValue?_hexDigit _ (Nat.mod_lt m (by decide))
  simp only [codeUnit?, digit, Option.bind_eq_bind, Option.bind_some, Option.pure_def,
    Option.some.injEq]
  omega

/-- A character has a letter for its escape, or four digits if it is a control character, or stands
for itself. -/
theorem escaped_cases (c : Char) :
    (∃ e, escaped c = ['\\', e] ∧ e ≠ 'u' ∧ simpleEscape? e = some c) ∨
    (escaped c = '\\' :: 'u' :: Text.hexDigits 4 c.toNat ∧ c < ' ') ∨
    (escaped c = [c] ∧ c ≠ '"' ∧ c ≠ '\\' ∧ ¬ c < ' ') := by
  unfold escaped
  iterate 7
    split
    · next special => subst special; exact .inl ⟨_, rfl, by decide, by decide⟩
  split
  · next control => exact .inr (.inl ⟨rfl, control⟩)
  · next quote backslash _ _ _ _ _ control => exact .inr (.inr ⟨rfl, quote, backslash, control⟩)

theorem stringBody_escape (c : Char) {more left : List Char}
    (h : stringBody rest = .ok (more, left)) :
    stringBody (escaped c ++ rest) = .ok (c :: more, left) := by
  rcases escaped_cases c with ⟨e, text, letter, simple⟩ | ⟨text, control⟩ |
    ⟨text, quote, backslash, visible⟩
  · rw [text, List.cons_append, List.singleton_append, stringBody]
    · simp [simple, h, Except.map]
    · exact fun _ _ _ _ _ same _ => letter same
    · exact letter
  · have small : c.toNat < 32 := control
    obtain ⟨a, b, d, e, digits, unit⟩ := codeUnit?_hexDigits (n := c.toNat) (by omega)
    have trailing : isTrailingSurrogate c.toNat = false := by
      simp only [isTrailingSurrogate, Bool.and_eq_false_imp, decide_eq_true_eq]; omega
    have leading : isLeadingSurrogate c.toNat = false := by
      simp only [isLeadingSurrogate, Bool.and_eq_false_imp, decide_eq_true_eq]; omega
    simp [text, digits, stringBody, unit, trailing, leading, h, Except.map, Char.ofNat_toNat]
  · rw [text, List.singleton_append, stringBody.eq_def]
    split <;> simp_all [Except.map]

/-- The characters that need an escape are those that cannot stand for themselves. -/
theorem stringBody_escaped (text rest : List Char) :
    stringBody (text.flatMap escaped ++ '"' :: rest) = .ok (text, rest) := by
  induction text with
  | nil => simp [stringBody]
  | cons c text ih =>
    rw [List.flatMap_cons, List.append_assoc]
    exact stringBody_escape c ih

theorem run_stringToken (name : String) (rest : List Char) :
    stringToken (quoted name.toList ++ rest) = .ok name rest := by
  have body : quoted name.toList ++ rest =
      '"' :: (name.toList.flatMap escaped ++ '"' :: rest) := by
    simp [quoted]
  rw [body, stringToken, run_bind_ok (run_skipChar _ _),
    run_bind_ok (front_ok_iff.2 (stringBody_escaped name.toList rest)), String.ofList_toList]
  rfl

theorem leads_quoted (name : String) : Leads (quoted name.toList) := leads_cons.2 (by decide)

theorem reads_text (name : String) : Reads text (quoted name.toList) name where
  leads := leads_quoted name
  run front _ := by
    rw [text, run_bind_ok (run_peekToken front)]
    exact run_stringToken name _

/-! ## Arrays -/

theorem framed_head (opening closing : Char) (level : Nat) (items : List (List Char)) :
    ∃ inner, framed opening closing level items = opening :: inner := by
  cases items <;> exact ⟨_, rfl⟩

theorem framed_cons (opening closing : Char) (level : Nat) (first : List Char)
    (others : List (List Char)) :
    framed opening closing level (first :: others) =
      opening :: (newLine (level + 1) ++ first ++
        others.flatMap (',' :: newLine (level + 1) ++ ·) ++ newLine level ++ [closing]) := by
  have items (first : List Char) : List.intercalate (',' :: newLine (level + 1)) (first :: others) =
      first ++ others.flatMap (',' :: newLine (level + 1) ++ ·) := by
    induction others generalizing first with
    | nil => simp
    | cons second others ih =>
      rw [List.intercalate_cons_cons, ih second, List.flatMap_cons, List.append_assoc,
        List.append_assoc]
  simp [framed, items]

theorem moreElements_end (first : Bool) (h : s.dropWhile isBlank = ']' :: rest) :
    moreElements first s = .ok false (']' :: rest) := by
  rw [moreElements, run_bind_ok (run_peekToken h)]
  rfl

theorem moreElements_first {text : List Char} (leads : Leads text)
    (h : s.dropWhile isBlank = text ++ rest) : moreElements true s = .ok true (text ++ rest) := by
  obtain ⟨c, hc, -, inside⟩ := leads
  obtain ⟨more, rfl⟩ := List.head?_eq_some_iff.1 hc
  rw [moreElements, run_bind_ok (run_peekToken h)]
  simp only
  rfl

theorem moreElements_next {text between : List Char} (leads : Leads text)
    (comma : s.dropWhile isBlank = ',' :: between) (h : between.dropWhile isBlank = text ++ rest) :
    moreElements false s = .ok true (text ++ rest) := by
  obtain ⟨c, hc, -, inside⟩ := leads
  obtain ⟨more, rfl⟩ := List.head?_eq_some_iff.1 hc
  rw [moreElements, run_bind_ok (run_peekToken comma)]
  show (skipChar >>= fun _ => (peekToken >>= _)) (',' :: between) = _
  rw [run_bind_ok (run_skipChar _ _), run_bind_ok (run_peekToken h)]
  simp only
  rfl

/-- The length of what follows the first item bounds the number of items. -/
theorem length_le_flatMap (start : List Char) (texts : List (List Char)) :
    texts.length ≤ (texts.flatMap (',' :: start ++ ·)).length := by
  induction texts with
  | nil => exact Nat.zero_le _
  | cons text texts ih =>
    simp only [List.flatMap_cons, List.length_append, List.length_cons]
    omega

theorem stops_followed (texts : List (List Char)) (inner level : Nat) (rest : List Char) :
    Stops (texts.flatMap (',' :: newLine inner ++ ·) ++ (newLine level ++ rest)) := by
  cases texts with
  | nil => exact stops_newLine level _
  | cons => exact stops_cons.2 (by decide)

theorem elements_followed {item : Reader β} {texts : List (List Char)} {xs : List β}
    (h : List.Forall₂ (Reads item) texts xs) (inner level fuel : Nat) (rest : List Char)
    (enough : texts.length < fuel) :
    elements item fuel false
      (texts.flatMap (',' :: newLine inner ++ ·) ++ (newLine level ++ ']' :: rest)) =
        .ok xs (']' :: rest) := by
  induction h generalizing fuel with
  | nil =>
    cases fuel with
    | zero => cases enough
    | succ fuel =>
      rw [elements, run_bind_ok (moreElements_end false (dropWhile_newLine level _))]
      rfl
  | @cons text x texts xs first others ih =>
    cases fuel with
    | zero => cases enough
    | succ fuel =>
      rw [List.flatMap_cons, List.append_assoc, List.append_assoc, List.cons_append, elements,
        run_bind_ok (moreElements_next first.leads rfl
          ((dropWhile_newLine inner _).trans (first.leads.dropWhile _))),
        if_pos rfl, run_bind_ok (first.run_here (stops_followed texts inner level _)),
        run_bind_ok (ih fuel (Nat.lt_of_succ_lt_succ enough))]
      rfl

theorem run_endSequence (rest : List Char) : endSequence (']' :: rest) = .ok ⟨⟩ rest := rfl

theorem elements_framed {item : Reader β} {texts : List (List Char)} {xs : List β}
    (h : List.Forall₂ (Reads item) texts xs) (level : Nat) (rest : List Char) :
    ∃ inner, framed '[' ']' level texts ++ rest = '[' :: inner ∧
      elements item (inner.length + 1) true inner = .ok xs (']' :: rest) := by
  cases h with
  | nil => exact ⟨']' :: rest, rfl, rfl⟩
  | @cons text x texts xs first others =>
    refine ⟨newLine (level + 1) ++ (text ++ (texts.flatMap (',' :: newLine (level + 1) ++ ·) ++
      (newLine level ++ ']' :: rest))), by simp [framed_cons], ?_⟩
    have enough := length_le_flatMap (newLine (level + 1)) texts
    rw [elements, run_bind_ok (moreElements_first first.leads
        ((dropWhile_newLine _ _).trans (first.leads.dropWhile _))),
      if_pos rfl, run_bind_ok (first.run_here (stops_followed texts _ level _)),
      run_bind_ok (elements_followed others _ level _ rest (by
        simp only [List.length_append, List.length_cons]
        omega))]
    rfl

theorem run_sequence {item : Reader β} {texts : List (List Char)} {xs : List β}
    (h : List.Forall₂ (Reads item) texts xs) (level : Nat) (rest : List Char) :
    sequence item (framed '[' ']' level texts ++ rest) = .ok xs rest := by
  obtain ⟨inner, text, run⟩ := elements_framed h level rest
  rw [text]
  show (elements item (inner.length + 1) true >>= _) inner = _
  rw [run_bind_ok run, run_bind_ok (run_endSequence rest)]
  rfl

/-! ## Objects -/

theorem run_colon (rest : List Char) : colon (':' :: rest) = .ok ⟨⟩ rest := rfl

theorem nextKey?_end (first : Bool) (h : s.dropWhile isBlank = '\x7d' :: rest) :
    nextKey? first s = .ok none ('\x7d' :: rest) := by
  rw [nextKey?, run_bind_ok (run_peekToken h)]
  rfl

theorem nextKey?_first {name : String}
    (h : s.dropWhile isBlank = quoted name.toList ++ rest) :
    nextKey? true s = .ok (some name) rest := by
  rw [nextKey?, run_bind_ok (run_peekToken h)]
  show (some <$> stringToken) (quoted name.toList ++ rest) = _
  rw [map_eq_pure_bind, run_bind_ok (run_stringToken name rest)]
  rfl

theorem nextKey?_next {name : String} {between : List Char}
    (comma : s.dropWhile isBlank = ',' :: between)
    (h : between.dropWhile isBlank = quoted name.toList ++ rest) :
    nextKey? false s = .ok (some name) rest := by
  rw [nextKey?, run_bind_ok (run_peekToken comma)]
  show (skipChar >>= fun _ => (peekToken >>= _)) (',' :: between) = _
  rw [run_bind_ok (run_skipChar _ _), run_bind_ok (run_peekToken h)]
  show (some <$> stringToken) (quoted name.toList ++ rest) = _
  rw [map_eq_pure_bind, run_bind_ok (run_stringToken name rest)]
  rfl

/-- The text of a member, key and value. -/
def memberText (key : String) (text : List Char) : List Char :=
  quoted key.toList ++ ':' :: ' ' :: text

/-- Reading the members of these texts one after another takes what was gathered before them to
what is gathered behind them. -/
inductive Gathers (member : String → σ → Reader σ) : List (List Char) → σ → σ → Prop where
  | nil {acc : σ} : Gathers member [] acc acc
  | cons {key : String} {text : List Char} {texts : List (List Char)} {acc next last : σ}
      (read : ∀ {rest}, Stops rest → member key acc (':' :: ' ' :: (text ++ rest)) = .ok next rest)
      (others : Gathers member texts next last) :
      Gathers member (memberText key text :: texts) acc last

theorem Gathers.append {member : String → σ → Reader σ} {texts more : List (List Char)}
    {acc next last : σ} (h : Gathers member texts acc next) (h' : Gathers member more next last) :
    Gathers member (texts ++ more) acc last := by
  induction h with
  | nil => exact h'
  | cons read _ ih => exact .cons read (ih h')

theorem Gathers.membersFrom_followed {member : String → σ → Reader σ} {texts : List (List Char)}
    {acc last : σ} (h : Gathers member texts acc last) (inner level fuel : Nat) (rest : List Char)
    (enough : texts.length < fuel) :
    membersFrom member fuel false acc
      (texts.flatMap (',' :: newLine inner ++ ·) ++ (newLine level ++ '\x7d' :: rest)) =
        .ok last ('\x7d' :: rest) := by
  induction h generalizing fuel with
  | nil =>
    cases fuel with
    | zero => cases enough
    | succ fuel =>
      rw [membersFrom, run_bind_ok (nextKey?_end false (dropWhile_newLine level _))]
      rfl
  | @cons key text texts acc next last read others ih =>
    cases fuel with
    | zero => cases enough
    | succ fuel =>
      rw [List.flatMap_cons, List.append_assoc, List.append_assoc, List.cons_append, membersFrom,
        memberText, List.append_assoc,
        run_bind_ok (nextKey?_next rfl
          ((dropWhile_newLine inner _).trans ((leads_quoted key).dropWhile _))),
        List.cons_append, List.cons_append]
      show (member key acc >>= _) _ = _
      rw [run_bind_ok (read (stops_followed texts inner level _)),
        ih fuel (Nat.lt_of_succ_lt_succ enough)]

theorem Gathers.membersFrom_framed {member : String → σ → Reader σ} {texts : List (List Char)}
    {start last : σ} (h : Gathers member texts start last) (level : Nat) (rest : List Char) :
    ∃ inner, framed '\x7b' '\x7d' level texts ++ rest = '\x7b' :: inner ∧
      membersFrom member (inner.length + 1) true start inner = .ok last ('\x7d' :: rest) := by
  cases h with
  | nil => exact ⟨'\x7d' :: rest, rfl, rfl⟩
  | @cons key text texts _ next _ read others =>
    refine ⟨newLine (level + 1) ++ (memberText key text ++
      (texts.flatMap (',' :: newLine (level + 1) ++ ·) ++ (newLine level ++ '\x7d' :: rest))),
      by simp [framed_cons], ?_⟩
    have enough := length_le_flatMap (newLine (level + 1)) texts
    rw [membersFrom, memberText, List.append_assoc,
      run_bind_ok (nextKey?_first
        ((dropWhile_newLine _ _).trans ((leads_quoted key).dropWhile _))),
      List.cons_append, List.cons_append]
    show (member key start >>= _) _ = _
    rw [run_bind_ok (read (stops_followed texts _ level _)),
      others.membersFrom_followed _ level _ rest (by
        simp only [List.length_append, List.length_cons]
        omega)]

theorem run_endObject (rest : List Char) : endObject ('\x7d' :: rest) = .ok ⟨⟩ rest := rfl

theorem Gathers.run_members {member : String → σ → Reader σ} {texts : List (List Char)}
    {start last : σ} (h : Gathers member texts start last) (level : Nat) (rest : List Char) :
    members member start (framed '\x7b' '\x7d' level texts ++ rest) = .ok last rest := by
  obtain ⟨inner, text, run⟩ := h.membersFrom_framed level rest
  rw [text]
  show (membersFrom member (inner.length + 1) true start >>= _) inner = _
  rw [run_bind_ok run, run_bind_ok (run_endObject rest)]
  rfl

end TensorGraph.Json
