import TensorGraph.Proofs.Decimal.Layout
import TensorGraph.Proofs.Graph.Validation
import TensorGraph.Proofs.Json.Reading

/-!
# TensorGraph.Proofs.Json.Numeral

Numbers as they are printed and read.

* `numberToken_append`: a number that is read from a text alone is read from it in front of any
  text that does not go on with it.
* `numberToken_integer`: integers of 64 bits come back, signed or not.
* `plain_of_integer`: a text with a point or an exponent is not read as an integer.
* `numberToken_float`: so a finite binary64 number comes back if its text, read as a document, has
  its value.
-/

namespace TensorGraph.Json

open Edit (run_bind run_bind_ok run_bind_ok_iff)
open TensorGraph.Graph (except_bind_ok_iff)

variable {text rest left : List Char}

/-! ## Parts of a number -/

theorem isDigit_eq (c : Char) : isDigit c = c.isDigit := by
  rw [Bool.eq_iff_iff]
  simp only [isDigit, Char.isDigit, Bool.and_eq_true, decide_eq_true_eq]
  rfl

/-- The text starts like a number. -/
def StartsNumber (text : List Char) : Prop := ∃ c ∈ text.head?, c = '-' ∨ isDigit c

theorem isBlank_of_isDigit {c : Char} (h : isDigit c) : isBlank c = false := by
  by_contra blank
  simp only [isBlank, Bool.not_eq_false, Bool.or_eq_true, decide_eq_true_eq] at blank
  rcases blank with ((rfl | rfl) | rfl) | rfl <;> cases h

theorem StartsNumber.leads (h : StartsNumber text) : Leads text := by
  obtain ⟨c, hc, rfl | digit⟩ := h
  · exact ⟨'-', hc, by decide⟩
  · refine ⟨c, hc, isBlank_of_isDigit digit, ?_⟩
    rintro rfl
    cases digit

theorem StartsNumber.run_number {s : List Char} {wanted : String} (h : StartsNumber text)
    (front : s.dropWhile isBlank = text ++ rest) :
    number wanted s = numberToken (text ++ rest) := by
  obtain ⟨c, hc, numeric⟩ := h
  obtain ⟨more, rfl⟩ := List.head?_eq_some_iff.1 hc
  rw [number, run_bind_ok (run_peekToken front)]
  show (if c = '-' || isDigit c then numberToken else unexpected wanted) _ = _
  rw [if_pos (by simpa using numeric)]
  rfl

/-- The text does not start with a digit. -/
def NoDigit (text : List Char) : Prop := ∀ c ∈ text.head?, isDigit c = false

theorem NoDigit.append (h : NoDigit left) (stops : Stops rest) : NoDigit (left ++ rest) := by
  cases left with
  | nil => exact fun c hc => (stops c hc).1
  | cons c left => exact h

theorem digits1_ok_iff {ds : List Char} :
    digits1 text = .ok (ds, left) ↔
      text = ds ++ left ∧ ds ≠ [] ∧ (∀ c ∈ ds, isDigit c) ∧ NoDigit left := by
  constructor
  · intro h
    rw [digits1] at h
    split at h
    · cases h
    · next found =>
      cases h
      refine ⟨List.takeWhile_append_dropWhile.symm, by simpa using found,
        List.all_eq_true.1 List.all_takeWhile, fun c hc => ?_⟩
      simpa [Option.mem_def.1 hc] using List.head?_dropWhile_not isDigit text
  · rintro ⟨rfl, some, digits, stop⟩
    have rest : left.takeWhile isDigit = [] ∧ left.dropWhile isDigit = left := by
      cases left with
      | nil => exact ⟨rfl, rfl⟩
      | cons c left => simp [stop c rfl]
    rw [digits1, List.takeWhile_append_of_pos digits, List.dropWhile_append_of_pos digits, rest.1,
      rest.2, List.append_nil]
    simp [some]

theorem digits1_append {ds : List Char} (h : digits1 text = .ok (ds, left)) (stops : Stops rest) :
    digits1 (text ++ rest) = .ok (ds, left ++ rest) := by
  obtain ⟨rfl, some, digits, stop⟩ := digits1_ok_iff.1 h
  exact digits1_ok_iff.2 ⟨List.append_assoc .., some, digits, stop.append stops⟩

theorem wholeDigits_ok_iff {ds : List Char} :
    wholeDigits text = .ok (ds, left) ↔
      digits1 text = .ok (ds, left) ∧ ∀ c more, ds ≠ '0' :: c :: more := by
  rw [wholeDigits, except_bind_ok_iff]
  constructor
  · rintro ⟨⟨ds, left⟩, read, h⟩
    dsimp only at h
    split at h
    · cases h
    · next plain => cases h; exact ⟨read, plain⟩
  · rintro ⟨read, plain⟩
    refine ⟨(ds, left), read, ?_⟩
    dsimp only
    split
    · next same => exact absurd rfl (plain _ _)
    · rfl

theorem fractionDigits?_none (h : text.head? ≠ some '.') :
    fractionDigits? text = .ok (none, text) := by
  unfold fractionDigits?
  split
  · exact absurd rfl h
  · rfl

theorem exponent?_none (h : ∀ c ∈ text.head?, isExponentMark c = false) :
    exponent? text = .ok (none, text) := by
  cases text with
  | nil => rfl
  | cons c text =>
    rw [exponent?, h c rfl]
    rfl

theorem head?_append_of_stops {p : Char → Prop} (h : ∀ c ∈ left.head?, p c)
    (stops : ∀ c ∈ rest.head?, p c) : ∀ c ∈ (left ++ rest).head?, p c := by
  cases left with
  | nil => exact stops
  | cons => exact h

theorem fractionDigits?_append {f : Option (List Char)}
    (h : fractionDigits? text = .ok (f, left)) (stops : Stops rest) :
    fractionDigits? (text ++ rest) = .ok (f, left ++ rest) := by
  by_cases point : text.head? = some '.'
  · obtain ⟨more, rfl⟩ := List.head?_eq_some_iff.1 point
    obtain ⟨⟨ds, left'⟩, read, done⟩ := except_bind_ok_iff.1 h
    cases done
    exact except_bind_ok_iff.2 ⟨_, digits1_append read stops, rfl⟩
  · rw [fractionDigits?_none point] at h
    cases h
    refine fractionDigits?_none fun same => ?_
    exact head?_append_of_stops (p := (· ≠ '.')) (fun c hc same => point (same ▸ hc))
      (fun c hc => (stops c hc).2.1) _ same rfl

theorem exponentSign_append (some : text ≠ []) :
    exponentSign (text ++ rest) = ((exponentSign text).1, (exponentSign text).2 ++ rest) := by
  obtain ⟨c, text, rfl⟩ := List.exists_cons_of_ne_nil some
  rw [List.cons_append]
  unfold exponentSign
  split
  · next same => cases same; rfl
  · next same => cases same; rfl
  · split <;> simp_all

theorem exponent?_append {e : Option Int}
    (h : exponent? text = .ok (e, left)) (stops : Stops rest) :
    exponent? (text ++ rest) = .ok (e, left ++ rest) := by
  by_cases marked : ∃ c ∈ text.head?, isExponentMark c
  · obtain ⟨c, hc, mark⟩ := marked
    obtain ⟨more, rfl⟩ := List.head?_eq_some_iff.1 hc
    rw [exponent?, if_pos mark] at h
    obtain ⟨⟨ds, left'⟩, read, done⟩ := except_bind_ok_iff.1 h
    have some : more ≠ [] := by
      rintro rfl
      cases read
    cases done
    rw [List.cons_append, exponent?, if_pos mark, exponentSign_append some]
    exact except_bind_ok_iff.2 ⟨_, digits1_append read stops, rfl⟩
  · have plain : ∀ c ∈ text.head?, isExponentMark c = false := by simpa using marked
    rw [exponent?_none plain] at h
    cases h
    exact exponent?_none (head?_append_of_stops plain fun c hc => (stops c hc).2.2)

theorem numeral_ok_iff {n : Numeral} :
    numeral text = .ok (n, left) ↔ ∃ behindWhole behindFraction,
      wholeDigits text = .ok (n.whole, behindWhole) ∧
      fractionDigits? behindWhole = .ok (n.fraction, behindFraction) ∧
      exponent? behindFraction = .ok (n.exponent, left) := by
  simp only [numeral, except_bind_ok_iff]
  constructor
  · rintro ⟨⟨whole, s⟩, h, ⟨fraction, s'⟩, h', ⟨exponent, s''⟩, h'', done⟩
    cases done
    exact ⟨s, s', h, h', h''⟩
  · rintro ⟨s, s', h, h', h''⟩
    exact ⟨_, h, _, h', _, h'', rfl⟩

theorem numberToken_ok_iff {x : Number} :
    numberToken text = .ok x left ↔ ∃ negative unsigned n, minus text = .ok negative unsigned ∧
      numeral unsigned = .ok (n, left) ∧ n.number negative = .ok x := by
  simp only [numberToken, run_bind_ok_iff, front_ok_iff]
  constructor
  · rintro ⟨negative, unsigned, signed, n, left', read, h⟩
    refine ⟨negative, unsigned, n, signed, ?_⟩
    cases number : n.number negative with
    | ok y => rw [number] at h; cases h; exact ⟨read, rfl⟩
    | error fault => rw [number] at h; cases h
  · rintro ⟨negative, unsigned, n, signed, read, number⟩
    refine ⟨negative, unsigned, signed, n, left, read, ?_⟩
    rw [number]
    rfl

theorem numeral_append {n : Numeral} (h : numeral text = .ok (n, left)) (stops : Stops rest) :
    numeral (text ++ rest) = .ok (n, left ++ rest) := by
  obtain ⟨s, s', whole, fraction, exponent⟩ := numeral_ok_iff.1 h
  obtain ⟨read, plain⟩ := wholeDigits_ok_iff.1 whole
  exact numeral_ok_iff.2 ⟨s ++ rest, s' ++ rest,
    wholeDigits_ok_iff.2 ⟨digits1_append read stops, plain⟩,
    fractionDigits?_append fraction stops, exponent?_append exponent stops⟩

theorem run_minus (text : List Char) : minus ('-' :: text) = .ok true text := rfl

theorem run_minus_none (h : text.head? ≠ some '-') : minus text = .ok false text := by
  cases text with
  | nil => rfl
  | cons c text =>
    have other : c ≠ '-' := fun same => h (congrArg some same)
    rw [minus, run_bind_ok (rfl : (get : Reader (List Char)) (c :: text) = _)]
    simp only [List.cons.injEq, other, false_and, imp_self, implies_true]
    rfl

/-- A number that is read from a text alone is read from it in front of any text that does not go on
with the number. -/
theorem numberToken_append {x : Number} (h : numberToken text = .ok x left) (stops : Stops rest) :
    numberToken (text ++ rest) = .ok x (left ++ rest) := by
  obtain ⟨negative, unsigned, n, signed, read, number⟩ := numberToken_ok_iff.1 h
  refine numberToken_ok_iff.2
    ⟨negative, unsigned ++ rest, n, ?_, numeral_append read stops, number⟩
  by_cases sign : text.head? = some '-'
  · obtain ⟨more, rfl⟩ := List.head?_eq_some_iff.1 sign
    cases signed
    rfl
  · rw [run_minus_none sign] at signed
    cases signed
    cases text with
    | nil => cases read
    | cons c text => exact run_minus_none sign

/-! ## Integers -/

theorem isDigit_of_mem_toDigits {n : Nat} {c : Char} (h : c ∈ Nat.toDigits 10 n) : isDigit c := by
  rw [isDigit_eq]
  exact DecimalText.isDigit_of_mem_toDigits c h

/-- Only zero starts with a zero. -/
theorem head?_toDigits_ne (n : Nat) (positive : 0 < n) :
    (Nat.toDigits 10 n).head? ≠ some '0' := by
  have small : ∀ n < 10, 0 < n → n.digitChar ≠ '0' := by decide
  induction n using Nat.strongRecOn with
  | ind n ih =>
    rw [Nat.toDigits_eq_if (by decide)]
    split
    · next single => exact fun same => small n single positive (Option.some.inj same)
    · next more =>
      rw [List.head?_append_of_ne_nil _ Nat.toDigits_ne_nil]
      exact ih (n / 10) (by omega) (by omega)

theorem toDigits_plain (n : Nat) (c : Char) (more : List Char) :
    Nat.toDigits 10 n ≠ '0' :: c :: more := by
  intro same
  rcases Nat.eq_zero_or_pos n with rfl | positive
  · rw [Nat.toDigits_zero] at same
    cases same
  · exact head?_toDigits_ne n positive (congrArg List.head? same)

theorem le_ofDigitChars (ds : List Char) (n : Nat) : n ≤ Nat.ofDigitChars 10 ds n := by
  rw [Nat.ofDigitChars_eq_ofDigitChars_zero]
  exact Nat.le_add_right_of_le (Nat.le_mul_of_pos_left n (Nat.pow_pos (by decide)))

/-- Digits of a number of 64 bits all fit the significand. -/
theorem appendDigits_eq (ds : List Char) (n : Nat)
    (fits : Nat.ofDigitChars 10 ds n < 0x10000000000000000) :
    appendDigits n ds = (Nat.ofDigitChars 10 ds n, ds.length) := by
  induction ds generalizing n with
  | nil => rfl
  | cons c ds ih =>
    have next : 10 * n + (c.toNat - '0'.toNat) = n * 10 + digitValue c := by
      rw [digitValue, Nat.mul_comm]
    rw [Nat.ofDigitChars_cons, next] at fits ⊢
    have bound := Nat.lt_of_le_of_lt (le_ofDigitChars ds (n * 10 + digitValue c)) fits
    rw [appendDigits, if_pos bound, ih _ fits]
    rfl

theorem numeral_toDigits (n : Nat) (stops : Stops rest) :
    numeral (Nat.toDigits 10 n ++ rest) = .ok (⟨Nat.toDigits 10 n, none, none⟩, rest) :=
  numeral_ok_iff.2 ⟨rest, rest,
    wholeDigits_ok_iff.2 ⟨digits1_ok_iff.2 ⟨rfl, Nat.toDigits_ne_nil,
      fun _ => isDigit_of_mem_toDigits, fun c hc => (stops c hc).1⟩, toDigits_plain n⟩,
    fractionDigits?_none fun point => (stops _ point).2.1 rfl,
    exponent?_none fun c hc => (stops c hc).2.2⟩

theorem number_toDigits {n : Nat} (fits : n < 0x10000000000000000) (negative : Bool) :
    Numeral.number ⟨Nat.toDigits 10 n, none, none⟩ negative = .ok (integerOf negative n) := by
  have all := appendDigits_eq (Nat.toDigits 10 n) 0
    (by rw [Nat.ofDigitChars_ten_toDigits]; exact fits)
  rw [Nat.ofDigitChars_ten_toDigits] at all
  simp [Numeral.number, all]

/-- The integers that a document keeps: those of 64 bits, signed or not. -/
def FitsWord (i : Int) : Prop := -0x8000000000000000 ≤ i ∧ i < 0x10000000000000000

theorem toDigits_cons (n : Nat) : ∃ d ds, Nat.toDigits 10 n = d :: ds ∧ isDigit d := by
  obtain ⟨d, ds, front⟩ := List.exists_cons_of_ne_nil (@Nat.toDigits_ne_nil n 10)
  have mem : d ∈ Nat.toDigits 10 n := by
    rw [front]
    exact List.mem_cons_self
  exact ⟨d, ds, front, isDigit_of_mem_toDigits mem⟩

theorem startsNumber_integer (i : Int) : StartsNumber (Number.integer i).text := by
  cases i with
  | ofNat n =>
    obtain ⟨d, ds, text, digit⟩ := toDigits_cons n
    exact ⟨d, congrArg List.head? text, .inr digit⟩
  | negSucc n => exact ⟨'-', rfl, .inl rfl⟩

theorem numberToken_integer {i : Int} (fits : FitsWord i) (stops : Stops rest) :
    numberToken ((Number.integer i).text ++ rest) = .ok (.integer i) rest := by
  obtain ⟨low, high⟩ := fits
  cases i with
  | ofNat n =>
    have small : n < 0x10000000000000000 := Int.ofNat_lt.1 high
    refine numberToken_ok_iff.2 ⟨false, _, _, run_minus_none fun sign => ?_,
      numeral_toDigits n stops, number_toDigits small false⟩
    obtain ⟨d, ds, text, digit⟩ := toDigits_cons n
    rw [Number.text, text] at sign
    cases sign
    cases digit
  | negSucc n =>
    have small : n + 1 ≤ 0x8000000000000000 := by omega
    refine numberToken_ok_iff.2 ⟨true, _, _, run_minus _, numeral_toDigits (n + 1) stops, ?_⟩
    rw [number_toDigits (by omega), integerOf]
    have inside : ¬ 0x8000000000000000 < n + 1 := by omega
    simp [inside, Int.negSucc_eq]

/-! ## Floating-point numbers -/

theorem startsNumber_of_decimal (h : DecimalText text) : StartsNumber text := by
  obtain ⟨c, hc, numeric⟩ := h.starts
  exact ⟨c, hc, by rwa [isDigit_eq]⟩

theorem visible_of_decimal (h : DecimalText text) : ∀ c ∈ text, isBlank c = false := by
  intro c hc
  rcases h.spelled c hc with digit | sign
  · exact isBlank_of_isDigit (by rwa [isDigit_eq])
  · have visible : ['-', '+', '.', 'e'].all fun c => !isBlank c := by decide
    simpa using List.all_eq_true.1 visible c sign

/-- The text of a finite number is never `null`. -/
theorem floatText_decimal {layout : DecimalLayout} (fractional : layout.fractional)
    (f : Float.Model.Format) {u : Float.Model.UnpackedFloat} (finite : u.isFinite) :
    DecimalText (Number.floatText layout f u) := by
  have same : Number.floatText layout f u = (layout.text f u).toList := by
    cases u with
    | infinity s => cases finite
    | notANumber => cases finite
    | zero s => rfl
    | finite s m e positive => rfl
  rw [same]
  exact .of_finite fractional f finite

/-! ## Numbers on their own -/

theorem fractionDigits?_left {f : Option (List Char)} (h : fractionDigits? text = .ok (f, left)) :
    left <:+ text ∧ (f = none → left = text) := by
  by_cases point : text.head? = some '.'
  · obtain ⟨more, rfl⟩ := List.head?_eq_some_iff.1 point
    obtain ⟨⟨ds, left'⟩, read, done⟩ := except_bind_ok_iff.1 h
    cases done
    obtain ⟨rfl, -⟩ := digits1_ok_iff.1 read
    exact ⟨⟨'.' :: ds, rfl⟩, nofun⟩
  · rw [fractionDigits?_none point] at h
    cases h
    exact ⟨List.suffix_rfl, fun _ => rfl⟩

theorem exponentSign_left (text : List Char) : (exponentSign text).2 <:+ text := by
  unfold exponentSign
  split
  · exact List.suffix_cons ..
  · exact List.suffix_cons ..
  · exact List.suffix_rfl

theorem exponent?_left {e : Option Int} (h : exponent? text = .ok (e, left)) :
    left <:+ text ∧ (e = none → left = text) := by
  by_cases marked : ∃ c ∈ text.head?, isExponentMark c
  · obtain ⟨c, hc, mark⟩ := marked
    obtain ⟨more, rfl⟩ := List.head?_eq_some_iff.1 hc
    rw [exponent?, if_pos mark] at h
    obtain ⟨⟨ds, left'⟩, read, done⟩ := except_bind_ok_iff.1 h
    cases done
    obtain ⟨same, -⟩ := digits1_ok_iff.1 read
    have inside : left <:+ (exponentSign more).2 := ⟨ds, same.symm⟩
    exact ⟨inside.trans ((exponentSign_left more).trans (List.suffix_cons ..)), nofun⟩
  · rw [exponent?_none (by simpa using marked)] at h
    cases h
    exact ⟨List.suffix_rfl, fun _ => rfl⟩

theorem minus_left {negative : Bool} {unsigned : List Char}
    (h : minus text = .ok negative unsigned) : text = unsigned ∨ text = '-' :: unsigned := by
  by_cases sign : text.head? = some '-'
  · obtain ⟨more, rfl⟩ := List.head?_eq_some_iff.1 sign
    cases h
    exact .inr rfl
  · rw [run_minus_none sign] at h
    cases h
    exact .inl rfl

theorem numberToken_left {x : Number} (h : numberToken text = .ok x left) : left <:+ text := by
  obtain ⟨negative, unsigned, n, signed, read, -⟩ := numberToken_ok_iff.1 h
  obtain ⟨s, s', whole, fraction, exponent⟩ := numeral_ok_iff.1 read
  obtain ⟨same, -⟩ := digits1_ok_iff.1 (wholeDigits_ok_iff.1 whole).1
  have behind : s <:+ unsigned := ⟨n.whole, same.symm⟩
  have inside : left <:+ unsigned :=
    (exponent?_left exponent).1.trans ((fractionDigits?_left fraction).1.trans behind)
  rcases minus_left signed with rfl | rfl
  · exact inside
  · exact inside.trans (List.suffix_cons ..)

/-- Only a numeral of whole digits stands for an integer. -/
theorem whole_of_integer {n : Numeral} {negative : Bool} {i : Int}
    (h : n.number negative = .ok (.integer i)) : n.fraction = none ∧ n.exponent = none := by
  simp only [Numeral.number] at h
  split at h
  · next plain => simp_all
  · obtain ⟨x, -, done⟩ := except_bind_ok_iff.1 h
    cases done

/-- The text of an integer has neither a point nor an exponent. -/
theorem plain_of_integer {i : Int} (h : numberToken text = .ok (.integer i) []) :
    ∀ c ∈ text, c = '-' ∨ isDigit c := by
  obtain ⟨negative, unsigned, n, signed, read, number⟩ := numberToken_ok_iff.1 h
  obtain ⟨s, s', whole, fraction, exponent⟩ := numeral_ok_iff.1 read
  obtain ⟨same, -, digits, -⟩ := digits1_ok_iff.1 (wholeDigits_ok_iff.1 whole).1
  have plain := whole_of_integer number
  have ended : s = [] := by
    rw [← (fractionDigits?_left fraction).2 plain.1, ← (exponent?_left exponent).2 plain.2]
  rw [ended, List.append_nil] at same
  subst same
  rcases minus_left signed with rfl | rfl
  · exact fun c hc => .inr (digits c hc)
  · exact List.forall_mem_cons.2 ⟨.inl rfl, fun c hc => .inr (digits c hc)⟩

theorem eq_ok_of_toOption {ε β : Type} {e : Except ε β} {x : β} (h : e.toOption = some x) :
    e = .ok x := by
  cases e with
  | error => cases h
  | ok y => exact congrArg Except.ok (Option.some.inj h)

theorem readAll_ok_iff {β : Type} {r : Reader β} {source : String} {x : β} :
    readAll r source = .ok x ↔
      ∃ left, r source.toList = .ok x left ∧ left.dropWhile isBlank = [] := by
  rw [readAll, EStateM.run, document, run_bind]
  cases r source.toList with
  | error fault left => simp
  | ok y left =>
    dsimp only
    rw [run_bind_ok (peekToken_eq left)]
    cases ended : left.dropWhile isBlank with
    | nil =>
      show Except.ok y = _ ↔ _
      simp only [Except.ok.injEq, EStateM.Result.ok.injEq]
      exact ⟨fun same => ⟨left, ⟨same, rfl⟩, ended⟩, fun ⟨_, ⟨same, _⟩, _⟩ => same⟩
    | cons c rest =>
      show Except.error Fault.trailingCharacters = _ ↔ _
      simp only [EStateM.Result.ok.injEq]
      refine ⟨nofun, ?_⟩
      rintro ⟨_, ⟨-, rfl⟩, blank⟩
      cases ended.symm.trans blank

/-- A text of its own that reads as a number is used up. -/
theorem numberToken_of_number {n : Number} {wanted : String} (shape : DecimalText text)
    (h : number wanted text = .ok n left) (blank : left.dropWhile isBlank = []) :
    numberToken text = .ok n [] := by
  have token : numberToken text = .ok n left := by
    have front : text.dropWhile isBlank = text ++ [] := by
      simpa using (startsNumber_of_decimal shape).leads.dropWhile []
    rw [← List.append_nil text, ← (startsNumber_of_decimal shape).run_number front, h]
  cases left with
  | nil => exact token
  | cons c left =>
    have inside := (numberToken_left token).subset List.mem_cons_self
    rw [List.dropWhile_cons_of_neg (by simp [visible_of_decimal shape c inside])] at blank
    cases blank

/-- Reading the text of a binary64 number as a document gives a number of the same value. -/
def ReadsBack (x : Float) : Prop :=
  ((readAll (number "f64") (.ofList (Number.float x).text)).toOption.bind
    fun n => (Value.number n).float?) = some x

/-- A finite binary64 number comes back as one, and not as an integer of the same value. -/
theorem numberToken_float {x : Float} (finite : x.isFinite) (back : ReadsBack x)
    (stops : Stops rest) :
    numberToken ((Number.float x).text ++ rest) = .ok (.float x) rest := by
  have shape : DecimalText (Number.float x).text := floatText_decimal rfl _ finite
  obtain ⟨n, read, same⟩ := Option.bind_eq_some_iff.1 back
  obtain ⟨left, run, blank⟩ := readAll_ok_iff.1 (eq_ok_of_toOption read)
  rw [String.toList_ofList] at run
  have token := numberToken_of_number shape run blank
  have kept : n = .float x := by
    cases n with
    | integer i =>
      obtain ⟨c, hc, mark⟩ := shape.marked
      rcases plain_of_integer token c hc with rfl | digit
      · rcases mark with mark | mark <;> cases mark
      · rcases mark with rfl | rfl <;> cases digit
    | float y => exact congrArg Number.float (Option.some.inj same)
    | single y => cases same
  rw [kept] at token
  exact numberToken_append token stops

end TensorGraph.Json
