import TensorGraph.Proofs.Json.Numeral

/-!
# TensorGraph.Proofs.Json.RoundTrip

Documents that are read back as they were printed.

* `Value.Kept`: the documents that a reader can give.
* `gathers_members`: the members of an object come back in the order of their keys.
* `Value.Kept.reads`: every such document comes back, if the texts of its floating-point numbers do.
-/

namespace TensorGraph.Json

open Edit (run_bind_ok)

variable {s rest text : List Char}

/-- The numbers of documents that are read: integers of 64 bits and finite binary64 numbers. -/
def Number.Kept : Number → Prop
  | .integer i => FitsWord i
  | .float x => x.isFinite
  | .single _ => False

namespace Value

/-- The documents that a reader of `depth` levels gives, if their numbers are finite: an object
lists its members in the order of their keys. -/
inductive Kept : Nat → Value → Prop where
  | null {depth : Nat} : Kept depth .null
  | boolean {depth : Nat} (b : Bool) : Kept depth (.boolean b)
  | number {depth : Nat} {n : Number} (h : n.Kept) : Kept depth (.number n)
  | string {depth : Nat} (s : String) : Kept depth (.string s)
  | array {depth : Nat} {items : List Value} (h : ∀ v ∈ items, Kept depth v) :
      Kept (depth + 1) (.array items)
  | object {depth : Nat} {members : Members} (sorted : members.Pairwise (·.1 < ·.1))
      (h : ∀ m ∈ members, Kept depth m.2) : Kept (depth + 1) (.object members)

/-- The number stands in the document. -/
inductive Holds (n : Number) : Value → Prop where
  | number : Holds n (.number n)
  | item {items : List Value} {v : Value} (mem : v ∈ items) (h : Holds n v) :
      Holds n (.array items)
  | member {members : Members} {m : String × Value} (mem : m ∈ members) (h : Holds n m.2) :
      Holds n (.object members)

theorem prettyItems_eq (level : Nat) (items : List Value) :
    prettyItems level items = items.map (prettyAt level) := by
  induction items with
  | nil => rfl
  | cons v items ih => rw [prettyItems, ih]; rfl

theorem prettyMembers_eq (level : Nat) (members : Members) :
    prettyMembers level members = members.map fun m => memberText m.1 (prettyAt level m.2) := by
  induction members with
  | nil => rfl
  | cons m members ih => rw [prettyMembers, ih]; rfl

end Value

/-! ## Members in order -/

theorem Members.insert_last {key : String} {v : Value} {members : Members}
    (last : ∀ m ∈ members, m.1 < key) : members.insert key v = members ++ [(key, v)] := by
  induction members with
  | nil => rfl
  | cons m members ih =>
    obtain ⟨before, others⟩ := List.forall_mem_cons.1 last
    have later : ¬ key < m.1 := String.lt_asymm before
    have other : key ≠ m.1 := fun same => String.lt_irrefl key (same ▸ before)
    rw [Members.insert, if_neg later, if_neg other, ih others]
    rfl

/-- The reader of a member that is kept under its key. -/
def keep (item : Reader Value) (key : String) (acc : Members) : Reader Members := do
  colon
  let v ← item
  return Members.insert key v acc

theorem gathers_members {item : Reader Value} {print : Value → List Char} (done members : Members)
    (sorted : (done ++ members).Pairwise (·.1 < ·.1))
    (h : ∀ m ∈ members, Reads item (print m.2) m.2) :
    Gathers (keep item) (members.map fun m => memberText m.1 (print m.2)) done
      (done ++ members) := by
  induction members generalizing done with
  | nil => rw [List.append_nil]; exact .nil
  | cons m members ih =>
    obtain ⟨first, others⟩ := List.forall_mem_cons.1 h
    have split : done ++ m :: members = (done ++ [m]) ++ members := by simp
    have last : ∀ d ∈ done, d.1 < m.1 := fun d hd =>
      (List.pairwise_append.1 sorted).2.2 d hd m List.mem_cons_self
    rw [split] at sorted ⊢
    refine .cons (fun {rest} stops => ?_) (ih (done ++ [m]) sorted others)
    have value : item (' ' :: (print m.2 ++ rest)) = .ok m.2 rest :=
      first.run (first.leads.dropWhile rest) stops
    rw [keep, run_bind_ok (run_colon _), run_bind_ok value, Members.insert_last last]
    rfl

/-! ## Whole values -/

theorem valueWith_number {nested : Option (Reader Value)} (starts : StartsNumber text)
    (front : s.dropWhile isBlank = text ++ rest) :
    valueWith nested s = (.number <$> numberToken) (text ++ rest) := by
  obtain ⟨c, hc, numeric⟩ := starts
  obtain ⟨more, rfl⟩ := List.head?_eq_some_iff.1 hc
  have plain : c ≠ 'n' ∧ c ≠ 't' ∧ c ≠ 'f' := by
    refine ⟨?_, ?_, ?_⟩ <;> (rintro rfl; revert numeric; decide)
  unfold valueWith
  rw [run_bind_ok (run_peekToken front)]
  dsimp only
  rw [if_neg plain.1, if_neg plain.2.1, if_neg plain.2.2, if_pos (by simpa using numeric)]
  rfl

theorem value_eq (depth : Nat) : ∃ nested, value depth = valueWith nested := by
  cases depth <;> exact ⟨_, rfl⟩

theorem valueWith_null {nested : Option (Reader Value)}
    (front : s.dropWhile isBlank = ['n', 'u', 'l', 'l'] ++ rest) :
    valueWith nested s = .ok .null rest := by
  unfold valueWith
  rw [run_bind_ok (run_peekToken front)]
  rfl

theorem valueWith_boolean {nested : Option (Reader Value)} {b : Bool}
    (front : s.dropWhile isBlank =
      (if b then ['t', 'r', 'u', 'e'] else ['f', 'a', 'l', 's', 'e']) ++ rest) :
    valueWith nested s = .ok (.boolean b) rest := by
  unfold valueWith
  cases b <;> (rw [run_bind_ok (run_peekToken front)]; rfl)

theorem valueWith_string {nested : Option (Reader Value)} {name : String}
    (front : s.dropWhile isBlank = quoted name.toList ++ rest) :
    valueWith nested s = .ok (.string name) rest := by
  unfold valueWith
  rw [run_bind_ok (run_peekToken front)]
  show (Value.string <$> stringToken) (quoted name.toList ++ rest) = _
  rw [map_eq_pure_bind, run_bind_ok (run_stringToken name rest)]
  rfl

theorem valueWith_array {item : Reader Value} {texts : List (List Char)} {items : List Value}
    (h : List.Forall₂ (Reads item) texts items) (level : Nat)
    (front : s.dropWhile isBlank = framed '[' ']' level texts ++ rest) :
    valueWith (some item) s = .ok (.array items) rest := by
  obtain ⟨inner, text⟩ := framed_head '[' ']' level texts
  unfold valueWith
  rw [run_bind_ok (run_peekToken (front.trans (congrArg (· ++ rest) text)))]
  show (Value.array <$> sequence item) ('[' :: inner ++ rest) = _
  rw [← text, map_eq_pure_bind, run_bind_ok (run_sequence h level rest)]
  rfl

theorem valueWith_object {item : Reader Value} {texts : List (List Char)} {members : Members}
    (h : Gathers (keep item) texts [] members) (level : Nat)
    (front : s.dropWhile isBlank = framed '\x7b' '\x7d' level texts ++ rest) :
    valueWith (some item) s = .ok (.object members) rest := by
  obtain ⟨inner, text⟩ := framed_head '\x7b' '\x7d' level texts
  unfold valueWith
  rw [run_bind_ok (run_peekToken (front.trans (congrArg (· ++ rest) text)))]
  show (Value.object <$> Json.members (keep item) []) ('\x7b' :: inner ++ rest) = _
  rw [← text, map_eq_pure_bind, run_bind_ok (h.run_members level rest)]
  rfl

theorem Number.Kept.startsNumber {n : Number} (h : n.Kept) : StartsNumber n.text := by
  cases n with
  | integer i => exact startsNumber_integer i
  | float x => exact startsNumber_of_decimal (floatText_decimal rfl _ h)
  | single x => cases h

theorem leads_framed {opening closing : Char} (level : Nat) (items : List (List Char))
    (visible : isBlank opening = false) (start : opening ≠ ']') :
    Leads (framed opening closing level items) := by
  obtain ⟨inner, text⟩ := framed_head opening closing level items
  rw [text]
  exact leads_cons.2 ⟨visible, start⟩

/-- Every document comes back from its text, if its floating-point numbers do. -/
theorem Value.Kept.reads {v : Value} {depth : Nat} (h : v.Kept depth)
    (back : ∀ x, v.Holds (.float x) → ReadsBack x) (level : Nat) :
    Reads (value depth) (v.prettyAt level) v := by
  induction h generalizing level with
  | @null depth =>
    obtain ⟨nested, equal⟩ := value_eq depth
    refine ⟨leads_cons.2 (by decide), fun front _ => ?_⟩
    rw [equal]
    exact valueWith_null front
  | @boolean depth b =>
    obtain ⟨nested, equal⟩ := value_eq depth
    rw [equal]
    cases b with
    | true => exact ⟨leads_cons.2 (by decide), fun front _ => valueWith_boolean front⟩
    | false => exact ⟨leads_cons.2 (by decide), fun front _ => valueWith_boolean front⟩
  | @number depth n kept =>
    obtain ⟨nested, equal⟩ := value_eq depth
    refine ⟨kept.startsNumber.leads, fun {s rest} front stops => ?_⟩
    have token : numberToken (n.text ++ rest) = .ok n rest := by
      cases n with
      | integer i => exact numberToken_integer kept stops
      | float x => exact numberToken_float kept (back x .number) stops
      | single x => cases kept
    rw [equal, valueWith_number kept.startsNumber front, map_eq_pure_bind, run_bind_ok token]
    rfl
  | @string depth name =>
    obtain ⟨nested, equal⟩ := value_eq depth
    refine ⟨leads_quoted name, fun front _ => ?_⟩
    rw [equal]
    exact valueWith_string front
  | @array depth items h ih =>
    refine ⟨leads_framed level _ (by decide) (by decide),
      fun front _ => valueWith_array ?_ level front⟩
    rw [prettyItems_eq, List.forall₂_map_left_iff, List.forall₂_same]
    exact fun v mem => ih v mem (fun x holds => back x (.item mem holds)) (level + 1)
  | @object depth members sorted h ih =>
    refine ⟨leads_framed level _ (by decide) (by decide),
      fun front _ => valueWith_object ?_ level front⟩
    rw [prettyMembers_eq]
    exact gathers_members [] members sorted fun m mem =>
      ih m mem (fun x holds => back x (.member mem holds)) (level + 1)

end TensorGraph.Json
