import TensorGraph.Proofs.Lowering.Layout
import TensorGraph.Proofs.Optimizer.Contract

/-!
# TensorGraph.Proofs.Lowering.Packing

What the weight buffer of a graph holds, and where.

* `Digest.wordsOf`: the words of a list of bytes.
* `pack_tiles`: the entries lie back to back and fill the buffer.
* `constantIds_eq`: they are sorted by first use.
* `pack_entry`: elements and bytes of an entry are the payload of its constant.
* `pack_complete`: in a checked graph every constant has one entry.
-/

namespace TensorGraph

namespace Digest

/-- Bytes in groups of four, as words. Bytes that make no group are left out. -/
def wordsOf : List UInt8 → List UInt32
  | a :: b :: c :: d :: rest => wordOfBytes a b c d :: wordsOf rest
  | _ => []

theorem wordOfBytes_wordBytes (w : UInt32) :
    wordOfBytes w.toUInt8 (w >>> 8).toUInt8 (w >>> 16).toUInt8 (w >>> 24).toUInt8 = w := by
  apply UInt32.toBitVec_inj.1
  simp only [wordOfBytes, UInt32.toBitVec_or, UInt32.toBitVec_shiftLeft, UInt8.toBitVec_toUInt32,
    UInt32.toBitVec_toUInt8, UInt32.toBitVec_shiftRight]
  ext i hi
  have whole := BitVec.getLsbD_eq_getElem (x := w.toBitVec) hi
  -- The four bytes hold the bits below 8, 16, 24 and 32.
  by_cases low : i < 16
  · by_cases first : i < 8
    · simp [whole, first, low, show i < 24 by omega]
    · simp [whole, first, low, show i < 24 by omega, show i - 8 < 8 by omega,
        show 8 + (i - 8) = i by omega]
  · have second : ¬i < 8 := by omega
    by_cases third : i < 24
    · simp [whole, low, second, third, show i - 16 < 8 by omega, show ¬i - 8 < 8 by omega,
        show 16 + (i - 16) = i by omega]
    · simp [whole, low, second, third, show i - 24 < 8 by omega, show ¬i - 8 < 8 by omega,
        show ¬i - 16 < 8 by omega, show 24 + (i - 24) = i by omega]

theorem wordsOf_flatMap (ws : List UInt32) : wordsOf (ws.flatMap wordBytes) = ws := by
  induction ws with
  | nil => rfl
  | cons w ws ih =>
    rw [List.flatMap_cons]
    show wordOfBytes _ _ _ _ :: wordsOf (ws.flatMap wordBytes) = w :: ws
    rw [wordOfBytes_wordBytes, ih]

theorem drop_flatMap_wordBytes (ws : List UInt32) (n : Nat) :
    (ws.flatMap wordBytes).drop (4 * n) = (ws.drop n).flatMap wordBytes := by
  induction n generalizing ws with
  | zero => rfl
  | succ n ih =>
    cases ws with
    | nil => rfl
    | cons w ws => exact ih ws

theorem take_flatMap_wordBytes (ws : List UInt32) (n : Nat) :
    (ws.flatMap wordBytes).take (4 * n) = (ws.take n).flatMap wordBytes := by
  induction n generalizing ws with
  | zero => rfl
  | succ n ih =>
    cases ws with
    | nil => rfl
    | cons w ws => exact congrArg (wordBytes w ++ ·) (ih ws)

end Digest

/-- The digits behind the first character of its text are the number of an id. -/
theorem VariableId.text_injective : Function.Injective VariableId.text := by
  have back : Function.LeftInverse
      (fun text : String => VariableId.mk (Nat.ofDigitChars 10 (text.toList.drop 1) 0))
      VariableId.text := by
    rintro ⟨n⟩
    show VariableId.mk (Nat.ofDigitChars 10 (("v" ++ n.repr).toList.drop 1) 0) = ⟨n⟩
    rw [String.toList_append, Nat.toList_repr]
    exact congrArg VariableId.mk Nat.ofDigitChars_ten_toDigits
  exact back.injective

open Layout

namespace WeightBuffer

variable {α : Type} {g : Graph α} {order : List OperatorId}

/-- An entry is appended where the buffer ends. -/
theorem append_tiles {b : WeightBuffer α}
    (h : Tiles WeightEntry.offset WeightEntry.length 0 b.entries b.byteLength) (v : VariableId)
    (values : Array α) : Tiles WeightEntry.offset WeightEntry.length 0 (b.append v values).entries
      (b.append v values).byteLength := by
  have grown : (b.append v values).byteLength = b.byteLength + 4 * values.size := by
    rw [byteLength, byteLength, append, List.length_append, Array.length_toList, Nat.mul_add]
  rw [grown]
  exact h.concat rfl

theorem appendNew_tiles {b : WeightBuffer α}
    (h : Tiles WeightEntry.offset WeightEntry.length 0 b.entries b.byteLength)
    (seen vs : List VariableId) : Tiles WeightEntry.offset WeightEntry.length 0
      (appendNew g b seen vs).entries (appendNew g b seen vs).byteLength := by
  induction vs generalizing b seen with
  | nil => exact h
  | cons v rest ih =>
    rw [appendNew]
    split
    · exact ih h seen
    · split
      · exact ih h seen
      · exact ih (append_tiles h v _) (v :: seen)

/-- Entries leave no gap and do not overlap. -/
theorem pack_tiles (g : Graph α) (order : List OperatorId) :
    Tiles WeightEntry.offset WeightEntry.length 0 (pack g order).entries
      (pack g order).byteLength := by
  refine appendNew_tiles ?_ [] _
  rfl

/-- The constants among the operands, as the operators read them. -/
def readConstants (g : Graph α) (order : List OperatorId) : List VariableId :=
  (order.flatMap (operandsOf g)).filter g.isConstant

/-- The constants among the outputs of a graph. -/
def constantOutputs (g : Graph α) : List VariableId := g.outputs.filter g.isConstant

theorem constantIds_eq (g : Graph α) (order : List OperatorId) : constantIds g order =
    (readConstants g order).eraseDups ++
      ((constantOutputs g).removeAll (readConstants g order)).eraseDups := by
  rw [constantIds, fresh_eq, removeAll_nil, List.filter_append, List.eraseDups_append]
  rfl

theorem entries_ids (h : g.Linked) :
    (pack g order).entries.map WeightEntry.id = constantIds g order := by
  rw [pack_eq h, List.map_map]
  exact List.map_id _

theorem entryOfText?_iff (h : g.Linked) {text : String} {e : WeightEntry} :
    (pack g order).entryOfText? text = some e ↔
      e ∈ (pack g order).entries ∧ e.id.text = text := by
  have texts : (pack g order).entries.map (fun e => e.id.text) =
      (constantIds g order).map VariableId.text := by
    rw [← entries_ids h, List.map_map]
    rfl
  have distinct : ((pack g order).entries.map fun e => e.id.text).Nodup :=
    texts ▸ (fresh_nodup _ _ _).map VariableId.text_injective
  exact find?_key_iff distinct

/-- The elements of an entry are those of its constant. -/
theorem pack_entry (h : g.Linked) {e : WeightEntry} (mem : e ∈ (pack g order).entries) :
    ∃ x, g.payload? e.id = some x ∧ (pack g order).values e = x.toList ∧ e.offset = 4 * e.start ∧
      e.length = 4 * x.size := by
  rw [pack_eq h] at mem
  obtain ⟨v, hv, rfl⟩ := List.mem_map.1 mem
  have lengths : ∀ u ∈ constantIds g order, (elementsOf g u).length = g.elements u :=
    fun u hu => elementsOf_length h (mem_fresh.1 hu).2.1
  obtain ⟨x, payload⟩ := Option.isSome_iff_exists.1 (mem_fresh.1 hv).2.1
  have elements : elementsOf g v = x.toList := by rw [elementsOf, payload]; rfl
  have size : g.elements v = x.size := by
    rw [← lengths v hv, elements, Array.length_toList]
  have start : (entryIn g 0 (constantIds g order) v).start =
      startIn g.elements (constantIds g order) v := by
    show 4 * (0 + _) / 4 = _
    omega
  have length : (entryIn g 0 (constantIds g order) v).length / 4 = g.elements v := by
    show 4 * _ / 4 = _
    omega
  refine ⟨x, payload, ?_, ?_, ?_⟩
  · rw [values, start, length, pack_eq h, segment_startIn lengths hv, elements]
  · rw [start]
    show 4 * (0 + _) = _
    rw [Nat.zero_add]
  · show 4 * g.elements v = _
    rw [size]

theorem bytes_eq (b : WeightBuffer Binary32) :
    b.bytes = (b.data.map Binary32.bits).flatMap Digest.wordBytes := by
  rw [bytes, List.flatMap_map]

theorem length_bytes (b : WeightBuffer Binary32) : b.bytes.length = b.byteLength := by
  rw [bytes, byteLength, List.length_flatMap]
  simp [Nat.mul_comm]

/-- The words in a span of the bytes are the elements in the span that is a quarter of it. -/
theorem wordsOf_span (b : WeightBuffer Binary32) (start length : Nat) :
    Digest.wordsOf ((b.bytes.drop (4 * start)).take (4 * length)) =
      ((b.data.drop start).take length).map Binary32.bits := by
  rw [bytes_eq, Digest.drop_flatMap_wordBytes, Digest.take_flatMap_wordBytes,
    Digest.wordsOf_flatMap, List.map_take, List.map_drop]

/-- The constants of a checked graph are used, so the packing meets them. -/
theorem mem_constantIds_iff [Scalar α] (checked : g.Checked)
    (sorted : g.topologicalOrder = .ok order) {v : VariableId} :
    v ∈ constantIds g order ↔ g.isConstant v = true := by
  obtain ⟨linked, ⟨rank, sound⟩, needed⟩ := checked.tidy
  refine ⟨fun mem => (mem_fresh.1 mem).2.1, fun constant => Device.mem_constantIds constant ?_⟩
  have set := Graph.isConstant_iff.1 constant
  rcases needed v (Outline.live_of_payload set) with ⟨o, write⟩ | ⟨o, read⟩ | input | output
  · exact absurd (sound.computed write) set
  · have sweep := topologicalOrder_sorted linked sorted
    exact .inl ⟨o, (sweep.mem_iff o).2 (read.imp fun _ found => found.1), read⟩
  · exact absurd (sound.inputs_free input).1 set
  · exact .inr output

end WeightBuffer

open WeightBuffer

/-- The buffer of a checked graph has one entry for every constant and no other entries. Constants
that operators read come first, sorted by first use, then the other ones among the outputs of the
graph. The entries lie back to back from the start of the bytes to their end. The words of an entry
and its elements are the payload of its constant, and the text of an id leads to the entry. -/
theorem WeightBuffer.pack_complete {g : Graph Binary32} (checked : g.Checked)
    {order : List OperatorId} (sorted : g.topologicalOrder = .ok order) :
    (∀ v, ((pack g order).entries.map WeightEntry.id).count v =
      if g.isConstant v then 1 else 0) ∧
    (pack g order).entries.map WeightEntry.id = (readConstants g order).eraseDups ++
      ((constantOutputs g).removeAll (readConstants g order)).eraseDups ∧
    Tiles WeightEntry.offset WeightEntry.length 0 (pack g order).entries
      (pack g order).byteLength ∧
    (pack g order).bytes.length = (pack g order).byteLength ∧
    ∀ e ∈ (pack g order).entries, ∃ x, g.payload? e.id = some x ∧
      Digest.wordsOf (((pack g order).bytes.drop e.offset).take e.length) =
        x.toList.map Binary32.bits ∧
      (pack g order).values e = x.toList ∧ (pack g order).entryOfText? e.id.text = some e ∧
      e.offset = 4 * e.start ∧ e.length = 4 * x.size := by
  have linked := checked.reachable.linked
  have ids : (pack g order).entries.map WeightEntry.id = constantIds g order := entries_ids linked
  refine ⟨fun v => ?_, ids.trans (constantIds_eq g order), pack_tiles g order, length_bytes _,
    fun e mem => ?_⟩
  · have once : (constantIds g order).Nodup := fresh_nodup _ _ _
    rw [ids, once.count]
    exact if_congr (mem_constantIds_iff checked sorted) rfl rfl
  · obtain ⟨x, payload, values, offset, length⟩ := pack_entry linked mem
    refine ⟨x, payload, ?_, values, (entryOfText?_iff linked).2 ⟨mem, rfl⟩, offset, length⟩
    rw [offset, length, wordsOf_span]
    have quarter : e.length / 4 = x.size := by omega
    rw [WeightBuffer.values, quarter] at values
    rw [values]

/-- A constant that is read twice and is an output as well, and one that is only an output. -/
def Graph.sharedConstant : Graph Binary32 :=
  afterCalls .empty
    [.addConstant "k" [1] #[3], .addVariable "x" [2], .addConstant "c" [2] #[1, 2],
      .addVariable "y" [2], .addVariable "z" [2],
      .addOperator (.elementwiseAdd none) [⟨1⟩, ⟨2⟩] [⟨3⟩],
      .addOperator (.elementwiseAdd none) [⟨2⟩, ⟨3⟩] [⟨4⟩], .designateInputs [⟨1⟩],
      .designateOutputs [⟨0⟩, ⟨4⟩, ⟨2⟩, ⟨0⟩]]

theorem WeightBuffer.pack_complete_sharedConstant :
    Graph.sharedConstant.Checked ∧ ∃ order, Graph.sharedConstant.topologicalOrder = .ok order ∧
      (pack Graph.sharedConstant order).entries.map WeightEntry.id = [⟨2⟩, ⟨0⟩] ∧
      Tiles WeightEntry.offset WeightEntry.length 0 (pack Graph.sharedConstant order).entries
        (pack Graph.sharedConstant order).byteLength ∧
      (pack Graph.sharedConstant order).bytes.length = 12 := by
  have checked : Graph.sharedConstant.Checked :=
    ⟨Graph.Reachable.empty.afterCalls _, by decide, by decide⟩
  have sorted : Graph.sharedConstant.topologicalOrder = .ok [⟨0⟩, ⟨1⟩] := by decide
  obtain ⟨_, ids, tiles, bytes, _⟩ := pack_complete checked sorted
  exact ⟨checked, _, sorted, ids.trans (by decide), tiles, bytes.trans (by decide)⟩

end TensorGraph
