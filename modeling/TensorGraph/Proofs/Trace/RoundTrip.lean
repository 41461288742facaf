import TensorGraph.Proofs.Json.RoundTrip
import TensorGraph.Trace.Document

/-!
# TensorGraph.Proofs.Trace.RoundTrip

Traces that are read back as they were written.

* `Trace.Storable`: traces that a document can hold.
* `Trace.ofJson_toJson`: they come back from their document, if each of their floating-point
  numbers comes back from its text.
-/

namespace TensorGraph

open Json (Reads Gathers Stops memberText)
open Edit (run_bind_ok run_bind_ok_iff)

namespace TraceDocument

variable {β γ σ : Type} {s rest text : List Char}

/-! ## Readers of parts -/

theorem reads_map {r : Json.Reader β} {x : β} (h : Reads r text x) (f : β → γ) :
    Reads (f <$> r) text (f x) where
  leads := h.leads
  run front stops := by
    rw [map_eq_pure_bind, run_bind_ok (h.run front stops)]
    rfl

theorem reads_listOf {item : Json.Reader β} {texts : List (List Char)} {xs : List β}
    (h : List.Forall₂ (Reads item) texts xs) (level : Nat) :
    Reads (Json.listOf item) (Json.framed '[' ']' level texts) xs where
  leads := Json.leads_framed level texts (by decide) (by decide)
  run {s rest} front _ := by
    obtain ⟨inner, text⟩ := Json.framed_head '[' ']' level texts
    rw [Json.listOf, run_bind_ok (Json.run_peekToken (front.trans (congrArg (· ++ rest) text)))]
    show Json.sequence item ('[' :: inner ++ rest) = _
    rw [← text]
    exact Json.run_sequence h level rest

/-- What is printed is never `null`, and so is not passed over. -/
theorem reads_optional {item : Json.Reader β} {x : β} (h : Reads item text x)
    (present : text.head? ≠ some 'n') : Reads (Json.optional item) text (some x) where
  leads := h.leads
  run {s rest} front stops := by
    obtain ⟨c, hc, -⟩ := h.leads
    obtain ⟨more, rfl⟩ := List.head?_eq_some_iff.1 hc
    have other : c ≠ 'n' := fun same => present (congrArg some same)
    rw [Json.optional, run_bind_ok (Json.run_peekToken front)]
    simp only [Option.some.injEq, other, imp_self, List.append_eq]
    exact (reads_map h some).run_here stops

theorem reads_strings (names : List String) (level : Nat) :
    Reads TraceDocument.names ((Json.Value.strings names).prettyAt level) names := by
  rw [Json.Value.strings, Json.Value.prettyAt, Json.Value.prettyItems_eq, List.map_map]
  refine reads_listOf ?_ level
  rw [List.forall₂_map_left_iff, List.forall₂_same]
  exact fun name _ => Json.reads_text name

theorem reads_natural {n : Nat} (fits : n < 0x10000000000000000) :
    Reads Json.natural (Json.Number.integer n).text n where
  leads := (Json.startsNumber_integer n).leads
  run front stops := by
    have token := Json.numberToken_integer (i := n) ⟨by omega, by omega⟩ stops
    rw [Json.natural, run_bind_ok (((Json.startsNumber_integer n).run_number front).trans token)]
    rfl

theorem reads_nats {shape : List Nat} (fits : ∀ n ∈ shape, n < 0x10000000000000000) (level : Nat) :
    Reads (Json.listOf Json.natural) ((Json.Value.nats shape).prettyAt level) shape := by
  rw [Json.Value.nats, Json.Value.prettyAt, Json.Value.prettyItems_eq, List.map_map]
  refine reads_listOf ?_ level
  rw [List.forall₂_map_left_iff, List.forall₂_same]
  exact fun n hn => reads_natural (fits n hn)

/-- Reading the text of a binary32 number as a document gives the number. -/
def RealReadsBack (x : Binary32) : Prop :=
  (Json.readAll real (.ofList (Json.Number.single x).text)).toOption = some x

/-- The binary32 number that a number of a document is read as. -/
def rounded : Json.Number → Binary32
  | .integer (.ofNat n) => .ofNat n
  | .integer (.negSucc n) => -.ofNat (n + 1)
  | .float x => Binary32.ofFloat64 x
  | .single x => x

theorem real_ok_iff {x : Binary32} :
    real s = .ok x rest ↔ ∃ n, Json.number "f32" s = .ok n rest ∧ rounded n = x := by
  rw [real, run_bind_ok_iff]
  constructor
  · rintro ⟨n, left, read, done⟩
    rcases n with (_ | _) | _ | _ <;> cases done <;> exact ⟨_, read, rfl⟩
  · rintro ⟨n, read, rfl⟩
    refine ⟨n, rest, read, ?_⟩
    rcases n with (_ | _) | _ | _ <;> rfl

theorem reads_real {x : Binary32} (finite : x.value.isFinite) (back : RealReadsBack x) :
    Reads real (Json.Number.single x).text x := by
  have shape : DecimalText (Json.Number.single x).text := Json.floatText_decimal rfl _ finite
  have starts := Json.startsNumber_of_decimal shape
  obtain ⟨left, run, blank⟩ := Json.readAll_ok_iff.1 (Json.eq_ok_of_toOption back)
  rw [String.toList_ofList] at run
  obtain ⟨n, read, same⟩ := real_ok_iff.1 run
  have token := Json.numberToken_of_number shape read blank
  refine ⟨starts.leads, fun front stops => real_ok_iff.2 ⟨n, ?_, same⟩⟩
  exact (starts.run_number front).trans (Json.numberToken_append token stops)

theorem reads_reals {xs : Array Binary32} (finite : ∀ x ∈ xs, x.value.isFinite)
    (back : ∀ x ∈ xs, RealReadsBack x) (level : Nat) :
    Reads reals ((Json.Value.array (xs.toList.map (.number <| .single ·))).prettyAt level) xs := by
  rw [Json.Value.prettyAt, Json.Value.prettyItems_eq, List.map_map]
  refine reads_map (reads_listOf ?_ level) List.toArray
  rw [List.forall₂_map_left_iff, List.forall₂_same]
  exact fun x hx => reads_real (finite x (by simpa using hx)) (back x (by simpa using hx))

theorem reads_object {depth : Nat} {members : Json.Members}
    (kept : (Json.Value.object members).Kept (depth + 1))
    (back : ∀ x, (Json.Value.object members).Holds (.float x) → Json.ReadsBack x) (level : Nat) :
    Reads (Json.object depth) ((Json.Value.object members).prettyAt level) members := by
  cases kept with
  | object sorted kept =>
    have gathers := Json.gathers_members [] members sorted fun m mem =>
      (kept m mem).reads (fun x holds => back x (.member mem holds)) (level + 1)
    rw [Json.Value.prettyAt, Json.Value.prettyMembers_eq]
    refine ⟨Json.leads_framed level _ (by decide) (by decide), fun {s rest} front _ => ?_⟩
    obtain ⟨inner, text⟩ := Json.framed_head '\x7b' '\x7d' level _
    rw [Json.object, run_bind_ok (Json.run_peekToken (front.trans (congrArg (· ++ rest) text)))]
    show Json.members (Json.keep (Json.value depth)) [] ('\x7b' :: inner ++ rest) = _
    rw [← text]
    exact gathers.run_members level rest

/-! ## Records -/

theorem reads_record {wanted : String} {array : Json.Reader β} {field : String → σ → Json.Reader σ}
    {start last : σ} {finish : σ → Json.Reader β} {texts : List (List Char)} {x : β}
    (h : Gathers field texts start last) (finished : ∀ s, finish last s = .ok x s) (level : Nat) :
    Reads (record wanted array field start finish) (Json.framed '\x7b' '\x7d' level texts) x where
  leads := Json.leads_framed level texts (by decide) (by decide)
  run {s rest} front _ := by
    obtain ⟨inner, text, run⟩ := h.membersFrom_framed level rest
    rw [record, run_bind_ok (Json.run_peekToken (front.trans text))]
    show (Json.membersFrom field (inner.length + 1) true start >>= _) inner = _
    rw [run_bind_ok run, run_bind_ok (finished _), run_bind_ok (Json.run_endObject rest)]
    rfl

theorem run_once {name : String} {item : Json.Reader β} {x : β} (h : Reads item text x)
    (stops : Stops rest) :
    once name none item (':' :: ' ' :: (text ++ rest)) = .ok (some x) rest := by
  have value : item (' ' :: (text ++ rest)) = .ok x rest := h.run (h.leads.dropWhile rest) stops
  show (Json.colon >>= fun _ => some <$> item) (':' :: ' ' :: (text ++ rest)) = _
  rw [run_bind_ok (Json.run_colon _), map_eq_pure_bind, run_bind_ok value]
  rfl

/-- A field that is read into an empty slot of the record. -/
theorem gathers_field {field : String → σ → Json.Reader σ} {item : Json.Reader β} {key : String}
    {x : β} {texts : List (List Char)} {acc last : σ} (fill : Option β → σ)
    (here : field key acc = once key none item >>= fun slot => pure (fill slot))
    (h : Reads item text x) (others : Gathers field texts (fill (some x)) last) :
    Gathers field (memberText key text :: texts) acc last :=
  .cons (fun stops => by rw [here, run_bind_ok (run_once h stops)]; rfl) others

end TraceDocument

/-! ## Variables -/

/-- Variables that a document can hold: their extents are words, and their payloads are finite. -/
structure TracedVariable.Storable (v : TracedVariable) : Prop where
  extents : ∀ n ∈ v.shape, n < 0x10000000000000000
  finite : ∀ xs ∈ v.payload, ∀ x ∈ xs, x.value.isFinite

namespace TraceDocument

theorem reads_tracedVariable {v : TracedVariable} (storable : v.Storable)
    (back : ∀ xs ∈ v.payload, ∀ x ∈ xs, RealReadsBack x) (level : Nat) :
    Reads tracedVariable ((variableValue v).prettyAt level) v := by
  obtain ⟨name, shape, elementType, payload⟩ := v
  have always : Gathers variableField
      [memberText "id" ((Json.Value.string name).prettyAt (level + 1)),
        memberText "shape" ((Json.Value.nats shape).prettyAt (level + 1))]
      ⟨none, none, none, none⟩ ⟨some name, some shape, none, none⟩ :=
    gathers_field (⟨·, none, none, none⟩) rfl (Json.reads_text name) <|
    gathers_field (⟨some name, ·, none, none⟩) rfl (reads_nats storable.extents _) .nil
  have typed : Gathers variableField
      ((memberIf "dtype" (elementType.map .string)).map fun m =>
        memberText m.1 (m.2.prettyAt (level + 1)))
      ⟨some name, some shape, none, none⟩ ⟨some name, some shape, elementType.map some, none⟩ := by
    cases elementType with
    | none => exact .nil
    | some dtype =>
      exact gathers_field (⟨some name, some shape, ·, none⟩) rfl
        (reads_optional (Json.reads_text dtype) (by simp [Json.Value.prettyAt, Json.quoted])) .nil
  have filled : Gathers variableField
      ((memberIf "data" (payload.map fun xs =>
        .array (xs.toList.map (.number <| .single ·)))).map fun m =>
          memberText m.1 (m.2.prettyAt (level + 1)))
      ⟨some name, some shape, elementType.map some, none⟩
      ⟨some name, some shape, elementType.map some, payload.map some⟩ := by
    cases payload with
    | none => exact .nil
    | some xs =>
      refine gathers_field (⟨some name, some shape, _, ·⟩) rfl (reads_optional
        (reads_reals (storable.finite xs rfl) (back xs rfl) (level + 1)) ?_) .nil
      obtain ⟨inner, text⟩ := Json.framed_head '[' ']' (level + 1) _
      rw [Json.Value.prettyAt, text]
      simp
  rw [variableValue, Json.Value.prettyAt, Json.Value.prettyMembers_eq, List.map_append,
    List.map_append]
  refine reads_record ((always.append typed).append filled) (fun s => ?_) level
  cases elementType <;> cases payload <;> rfl

end TraceDocument

/-! ## Nodes -/

/-- Nodes that a document can hold: the document leaves `paramDepth` levels for each parameter. -/
abbrev TracedNode.Storable (n : TracedNode) : Prop :=
  (Json.Value.object n.params).Kept (TraceDocument.paramDepth + 1)

namespace TraceDocument

theorem reads_tracedNode {n : TracedNode} (storable : n.Storable)
    (back : ∀ x, (Json.Value.object n.params).Holds (.float x) → Json.ReadsBack x) (level : Nat) :
    Reads tracedNode ((nodeValue n).prettyAt level) n := by
  obtain ⟨tag, inputs, outputs, params⟩ := n
  have always : Gathers nodeField
      [memberText "op" ((Json.Value.string tag).prettyAt (level + 1)),
        memberText "inputs" ((Json.Value.strings inputs).prettyAt (level + 1)),
        memberText "outputs" ((Json.Value.strings outputs).prettyAt (level + 1))]
      ⟨none, none, none, none⟩ ⟨some tag, some inputs, some outputs, none⟩ :=
    gathers_field (⟨·, none, none, none⟩) rfl (Json.reads_text tag) <|
    gathers_field (⟨some tag, ·, none, none⟩) rfl (reads_strings inputs _) <|
    gathers_field (⟨some tag, some inputs, ·, none⟩) rfl (reads_strings outputs _) .nil
  rw [nodeValue, Json.Value.prettyAt, Json.Value.prettyMembers_eq, List.map_append]
  cases params with
  | nil =>
    refine reads_record (always.append .nil) (fun s => ?_) level
    rfl
  | cons m params =>
    have given : Gathers nodeField
        [memberText "params" ((Json.Value.object (m :: params)).prettyAt (level + 1))]
        ⟨some tag, some inputs, some outputs, none⟩
        ⟨some tag, some inputs, some outputs, some (m :: params)⟩ :=
      gathers_field (⟨some tag, some inputs, some outputs, ·⟩) rfl (reads_object storable back _)
        .nil
    refine reads_record (always.append given) (fun s => ?_) level
    rfl

end TraceDocument

/-! ## Whole traces -/

namespace Trace

/-- Traces that a document can hold. -/
structure Storable (t : Trace) : Prop where
  tensors : ∀ v ∈ t.tensors, v.Storable
  nodes : ∀ n ∈ t.nodes, n.Storable

/-- Each floating-point number of the trace comes back from its text: the decimal that is printed
for it reads as the number itself. -/
structure ReadsBack (t : Trace) : Prop where
  payloads : ∀ v ∈ t.tensors, ∀ xs ∈ v.payload, ∀ x ∈ xs, TraceDocument.RealReadsBack x
  params : ∀ n ∈ t.nodes, ∀ x, (Json.Value.object n.params).Holds (.float x) → Json.ReadsBack x

theorem reads_trace {t : Trace} (storable : t.Storable) (back : t.ReadsBack) :
    Reads TraceDocument.trace ((TraceDocument.traceValue t).prettyAt 0) t := by
  obtain ⟨tensors, nodes, inputs, outputs⟩ := t
  have reads : Gathers TraceDocument.traceField
      [memberText "variables" ((Json.Value.array
          (tensors.map TraceDocument.variableValue)).prettyAt 1),
        memberText "nodes" ((Json.Value.array (nodes.map TraceDocument.nodeValue)).prettyAt 1),
        memberText "inputs" ((Json.Value.strings inputs).prettyAt 1),
        memberText "outputs" ((Json.Value.strings outputs).prettyAt 1)]
      ⟨none, none, none, none⟩ ⟨some tensors, some nodes, some inputs, some outputs⟩ := by
    refine TraceDocument.gathers_field (⟨·, none, none, none⟩) rfl ?_ <|
      TraceDocument.gathers_field (⟨some tensors, ·, none, none⟩) rfl ?_ <|
      TraceDocument.gathers_field (⟨some tensors, some nodes, ·, none⟩) rfl
        (TraceDocument.reads_strings inputs _) <|
      TraceDocument.gathers_field (⟨some tensors, some nodes, some inputs, ·⟩) rfl
        (TraceDocument.reads_strings outputs _) .nil
    · rw [Json.Value.prettyAt, Json.Value.prettyItems_eq, List.map_map]
      refine TraceDocument.reads_listOf ?_ 1
      rw [List.forall₂_map_left_iff, List.forall₂_same]
      exact fun v hv =>
        TraceDocument.reads_tracedVariable (storable.tensors v hv) (back.payloads v hv) 2
    · rw [Json.Value.prettyAt, Json.Value.prettyItems_eq, List.map_map]
      refine TraceDocument.reads_listOf ?_ 1
      rw [List.forall₂_map_left_iff, List.forall₂_same]
      exact fun n hn => TraceDocument.reads_tracedNode (storable.nodes n hn) (back.params n hn) 2
  rw [TraceDocument.traceValue, Json.Value.prettyAt, Json.Value.prettyMembers_eq]
  refine TraceDocument.reads_record reads (fun s => ?_) 0
  rfl

/-- A trace comes back from its document, whatever the strings in it, with the same optional parts
absent. -/
theorem ofJson_toJson {t : Trace} (storable : t.Storable) (back : t.ReadsBack) :
    ofJson t.toJson = .ok t := by
  have reads := reads_trace storable back
  refine Json.readAll_ok_iff.2 ⟨[], ?_, rfl⟩
  rw [toJson, Json.Value.pretty, String.toList_ofList, ← List.append_nil (Json.Value.prettyAt _ _)]
  exact reads.run_here Json.stops_nil

/-- A trace with strings that need escapes, with and without each optional part, and with nested
parameters of both classes of numbers. -/
def escapedNames : Trace where
  tensors := [⟨"\"x\"\n", [2, 3], none, none⟩, ⟨"β", [1], some "float32", some #[3.4e-5]⟩]
  nodes := [⟨"\\Scale", ["\"x\"\n", "β"], ["y\x07"],
      [("eps", .number (.float 2.3e-7)), ("π", .array [.nat 1, .null])]⟩,
    ⟨"ReLU", ["y\x07"], ["z"], []⟩]
  inputs := ["\"x\"\n"]
  outputs := ["z"]

theorem ofJson_toJson_escapedNames :
    escapedNames.Storable ∧ escapedNames.ReadsBack ∧
      ofJson escapedNames.toJson = .ok escapedNames := by
  have storable : escapedNames.Storable := by
    refine ⟨List.forall_mem_cons.2 ⟨⟨by decide, nofun⟩,
        List.forall_mem_singleton.2 ⟨by decide, ?_⟩⟩,
      List.forall_mem_cons.2 ⟨.object (by decide) (List.forall_mem_cons.2 ⟨.number ?_,
        List.forall_mem_singleton.2 (.array (List.forall_mem_cons.2 ⟨.number ?_,
          List.forall_mem_singleton.2 .null⟩))⟩), List.forall_mem_singleton.2 (.object .nil nofun)⟩⟩
    · rintro xs ⟨⟩
      decide
    · exact (by decide : (2.3e-7 : Float).isFinite)
    · exact ⟨by decide, by decide⟩
  have back : escapedNames.ReadsBack := by
    refine ⟨List.forall_mem_cons.2 ⟨nofun, List.forall_mem_singleton.2 ?_⟩,
      List.forall_mem_cons.2 ⟨?_, List.forall_mem_singleton.2 ?_⟩⟩
    · rintro xs ⟨⟩ x hx
      obtain rfl : x = 3.4e-5 := by simpa using hx
      unfold TraceDocument.RealReadsBack
      decide
    · rintro x (_ | _ | ⟨_ | ⟨_, _ | ⟨_, ⟨⟩⟩⟩, holds⟩)
      · cases holds
        unfold Json.ReadsBack
        decide
      · rcases holds with _ | ⟨_ | ⟨_, _ | ⟨_, ⟨⟩⟩⟩, holds⟩ <;> cases holds
    · rintro x (_ | _ | ⟨⟨⟩, _⟩)
  exact ⟨storable, back, ofJson_toJson storable back⟩

end Trace

end TensorGraph
