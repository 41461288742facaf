import TensorGraph.Proofs.Trace.Acceptance

/-!
# TensorGraph.Proofs.Trace.NullParameter

Parameters that are given as `null`.

* `Trace.withoutNulls`: a trace without the parameters that are `null`.
* `Trace.withZeros`: a trace whose required parameters are `0` where they were `null`.
* `Parameters.Alike`: parameters that no function of a trace can tell apart.
* `nulls_dropped`: a `null` means the same as an absent parameter, or as `0` where one is required.
* `requiredNull_accepted`: so a required parameter may be `null`, but may not be absent.
-/

namespace TensorGraph

namespace Json

def Value.isNull : Value → Bool
  | .null => true
  | _ => false

theorem Value.isNull_iff {v : Value} : v.isNull = true ↔ v = .null := by
  cases v <;> simp [isNull]

namespace Members

def withoutNulls (m : Members) : Members := m.filter fun x => !x.2.isNull

/-- A value, or `0` for a `null` under one of the keys. -/
def zeroUnder (keys : List String) (key : String) (v : Value) : Value :=
  if key ∈ keys ∧ v.isNull then .nat 0 else v

/-- Puts `0` in the place of a `null` under one of the keys. -/
def withZeros (keys : List String) (m : Members) : Members :=
  m.map fun x => (x.1, zeroUnder keys x.1 x.2)

/-- No key is given twice. -/
def Keyed (m : Members) : Prop := (m.map Prod.fst).Nodup

theorem get?_eq_none_iff {m : Members} {key : String} :
    m.get? key = none ↔ key ∉ m.map Prod.fst := by
  rw [get?, List.lookup_eq_none_iff]
  simp only [List.mem_map, not_exists, not_and, bne_iff_ne, ne_comm, ne_eq]

theorem get?_withoutNulls {m : Members} (keyed : m.Keyed) (key : String) :
    m.withoutNulls.get? key = (m.get? key).filter fun v => !v.isNull := by
  induction m with
  | nil => rfl
  | cons x rest ih =>
    obtain ⟨k, v⟩ := x
    obtain ⟨new, keyed⟩ := List.nodup_cons.1 keyed
    have later := ih keyed
    rw [withoutNulls, get?, get?] at *
    by_cases here : key = k
    · subst here
      have absent : List.lookup key rest = none := get?_eq_none_iff.2 new
      rw [absent, Option.filter_none] at later
      by_cases null : v.isNull = true
      · simp [null, later, Option.filter]
      · simp [null, Option.filter]
    · have other : (key == k) = false := beq_false_of_ne here
      by_cases null : v.isNull = true
      · simp [null, List.lookup_cons, other, later]
      · simp [null, List.lookup_cons, other, later]

theorem get?_withZeros (keys : List String) (m : Members) (key : String) :
    (m.withZeros keys).get? key = (m.get? key).map (zeroUnder keys key) := by
  induction m with
  | nil => rfl
  | cons x rest ih =>
    obtain ⟨k, v⟩ := x
    rw [withZeros, get?, get?] at *
    by_cases here : key = k
    · subst here
      simp
    · have other : (key == k) = false := beq_false_of_ne here
      simp only [List.map_cons, List.lookup_cons, other]
      exact ih

theorem keyed_withZeros {keys : List String} {m : Members} (keyed : m.Keyed) :
    (m.withZeros keys).Keyed := by
  have same : (m.withZeros keys).map Prod.fst = m.map Prod.fst := by
    rw [withZeros, List.map_map]
    rfl
  rw [Keyed, same]
  exact keyed

end Members

end Json

namespace Parameters

variable {β : Type} {p q : Parameters} {key : String}

/-- The keys of the parameters that the function `tag` requires. -/
def requiredKeys (tag : String) : List String :=
  if tag ∈ ["MaxPooling2D", "AveragePooling2D"] then ["kh"]
  else if tag ∈ ["MulConstant", "AddConstant"] then ["value"]
  else []

/-- The value of a parameter, if it is there and is not `null`. -/
def given? (p : Parameters) (key : String) : Option Json.Value :=
  (p.members.get? key).filter fun v => !v.isNull

/-- Parameters of one function that it reads alike: those that may be left out have the same values,
and those that it requires are refused alike or read as the same number. -/
structure Alike (p q : Parameters) : Prop where
  tag : p.tag = q.tag
  optional : ∀ key, key ∉ requiredKeys p.tag → p.given? key = q.given? key
  natural : ∀ key ∈ requiredKeys p.tag, p.requiredNatural key = q.requiredNatural key
  real : ∀ key ∈ requiredKeys p.tag, p.requiredReal key = q.requiredReal key

/-- Reading a parameter looks only at a value that is there and is not `null`. -/
theorem get_eq (p : Parameters) (key : String) (default : β) (read? : Json.Value → Option β)
    (flaw : TraceFlaw) : p.get key default read? flaw = match p.given? key with
      | none => .ok default
      | some v => match read? v with
        | some x => .ok x
        | none => .error flaw := by
  rw [get, given?]
  cases p.members.get? key with
  | none => rfl
  | some v => cases v <;> rfl

theorem get_congr (same : p.given? key = q.given? key) (default : β)
    (read? : Json.Value → Option β) (flaw : TraceFlaw) :
    p.get key default read? flaw = q.get key default read? flaw := by
  rw [get_eq, get_eq, same]

namespace Alike

theorem get_eq (h : p.Alike q) (optional : key ∉ requiredKeys p.tag) (default : β)
    (read? : Json.Value → Option β) (flaw : TraceFlaw) :
    p.get key default read? flaw = q.get key default read? flaw :=
  get_congr (h.optional key optional) default read? flaw

theorem natural_eq (h : p.Alike q) (optional : key ∉ requiredKeys p.tag) (default : Nat) :
    p.natural key default = q.natural key default := by
  rw [Parameters.natural, Parameters.natural, h.get_eq optional, h.tag]

theorem real_eq (h : p.Alike q) (optional : key ∉ requiredKeys p.tag) (default : Binary32) :
    p.real key default = q.real key default := by
  rw [Parameters.real, Parameters.real, h.get_eq optional, h.tag]

theorem boolean_eq (h : p.Alike q) (optional : key ∉ requiredKeys p.tag) (default : Bool) :
    p.boolean key default = q.boolean key default := by
  rw [Parameters.boolean, Parameters.boolean, h.get_eq optional, h.tag]

theorem shape?_eq (h : p.Alike q) (optional : key ∉ requiredKeys p.tag) :
    p.shape? key = q.shape? key := by
  rw [Parameters.shape?, Parameters.shape?, h.get_eq optional, h.tag]

end Alike

end Parameters

namespace Conversion

open Parameters

variable {p q : Parameters} {g : Graph Binary32} {inputs outputs : List VariableId}

theorem poolingKind_congr (h : p.Alike q)
    (tag : p.tag ∈ ["MaxPooling2D", "AveragePooling2D"]) (mode : PoolMode) :
    poolingKind mode p = poolingKind mode q := by
  have keys : requiredKeys p.tag = ["kh"] := if_pos tag
  have optional {key : String} (other : key ≠ "kh") : key ∉ requiredKeys p.tag := by
    rw [keys]
    simpa using other
  have required := h.natural "kh" (by simp [keys])
  unfold poolingKind
  simp only [required, h.natural_eq (optional (show "kw" ≠ "kh" by decide)),
    h.natural_eq (optional (show "sy" ≠ "kh" by decide)),
    h.natural_eq (optional (show "sx" ≠ "kh" by decide)),
    h.natural_eq (optional (show "ph" ≠ "kh" by decide)),
    h.natural_eq (optional (show "pw" ≠ "kh" by decide)),
    h.boolean_eq (optional (show "cover_all" ≠ "kh" by decide))]

theorem convolutionKind_congr (h : p.Alike q) (free : requiredKeys p.tag = []) :
    convolutionKind g p inputs = convolutionKind g q inputs := by
  have optional (key : String) : key ∉ requiredKeys p.tag := free ▸ List.not_mem_nil
  unfold convolutionKind
  simp only [h.tag, h.natural_eq (optional _)]

theorem responseNormalizationKind_congr (h : p.Alike q) (free : requiredKeys p.tag = []) :
    responseNormalizationKind p = responseNormalizationKind q := by
  have optional (key : String) : key ∉ requiredKeys p.tag := free ▸ List.not_mem_nil
  unfold responseNormalizationKind
  simp only [h.natural_eq (optional _), h.real_eq (optional _)]

theorem reshapeKind_congr (h : p.Alike q) (free : requiredKeys p.tag = []) :
    reshapeKind g p outputs = reshapeKind g q outputs := by
  have optional (key : String) : key ∉ requiredKeys p.tag := free ▸ List.not_mem_nil
  unfold reshapeKind
  rw [h.shape?_eq (optional _)]

/-- Parameters that are read alike make the same kind of operator, or the same error. -/
theorem kindOf_congr (h : p.Alike q) :
    kindOf g p inputs outputs = kindOf g q inputs outputs := by
  unfold kindOf
  rw [← h.tag]
  dsimp only
  split
  case h_1 tag | h_2 tag => exact convolutionKind_congr h (by rw [tag]; decide)
  case h_9 tag | h_10 tag => rw [h.real_eq (by rw [tag]; decide)]
  case h_11 tag | h_12 tag | h_13 tag => rw [h.real_eq (by rw [tag]; decide)]
  case h_14 tag | h_15 tag => rw [poolingKind_congr h (by rw [tag]; decide)]
  case h_16 tag => rw [responseNormalizationKind_congr h (by rw [tag]; decide)]
  case h_17 tag => rw [reshapeKind_congr h (by rw [tag]; decide)]
  case h_20 tag | h_21 tag => rw [h.real "value" (by rw [tag]; decide)]
  case h_22 tag => rw [h.natural_eq (by rw [tag]; decide)]
  all_goals rfl

theorem nodeKind_congr {n n' : TracedNode} (tag : n.tag = n'.tag)
    (h : n.parameters.Alike n'.parameters) :
    nodeKind g n inputs outputs = nodeKind g n' inputs outputs := by
  have kind : kindOf g ⟨n.tag, n.params⟩ inputs outputs =
      kindOf g ⟨n'.tag, n'.params⟩ inputs outputs := kindOf_congr h
  rw [nodeKind, nodeKind, kind, tag]

end Conversion

/-- Function applications that differ only in how parameters are written. -/
structure TracedNode.Alike (n n' : TracedNode) : Prop where
  inputs : n.inputs = n'.inputs
  outputs : n.outputs = n'.outputs
  parameters : n.parameters.Alike n'.parameters

/-- Changes the nodes of a trace. -/
def Trace.mapNodes (f : TracedNode → TracedNode) (t : Trace) : Trace :=
  { t with nodes := t.nodes.map f }

/-- The trace without the parameters that are `null`. -/
def Trace.withoutNulls : Trace → Trace :=
  mapNodes fun n => { n with params := n.params.withoutNulls }

/-- The trace with `0` in the place of every required parameter that is `null`. -/
def Trace.withZeros : Trace → Trace :=
  mapNodes fun n => { n with params := n.params.withZeros (Parameters.requiredKeys n.tag) }

/-- No parameter of a node is given twice. -/
def Trace.Keyed (t : Trace) : Prop := ∀ n ∈ t.nodes, n.params.Keyed

namespace Conversion

open Trace

theorem apply_congr {n n' : TracedNode} (h : n.Alike n') (names : Names) (index : Nat) :
    apply names n index = apply names n' index := by
  have tag : n.tag = n'.tag := h.parameters.tag
  unfold apply enter
  simp only [h.inputs, h.outputs, tag, nodeKind_congr tag h.parameters]

theorem applyAll_congr {f : TracedNode → TracedNode} {nodes : List TracedNode}
    (h : ∀ n ∈ nodes, n.Alike (f n)) (names : Names) (k : Nat) :
    applyAll names ((nodes.map f).zipIdx k) = applyAll names (nodes.zipIdx k) := by
  induction nodes generalizing k with
  | nil => rfl
  | cons n rest ih =>
    have first := apply_congr (h n List.mem_cons_self) names k
    have later := ih (fun m hm => h m (List.mem_cons_of_mem n hm)) (k + 1)
    show (apply names (f n) k >>= fun _ => applyAll names ((rest.map f).zipIdx (k + 1))) =
      (apply names n k >>= fun _ => applyAll names (rest.zipIdx (k + 1)))
    rw [later, first]

/-- A trace may be written with other parameters as long as its functions read them alike. -/
theorem toGraph_congr {f : TracedNode → TracedNode} {t : Trace}
    (h : ∀ n ∈ t.nodes, n.Alike (f n)) : (t.mapNodes f).toGraph = t.toGraph := by
  have same : all (t.mapNodes f) = all t := by
    unfold all
    refine bind_congr fun names => ?_
    show (applyAll names (t.nodes.map f).zipIdx >>= _) = (applyAll names t.nodes.zipIdx >>= _)
    rw [applyAll_congr h names 0]
    rfl
  rw [toGraph, toGraph, same]

end Conversion

namespace TracedNode

open Json Parameters

variable {n : TracedNode}

/-- A `null` is as good as no parameter, unless the parameter is required. -/
theorem alike_withoutNulls (keyed : n.params.Keyed)
    (given : ∀ key ∈ requiredKeys n.tag, n.params.get? key ≠ some .null) :
    n.Alike { n with params := n.params.withoutNulls } := by
  have found := Members.get?_withoutNulls keyed
  have value (key : String) : given? ⟨n.tag, n.params⟩ key =
      given? ⟨n.tag, n.params.withoutNulls⟩ key := by
    simp only [given?, found, Option.filter_filter, Bool.and_self]
  have required (key : String) (hkey : key ∈ requiredKeys n.tag) :
      require ⟨n.tag, n.params⟩ key = require ⟨n.tag, n.params.withoutNulls⟩ key := by
    have filled := given key hkey
    rw [require, require, found]
    cases h : n.params.get? key with
    | none => rfl
    | some v =>
      have kept : v.isNull = false := by
        rw [← Bool.not_eq_true, Value.isNull_iff]
        exact fun null => filled (null ▸ h)
      simp [kept, Option.filter]
  refine ⟨rfl, rfl, rfl, fun key _ => value key, fun key hkey => ?_, fun key hkey => ?_⟩
  · rw [requiredNatural, requiredNatural, parameters, parameters, required key hkey,
      Parameters.natural, Parameters.natural, get_congr (value key)]
  · rw [requiredReal, requiredReal, parameters, parameters, required key hkey, Parameters.real,
      Parameters.real, get_congr (value key)]

/-- A required parameter that is `null` is as good as `0`. -/
theorem alike_withZeros :
    n.Alike { n with params := n.params.withZeros (requiredKeys n.tag) } := by
  have found := Members.get?_withZeros (requiredKeys n.tag) n.params
  have required (key : String) : require ⟨n.tag, n.params⟩ key =
      require ⟨n.tag, n.params.withZeros (requiredKeys n.tag)⟩ key := by
    rw [require, require, found, Option.isSome_map]
  -- A number is read alike where it was given, and as its default `0` where it was `null`.
  have read {β : Type} {key : String} (hkey : key ∈ requiredKeys n.tag) {zero : β}
      (read? : Value → Option β) (h : read? (.nat 0) = some zero) (flaw : TraceFlaw) :
      get ⟨n.tag, n.params⟩ key zero read? flaw =
        get ⟨n.tag, n.params.withZeros (requiredKeys n.tag)⟩ key zero read? flaw := by
    rw [get_eq, get_eq, given?, given?, found]
    cases n.params.get? key with
    | none => rfl
    | some v =>
      by_cases null : v.isNull = true
      · have zeroed : Members.zeroUnder (requiredKeys n.tag) key v = .nat 0 := if_pos ⟨hkey, null⟩
        rw [Option.map_some, zeroed, Value.isNull_iff.1 null]
        show Except.ok zero = match read? (.nat 0) with
          | some x => .ok x
          | none => .error flaw
        rw [h]
      · have kept : Members.zeroUnder (requiredKeys n.tag) key v = v := if_neg fun z => null z.2
        rw [Option.map_some, kept]
  refine ⟨rfl, rfl, rfl, fun key other => ?_, fun key hkey => ?_, fun key hkey => ?_⟩
  · rw [given?, given?, parameters, parameters, found]
    have kept : Members.zeroUnder (requiredKeys n.tag) key = id := by
      funext v
      exact if_neg fun z => other z.1
    rw [kept, Option.map_id, id]
  · rw [requiredNatural, requiredNatural, parameters, parameters, required key,
      Parameters.natural, Parameters.natural, read hkey Value.nat? rfl]
  · rw [requiredReal, requiredReal, parameters, parameters, required key, Parameters.real,
      Parameters.real, read hkey finite? (by decide)]

end TracedNode

namespace Trace

open Parameters TracedNode Conversion

/-- A parameter that is `null` may as well be left out, except where it is required: there it counts
as `0`. So a trace that gives no required parameter as `null` has the same graph, or the same
error, without its `null` parameters. -/
theorem nulls_dropped (t : Trace) (keyed : t.Keyed) :
    t.withZeros.withoutNulls.toGraph = t.toGraph ∧
      ((∀ n ∈ t.nodes, ∀ key ∈ requiredKeys n.tag, n.params.get? key ≠ some .null) →
        t.withoutNulls.toGraph = t.toGraph) := by
  constructor
  · have zeros : t.withZeros.toGraph = t.toGraph := toGraph_congr fun n _ => alike_withZeros
    rw [← zeros]
    refine toGraph_congr fun n hn => ?_
    obtain ⟨m, hm, rfl⟩ := List.mem_map.1 hn
    refine alike_withoutNulls (Json.Members.keyed_withZeros (keyed m hm)) fun key hkey null => ?_
    rw [Json.Members.get?_withZeros, Option.map_eq_some_iff] at null
    obtain ⟨v, _, zeroed⟩ := null
    rw [Json.Members.zeroUnder] at zeroed
    split at zeroed
    · cases zeroed
    · next filled => exact filled ⟨hkey, Json.Value.isNull_iff.2 zeroed⟩
  · intro given
    exact toGraph_congr fun n hn => alike_withoutNulls (keyed n hn) (given n hn)

/-- A pooling whose stride and padding are `null`. -/
def nullStride : Trace :=
  Trace.empty.addVariable "x" [1, 1, 2, 2] |>.addVariable "y" [1, 1, 1, 1]
    |>.addNode "MaxPooling2D" ["x"] ["y"] (.object [("kh", .nat 2), ("ph", .null), ("sy", .null)])
    |>.designate ["x"] ["y"]

theorem nulls_dropped_nullStride : nullStride.Keyed ∧
    ∃ g, nullStride.toGraph = .ok g ∧ nullStride.withoutNulls.toGraph = .ok g ∧
      nullStride.withZeros.withoutNulls.toGraph = .ok g := by
  have keyed : nullStride.Keyed := List.forall_mem_singleton.2 (by simp [Json.Members.Keyed])
  have converts : nullStride.toGraph.toOption.isSome = true := by decide
  obtain ⟨zeroed, dropped⟩ := nulls_dropped nullStride keyed
  have given : ∀ n ∈ nullStride.nodes, ∀ key ∈ requiredKeys n.tag,
      n.params.get? key ≠ some .null := by
    refine List.forall_mem_singleton.2 (List.forall_mem_singleton.2 ?_)
    exact fun null => nomatch null
  obtain ⟨g, run⟩ := Graph.except_exists_ok converts
  exact ⟨keyed, g, run, (dropped given).trans run, zeroed.trans run⟩

/-- A scaling whose required factor is `null`. -/
def nullFactor : Trace :=
  Trace.empty.addVariable "x" [1] |>.addVariable "y" [1]
    |>.addNode "MulConstant" ["x"] ["y"] (.object [("value", .null)])
    |>.designate ["x"] ["y"]

/-- A required parameter may be `null`, and may not be absent. -/
theorem requiredNull_accepted : (∃ g, nullFactor.toGraph = .ok g) ∧
    nullFactor.withoutNulls.toGraph =
      .error (.malformedTrace (.missingParameter "MulConstant" "value")) := by
  have converts : nullFactor.toGraph.toOption.isSome = true := by decide
  have fails : (match nullFactor.withoutNulls.toGraph with
      | .ok _ => none
      | .error e => some e) =
        some (.malformedTrace (.missingParameter "MulConstant" "value")) := by decide
  refine ⟨Graph.except_exists_ok converts, ?_⟩
  cases h : nullFactor.withoutNulls.toGraph with
  | error e =>
    rw [h] at fails
    rw [Option.some.inj fails]
  | ok g =>
    rw [h] at fails
    cases fails

end Trace

end TensorGraph
