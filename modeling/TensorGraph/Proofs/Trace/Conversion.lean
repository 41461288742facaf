import TensorGraph.Proofs.Edit.Operators
import TensorGraph.Proofs.Optimizer.Calls
import TensorGraph.Proofs.Optimizer.Contract
import TensorGraph.Proofs.Trace.WellFormed

/-!
# TensorGraph.Proofs.Trace.Conversion

What becomes of a trace.

* `declareAll_ok_iff`: its tensors make a graph without operators, each at its place.
* `Built`: the invariant of a conversion. After some nodes the graph is shown by these.
* `Built.apply_ok_iff`, `Built.step`: what one node needs, and what it adds.
* `Built.applyAll_ok_iff`, `Built.run`: the same for all nodes.
-/

namespace TensorGraph

open Relation (TransGen)

namespace Conversion

open Edit TensorGraph.Graph Trace

section

variable {β γ : Type} {g g' : Graph Binary32}

/-! ## Parts of a conversion -/

theorem lift_ok_iff {e : Except GraphError β} {x : β} :
    lift e g = .ok x g' ↔ e = .ok x ∧ g = g' := by
  cases e with
  | ok y => exact ⟨fun h => by cases h; exact ⟨rfl, rfl⟩, fun ⟨h, e⟩ => by cases h; rw [e]; rfl⟩
  | error err => exact ⟨(nomatch ·), fun ⟨h, _⟩ => nomatch h⟩

/-- A check that fails if a condition holds. -/
theorem unless_ok_iff {c : Prop} [Decidable c] {flaw : TraceFlaw} {k : Unit → Step γ} {y : γ} :
    (if c then fail flaw >>= k else k ⟨⟩) g = .ok y g' ↔ ¬c ∧ k ⟨⟩ g = .ok y g' := by
  by_cases h : c
  · rw [if_pos h]
    exact ⟨(nomatch ·), fun ⟨absent, _⟩ => absurd h absent⟩
  · rw [if_neg h]
    exact ⟨fun run => ⟨h, run⟩, And.right⟩

/-- The same check where nothing follows. -/
theorem refuse_ok_iff {c : Prop} [Decidable c] {flaw : TraceFlaw} {u : Unit} :
    (if c then fail flaw else pure ⟨⟩ : Step Unit) g = .ok u g' ↔ ¬c ∧ g = g' := by
  by_cases h : c
  · rw [if_pos h]
    exact ⟨(nomatch ·), fun ⟨absent, _⟩ => absurd h absent⟩
  · rw [if_neg h]
    exact ⟨fun run => by cases run; exact ⟨h, rfl⟩, fun ⟨_, e⟩ => by rw [e]; rfl⟩

theorem lookup_ok_iff {names : Names} {flaw : String → TraceFlaw} {x : String} {v : VariableId} :
    lookup names flaw x g = .ok v g' ↔ names.lookup x = some v ∧ g = g' := by
  unfold lookup
  cases names.lookup x with
  | none => exact ⟨(nomatch ·), fun ⟨h, _⟩ => nomatch h⟩
  | some w =>
    exact ⟨fun h => by cases h; exact ⟨rfl, rfl⟩, fun ⟨h, e⟩ => by cases h; rw [e]; rfl⟩

theorem mapM_lookup_ok_iff {names : Names} {flaw : String → TraceFlaw} {xs : List String}
    {vs : List VariableId} : xs.mapM (lookup names flaw) g = .ok vs g' ↔
      List.Forall₂ (fun x v => names.lookup x = some v) xs vs ∧ g = g' := by
  induction xs generalizing vs g g' with
  | nil =>
    rw [List.mapM_nil, List.forall₂_nil_left_iff]
    exact ⟨fun h => by cases h; exact ⟨rfl, rfl⟩, fun ⟨h, e⟩ => by rw [h, e]; rfl⟩
  | cons x xs ih =>
    rw [List.mapM_cons, List.forall₂_cons_left_iff]
    simp only [run_bind_ok_iff, lookup_ok_iff, ih]
    constructor
    · rintro ⟨v, g₁, ⟨hv, rfl⟩, ws, g₂, ⟨hws, rfl⟩, done⟩
      cases done
      exact ⟨⟨v, ws, hv, hws, rfl⟩, rfl⟩
    · rintro ⟨⟨v, ws, hv, hws, rfl⟩, rfl⟩
      exact ⟨v, _, ⟨hv, rfl⟩, ws, _, ⟨hws, rfl⟩, rfl⟩

theorem get_ok_iff {g₁ g₂ : Graph Binary32} :
    (get : Step (Graph Binary32)) g = .ok g₁ g₂ ↔ g = g₁ ∧ g = g₂ :=
  ⟨fun h => by cases h; exact ⟨rfl, rfl⟩, fun ⟨h, e⟩ => by rw [← h, ← e]; rfl⟩

theorem liveOperator_ok_iff {o : OperatorId} {op : Operator Binary32} :
    liveOperator o g = .ok op g' ↔ g.operatorAt? o = some op ∧ g = g' := by
  cases ho : g.operatorAt? o with
  | none =>
    rw [run_liveOperator_none ho]
    exact ⟨(nomatch ·), fun ⟨h, _⟩ => nomatch h⟩
  | some op' =>
    rw [run_liveOperator ho]
    exact ⟨fun h => by cases h; exact ⟨rfl, rfl⟩, fun ⟨h, e⟩ => by cases h; rw [e]⟩

end

/-! ## Tensors -/

/-- The tensors of a trace by name. -/
def namesOf (ds : List TracedVariable) : Names := ds.zipIdx.map fun p => (p.1.name, ⟨p.2⟩)

/-- The record of the tensor at a place. -/
def record (d : TracedVariable) (i : Nat) : Variable Binary32 :=
  { id := ⟨i⟩, name := d.name, shape := d.shape, payload := d.payload, producer := none,
    consumers := [] }

/-- The graph of some tensors, without operators. -/
def bare (ds : List TracedVariable) : Graph Binary32 :=
  { Graph.empty with variableSlots := ⟨ds.zipIdx.map fun p => some (record p.1 p.2)⟩ }

theorem namesOf_concat (ds : List TracedVariable) (d : TracedVariable) :
    namesOf (ds ++ [d]) = namesOf ds ++ [(d.name, ⟨ds.length⟩)] := by
  simp [namesOf, List.zipIdx_append]

theorem bare_concat (ds : List TracedVariable) (d : TracedVariable) : bare (ds ++ [d]) =
    { bare ds with variableSlots := (bare ds).variableSlots.push (record d ds.length) } := by
  simp [bare, Arena.push, List.zipIdx_append]

theorem bare_fresh (ds : List TracedVariable) : (bare ds).freshVariable = ⟨ds.length⟩ := by
  simp [bare, freshVariable, Arena.size]

theorem bare_variableAt? (ds : List TracedVariable) (v : VariableId) :
    (bare ds).variableAt? v = ds[v.index]?.map (record · v.index) := by
  show (((ds.zipIdx.map fun p => some (record p.1 p.2)))[v.index]?).join = _
  rw [List.getElem?_map, List.getElem?_zipIdx]
  cases ds[v.index]? with
  | none => rfl
  | some d => simp

theorem bare_linked {ds : List TracedVariable} (proper : ∀ d ∈ ds, d.Proper) :
    (bare ds).Linked := by
  induction ds using List.reverseRecOn with
  | nil => exact linked_empty
  | append_singleton ds d ih =>
    have linked := ih fun e he => proper e (List.mem_append_left _ he)
    have size := (proper d (by simp)).size
    rw [bare_concat, record, ← bare_fresh]
    exact (push_linked linked d.name d.shape d.payload size).1

theorem mem_namesOf {ds : List TracedVariable} {x : String} {v : VariableId} :
    (x, v) ∈ namesOf ds ↔ ∃ d, ds[v.index]? = some d ∧ d.name = x := by
  rw [namesOf, List.mem_map]
  constructor
  · rintro ⟨⟨d, i⟩, hd, e⟩
    cases e
    exact ⟨d, List.mem_zipIdx_iff_getElem?.1 hd, rfl⟩
  · rintro ⟨d, hd, rfl⟩
    exact ⟨(d, v.index), List.mem_zipIdx_iff_getElem?.2 hd, rfl⟩

theorem namesOf_lookup_isSome {ds : List TracedVariable} {x : String} :
    ((namesOf ds).lookup x).isSome = true ↔ x ∈ ds.map (·.name) := by
  rw [List.lookup_isSome_iff, List.mem_map]
  constructor
  · rintro ⟨⟨y, v⟩, mem, same⟩
    cases beq_iff_eq.1 same
    obtain ⟨d, hd, name⟩ := mem_namesOf.1 mem
    exact ⟨d, List.mem_of_getElem? hd, name⟩
  · rintro ⟨d, hd, rfl⟩
    obtain ⟨i, hi⟩ := List.getElem?_of_mem hd
    exact ⟨(d.name, ⟨i⟩), mem_namesOf.2 ⟨d, hi, rfl⟩, beq_self_eq_true _⟩

theorem namesOf_lookup {t : Trace} (distinct : (t.tensors.map (·.name)).Nodup) {x : String}
    {v : VariableId} : (namesOf t.tensors).lookup x = some v ↔ t.Names x v := by
  have named {w : VariableId} (found : (namesOf t.tensors).lookup x = some w) : t.Names x w := by
    obtain ⟨before, after, e, _⟩ := List.lookup_eq_some_iff.1 found
    refine mem_namesOf.1 ?_
    rw [e]
    exact List.mem_append_right _ List.mem_cons_self
  refine ⟨named, fun hv => ?_⟩
  obtain ⟨d, hd, name⟩ := hv.declares
  have found : ((namesOf t.tensors).lookup x).isSome = true :=
    namesOf_lookup_isSome.2 (List.mem_map.2 ⟨d, hd, name⟩)
  obtain ⟨w, hw⟩ := Option.isSome_iff_exists.1 found
  rw [hw, (named hw).unique distinct hv]

theorem knownType_iff {type : String} :
    ¬(ElementType.parse? type).isNone = true ↔ type = "float32" ∨ type = "f32" := by
  unfold ElementType.parse?
  by_cases h : type = "float32" ∨ type = "f32"
  · simp [h]
  · simp [h]

theorem proper_iff {d : TracedVariable} : d.Proper ↔
    (∀ type, d.elementType = some type → ¬(ElementType.parse? type).isNone = true) ∧
      ¬d.shape.contains 0 = true ∧
        ∀ p, d.payload = some p → ¬p.size ≠ Shape.size d.shape := by
  simp only [knownType_iff, List.contains_iff_mem, Classical.not_not]
  constructor
  · rintro ⟨type, positive, size⟩
    refine ⟨fun ty hty => ?_, positive, size⟩
    rw [hty] at type
    simpa using type
  · rintro ⟨type, positive, size⟩
    refine ⟨?_, positive, size⟩
    cases hty : d.elementType with
    | none => exact .inl rfl
    | some ty => simpa using type ty hty

/-- Adding a tensor makes the graph of one more. -/
theorem added_iff {ds : List TracedVariable} {d : TracedVariable} {e : Step VariableId}
    (run : e (bare ds) = .ok ⟨ds.length⟩ (bare (ds ++ [d]))) {names : Names}
    {g : Graph Binary32} : (∃ id g₁, e (bare ds) = .ok id g₁ ∧
      (pure (namesOf ds ++ [(d.name, id)]) : Step Names) g₁ = .ok names g) ↔
        names = namesOf (ds ++ [d]) ∧ g = bare (ds ++ [d]) := by
  rw [namesOf_concat]
  constructor
  · rintro ⟨id, g₁, added, done⟩
    cases run.symm.trans added
    cases done
    exact ⟨rfl, rfl⟩
  · rintro ⟨rfl, rfl⟩
    exact ⟨_, _, run, rfl⟩

/-- A tensor is admitted if its name is new, its type known, and no dimension empty. -/
theorem inspect_ok_iff {ds : List TracedVariable} {d : TracedVariable} {u : Unit}
    {g g' : Graph Binary32} : inspect (namesOf ds) d g = .ok u g' ↔ d.name ∉ ds.map (·.name) ∧
      (∀ type, d.elementType = some type → ¬(ElementType.parse? type).isNone = true) ∧
        ¬d.shape.contains 0 = true ∧ g = g' := by
  unfold inspect
  cases d.elementType with
  | none =>
    simp only [unless_ok_iff, refuse_ok_iff, namesOf_lookup_isSome]
    simp
  | some type =>
    simp only [unless_ok_iff, refuse_ok_iff, namesOf_lookup_isSome]
    simp

/-- A tensor is stored if its payload has the size of its shape. -/
theorem store_ok_iff {ds : List TracedVariable} {d : TracedVariable} {names : Names}
    {g : Graph Binary32} : store (namesOf ds) d (bare ds) = .ok names g ↔
      (∀ p, d.payload = some p → ¬p.size ≠ Shape.size d.shape) ∧
        names = namesOf (ds ++ [d]) ∧ g = bare (ds ++ [d]) := by
  unfold store
  cases hp : d.payload with
  | none =>
    have run : Edit.addVariable d.name d.shape (bare ds) =
        .ok ⟨ds.length⟩ (bare (ds ++ [d])) := by
      rw [bare_concat, record, ← bare_fresh, hp]
      rfl
    simp only [run_bind_ok_iff, added_iff run]
    simp
  | some p =>
    have run (size : ¬p.size ≠ Shape.size d.shape) :
        Edit.addConstant d.name d.shape p (bare ds) = .ok ⟨ds.length⟩ (bare (ds ++ [d])) := by
      rw [bare_concat, record, ← bare_fresh, hp]
      exact run_addConstant (bare ds) d.name (Classical.not_not.1 size)
    simp only [unless_ok_iff, run_bind_ok_iff, Option.some.injEq, forall_eq']
    exact and_congr_right fun size => added_iff (run size)

/-- A tensor is declared if its name is new and it is proper. -/
theorem declare_ok_iff {ds : List TracedVariable} {d : TracedVariable} {names : Names}
    {g : Graph Binary32} : declare (namesOf ds) d (bare ds) = .ok names g ↔
      d.name ∉ ds.map (·.name) ∧ d.Proper ∧ names = namesOf (ds ++ [d]) ∧
        g = bare (ds ++ [d]) := by
  rw [proper_iff, declare]
  simp only [run_bind_ok_iff, inspect_ok_iff]
  constructor
  · rintro ⟨_, _, ⟨new, type, positive, rfl⟩, stored⟩
    obtain ⟨size, done⟩ := store_ok_iff.1 stored
    exact ⟨new, ⟨type, positive, size⟩, done⟩
  · rintro ⟨new, ⟨type, positive, size⟩, done⟩
    exact ⟨⟨⟩, _, ⟨new, type, positive, rfl⟩, store_ok_iff.2 ⟨size, done⟩⟩

/-- The tensors of a trace are declared if their names are distinct and they are proper. -/
theorem declareAll_ok_iff {ds rest : List TracedVariable} (distinct : (ds.map (·.name)).Nodup)
    {names : Names} {g : Graph Binary32} :
    rest.foldlM declare (namesOf ds) (bare ds) = .ok names g ↔
      ((ds ++ rest).map (·.name)).Nodup ∧ (∀ d ∈ rest, d.Proper) ∧
        names = namesOf (ds ++ rest) ∧ g = bare (ds ++ rest) := by
  induction rest generalizing ds with
  | nil =>
    rw [List.foldlM_nil, List.append_nil]
    constructor
    · intro h
      cases h
      exact ⟨distinct, List.forall_mem_nil _, rfl, rfl⟩
    · rintro ⟨_, _, rfl, rfl⟩
      rfl
  | cons d rest ih =>
    have concat : ((ds ++ [d]).map (·.name)).Nodup ↔
        d.name ∉ ds.map (·.name) ∧ (ds.map (·.name)).Nodup := by
      rw [List.map_append, List.nodup_append_comm]
      exact List.nodup_cons
    rw [List.foldlM_cons, run_bind_ok_iff, List.forall_mem_cons, List.append_cons]
    constructor
    · rintro ⟨names₁, g₁, first, others⟩
      obtain ⟨new, proper, rfl, rfl⟩ := declare_ok_iff.1 first
      obtain ⟨nodup, rest, done⟩ := (ih (concat.2 ⟨new, distinct⟩)).1 others
      exact ⟨nodup, ⟨proper, rest⟩, done⟩
    · rintro ⟨nodup, ⟨proper, rest⟩, done⟩
      have distinct' : ((ds ++ [d]).map (·.name)).Nodup := by
        rw [List.map_append] at nodup
        exact (List.nodup_append.1 nodup).1
      obtain ⟨new, _⟩ := concat.1 distinct'
      exact ⟨_, _, declare_ok_iff.2 ⟨new, proper, rfl, rfl⟩, (ih distinct').2 ⟨nodup, rest, done⟩⟩

/-! ## Nodes -/

/-- The graph of a trace after some nodes. -/
structure Built (t : Trace) (ns : List TracedNode) (g : Graph Binary32) : Prop where
  linked : g.Linked
  shown : t.Shown ns g.outline
  next : g.freshOperator = ⟨ns.length⟩

theorem built_bare {t : Trace} (proper : ∀ d ∈ t.tensors, d.Proper) :
    Built t [] (bare t.tensors) where
  linked := bare_linked proper
  shown :=
    { tensors := fun v => by
        rw [outline_tensors, bare_variableAt?, Option.map_map]
        rfl
      operators := fun _ => .none }
  next := rfl

variable {t : Trace} {ns : List TracedNode} {g : Graph Binary32}

/-- The variable of a name, and where its value comes from so far. -/
theorem Built.variable (built : Built t ns g) (distinct : (t.tensors.map (·.name)).Nodup)
    {x : String} {v : VariableId} (hx : t.Names x v) : ∃ u, g.variableAt? v = some u ∧
      (u.producer = none ↔ x ∉ ns.flatMap (·.outputs)) ∧ (u.payload = none ↔ ¬t.Carries x) := by
  have live : g.outline.Live v := by
    obtain ⟨d, hd, _⟩ := hx
    exact ⟨d.tensor, by rw [built.shown.tensors, hd, Option.map_some]⟩
  obtain ⟨u, hu⟩ := live_iff.1 live
  refine ⟨u, hu, ?_, ?_⟩
  · rw [List.mem_flatMap, ← built.shown.written_iff distinct hx,
      ← built.linked.producer_ne_none hu, Classical.not_not]
  · rw [built.shown.carries_iff distinct hx, Outline.payload?_of (outline_tensors_of hu),
      Classical.not_not]
    rfl

/-- What a node needs to be added: its one result has no other source. -/
theorem Built.addable_iff (built : Built t ns g) (distinct : (t.tensors.map (·.name)).Nodup)
    {n : TracedNode} {vs ws : List VariableId} (ins : List.Forall₂ t.Names n.inputs vs)
    (outs : List.Forall₂ t.Names n.outputs ws) {kind : OperatorKind Binary32}
    (applies : t.Applies n kind) : Addable g vs ws ↔
      ∀ y ∈ n.outputs, ¬t.Carries y ∧ y ∉ n.inputs ∧ y ∉ ns.flatMap (·.outputs) := by
  obtain ⟨w, rfl, _⟩ := (built.shown.applies_iff distinct ins outs).1 applies
  obtain ⟨y, rest, named, none, one⟩ := List.forall₂_cons_right_iff.1 outs
  cases none
  obtain ⟨u, hu, unproduced, unset⟩ := built.variable distinct named
  have loose : u.isConstant = false ↔ ¬t.Carries y := by
    rw [← unset, Variable.isConstant, Option.isSome_eq_false_iff, Option.isNone_iff_eq_none]
  have apart : w ∉ vs ↔ y ∉ n.inputs := not_congr (Names.mem_iff distinct ins named)
  rw [one]
  constructor
  · intro good
    obtain ⟨⟨u', hu', free, unset'⟩, unread⟩ := good.outputs_free w List.mem_cons_self
    cases hu.symm.trans hu'
    intro y' hy'
    cases List.mem_singleton.1 hy'
    exact ⟨loose.1 unset', apart.1 unread, unproduced.1 free⟩
  · intro ok
    obtain ⟨unset', unread, free⟩ := ok y List.mem_cons_self
    refine ⟨fun v hv => ?_, fun v hv => ?_, List.nodup_singleton w⟩
    · obtain ⟨x, _, hx⟩ := exists_left ins hv
      obtain ⟨u, hu, _⟩ := built.variable distinct hx
      exact ⟨u, hu⟩
    · cases List.mem_singleton.1 hv
      exact ⟨⟨u, hu, unproduced.2 free, loose.2 unset'⟩, apart.2 unread⟩

/-- The graph with one more operator. -/
theorem Built.added (built : Built t ns g) (kind : OperatorKind Binary32) {vs ws : List VariableId}
    (good : Addable g vs ws) : ∃ g', addOperator kind vs ws g = .ok g.freshOperator g' ∧ g'.Linked ∧
      g'.outline =
        g.outline.setOperator g.freshOperator (some (newOperator g kind vs ws)) ∧
      g'.operatorAt? g.freshOperator = some (newOperator g kind vs ws) := by
  obtain ⟨g', run, linked, outline⟩ := addOperator_yields built.linked kind good
  refine ⟨g', run, linked, outline, ?_⟩
  rw [← outline_operators, outline, Outline.setOperator_operators, if_pos rfl]

/-- What it takes to enter a node: the operands and the result of the operator are the variables
that the node names, and its kind is what the node denotes. -/
theorem Built.enter_iff (built : Built t ns g) (distinct : (t.tensors.map (·.name)).Nodup)
    {n : TracedNode} {index : Nat} {op : Operator Binary32} {g' : Graph Binary32} :
    enter (namesOf t.tensors) n index g = .ok op g' ↔ ∃ vs w kind,
      List.Forall₂ t.Names n.inputs vs ∧ List.Forall₂ t.Names n.outputs [w] ∧
      n.Denotes (vs.map g.outline.shape) (g.outline.shape w) kind ∧ Addable g vs [w] ∧
      addOperator kind vs [w] g = .ok g.freshOperator g' ∧ op = newOperator g kind vs [w] := by
  simp only [enter, run_bind_ok_iff, mapM_lookup_ok_iff, namesOf_lookup distinct, lift_ok_iff,
    liveOperator_ok_iff, get_ok_iff]
  constructor
  · rintro ⟨vs, _, ⟨ins, rfl⟩, ws, _, ⟨outs, rfl⟩, _, _, ⟨rfl, rfl⟩, kind, _, ⟨found, rfl⟩, o, g₁,
      added, ho, rfl⟩
    obtain ⟨w, rfl, denotes⟩ := nodeKind_ok_iff.1 found
    rw [shapes_eq, shape_eq] at denotes
    by_cases good : Addable g vs [w]
    · obtain ⟨g₂, run, _, _, ho'⟩ := built.added kind good
      cases added.symm.trans run
      cases ho.symm.trans ho'
      exact ⟨vs, w, kind, ins, outs, denotes, good, run, rfl⟩
    · obtain ⟨e, failed⟩ := addOperator_error kind good
      cases added.symm.trans failed
  · rintro ⟨vs, w, kind, ins, outs, denotes, good, run, rfl⟩
    obtain ⟨g₂, run', _, _, ho⟩ := built.added kind good
    cases run.symm.trans run'
    rw [← shapes_eq, ← shape_eq] at denotes
    exact ⟨vs, _, ⟨ins, rfl⟩, [w], _, ⟨outs, rfl⟩, _, _, ⟨rfl, rfl⟩, kind, _,
      ⟨nodeKind_ok_iff.2 ⟨w, rfl, denotes⟩, rfl⟩, _, _, run, ho, rfl⟩

/-- What it takes to add a node: it can be entered, and its shapes are those that its kind asks
for. -/
theorem Built.apply_iff (built : Built t ns g) (distinct : (t.tensors.map (·.name)).Nodup)
    {n : TracedNode} {index : Nat} {g' : Graph Binary32} :
    apply (namesOf t.tensors) n index g = .ok ⟨⟩ g' ↔ ∃ vs ws kind,
      List.Forall₂ t.Names n.inputs vs ∧ List.Forall₂ t.Names n.outputs ws ∧ t.Applies n kind ∧
      Addable g vs ws ∧ addOperator kind vs ws g = .ok g.freshOperator g' := by
  simp only [apply, run_bind_ok_iff, built.enter_iff distinct, lift_ok_iff, get_ok_iff]
  constructor
  · rintro ⟨op, _, ⟨vs, w, kind, ins, outs, denotes, good, run, rfl⟩, _, _, ⟨rfl, rfl⟩, checked,
      rfl⟩
    obtain ⟨g₂, run', _, outline, _⟩ := built.added kind good
    cases run.symm.trans run'
    obtain ⟨v, one, typed⟩ := checkOperator_iff.1 checked
    cases one
    rw [outline] at typed
    exact ⟨vs, [w], kind, ins, outs,
      (built.shown.applies_iff distinct ins outs).2 ⟨w, rfl, denotes, typed⟩, good, run⟩
  · rintro ⟨vs, ws, kind, ins, outs, applies, good, run⟩
    obtain ⟨w, rfl, denotes, typed⟩ := (built.shown.applies_iff distinct ins outs).1 applies
    obtain ⟨g₂, run', _, outline, _⟩ := built.added kind good
    cases run.symm.trans run'
    refine ⟨_, _, ⟨vs, w, kind, ins, outs, denotes, good, run, rfl⟩, _, _, ⟨rfl, rfl⟩,
      checkOperator_iff.2 ⟨w, rfl, ?_⟩, rfl⟩
    rw [outline]
    exact typed

theorem Built.apply_ok_iff (built : Built t ns g) (distinct : (t.tensors.map (·.name)).Nodup)
    {n : TracedNode} (index : Nat) : (∃ g', apply (namesOf t.tensors) n index g = .ok ⟨⟩ g') ↔
      (∃ kind, t.Applies n kind) ∧
        ∀ y ∈ n.outputs, ¬t.Carries y ∧ y ∉ n.inputs ∧ y ∉ ns.flatMap (·.outputs) := by
  simp only [built.apply_iff distinct]
  constructor
  · rintro ⟨g', vs, ws, kind, ins, outs, applies, good, _⟩
    exact ⟨⟨kind, applies⟩, (built.addable_iff distinct ins outs applies).1 good⟩
  · rintro ⟨⟨kind, applies⟩, free⟩
    obtain ⟨vs, ins⟩ := exists_names fun x hx => applies.declares (.inl hx)
    obtain ⟨ws, outs⟩ := exists_names fun x hx => applies.declares (.inr hx)
    have good := (built.addable_iff distinct ins outs applies).2 free
    obtain ⟨g', run, _⟩ := built.added kind good
    exact ⟨g', vs, ws, kind, ins, outs, applies, good, run⟩

theorem Built.step (built : Built t ns g) (distinct : (t.tensors.map (·.name)).Nodup)
    {n : TracedNode} {index : Nat} {g' : Graph Binary32}
    (h : apply (namesOf t.tensors) n index g = .ok ⟨⟩ g') : Built t (ns ++ [n]) g' := by
  obtain ⟨vs, ws, kind, ins, outs, applies, good, run⟩ := (built.apply_iff distinct).1 h
  obtain ⟨g₂, run', linked, outline, ho⟩ := built.added kind good
  cases run.symm.trans run'
  refine ⟨linked, ⟨fun v => ?_, fun o => ?_⟩, ?_⟩
  · rw [outline, Outline.setOperator_tensors]
    exact built.shown.tensors v
  · rw [outline, Outline.setOperator_operators, built.next]
    by_cases last : o = ⟨ns.length⟩
    · rw [if_pos last, last, List.getElem?_concat_length]
      exact .some ⟨ins, outs, applies⟩
    · have ne : o.index ≠ ns.length := fun e => last (by cases o; cases e; rfl)
      have same : (ns ++ [n])[o.index]? = ns[o.index]? := by
        rcases Nat.lt_or_gt_of_ne ne with before | past
        · exact List.getElem?_append_left before
        · rw [List.getElem?_eq_none (by simp; omega), List.getElem?_eq_none (Nat.le_of_lt past)]
      rw [if_neg last, same]
      exact built.shown.operators o
  · rw [addOperator_fresh good run, built.next]
    simp

/-- Adds nodes with their places. -/
def applyAll (names : Names) (nodes : List (TracedNode × Nat)) : Step Unit :=
  nodes.forM fun (node, index) => apply names node index

/-- The results of one more node are distinct from those before. -/
theorem results_concat {n : TracedNode} {kind : OperatorKind Binary32}
    (applies : t.Applies n kind) :
    ((ns ++ [n]).flatMap (·.outputs)).Nodup ↔
      (ns.flatMap (·.outputs)).Nodup ∧ ∀ y ∈ n.outputs, y ∉ ns.flatMap (·.outputs) := by
  obtain ⟨_, y, _, _, one, _⟩ := applies
  rw [List.flatMap_append, List.flatMap_singleton, one, List.nodup_append_comm, and_comm]
  simp

theorem Built.run (built : Built t ns g) (distinct : (t.tensors.map (·.name)).Nodup)
    {rest : List TracedNode} {k : Nat} {g' : Graph Binary32}
    (h : applyAll (namesOf t.tensors) (rest.zipIdx k) g = .ok ⟨⟩ g') : Built t (ns ++ rest) g' := by
  induction rest generalizing ns k g with
  | nil =>
    cases h
    rwa [List.append_nil]
  | cons n rest ih =>
    obtain ⟨_, g₁, first, others⟩ := run_bind_ok_iff.1 h
    rw [List.append_cons]
    exact ih (built.step distinct first) others

/-- All nodes can be added exactly if they are applied as they may be and no result has another
source. -/
theorem Built.applyAll_ok_iff (built : Built t ns g) (distinct : (t.tensors.map (·.name)).Nodup)
    (results : (ns.flatMap (·.outputs)).Nodup) {rest : List TracedNode} {k : Nat} :
    (∃ g', applyAll (namesOf t.tensors) (rest.zipIdx k) g = .ok ⟨⟩ g') ↔
      (∀ n ∈ rest, ∃ kind, t.Applies n kind) ∧ ((ns ++ rest).flatMap (·.outputs)).Nodup ∧
        ∀ n ∈ rest, ∀ y ∈ n.outputs, ¬t.Carries y ∧ y ∉ n.inputs := by
  induction rest generalizing ns k g with
  | nil =>
    rw [List.append_nil]
    exact ⟨fun _ => ⟨List.forall_mem_nil _, results, List.forall_mem_nil _⟩, fun _ => ⟨g, rfl⟩⟩
  | cons n rest ih =>
    have split (g' : Graph Binary32) :
        applyAll (namesOf t.tensors) ((n :: rest).zipIdx k) g = .ok ⟨⟩ g' ↔
          ∃ u g₁, apply (namesOf t.tensors) n k g = .ok u g₁ ∧
            applyAll (namesOf t.tensors) (rest.zipIdx (k + 1)) g₁ = .ok ⟨⟩ g' :=
      run_bind_ok_iff
    simp only [split, List.forall_mem_cons]
    rw [List.append_cons]
    constructor
    · rintro ⟨g', _, g₁, first, others⟩
      obtain ⟨⟨kind, applies⟩, free⟩ := (built.apply_ok_iff distinct k).1 ⟨g₁, first⟩
      have results' := (results_concat applies).2 ⟨results, fun y hy => (free y hy).2.2⟩
      obtain ⟨known, nodup, apart⟩ :=
        (ih (built.step distinct first) results').1 ⟨g', others⟩
      exact ⟨⟨⟨kind, applies⟩, known⟩, nodup,
        fun y hy => ⟨(free y hy).1, (free y hy).2.1⟩, apart⟩
    · rintro ⟨⟨⟨kind, applies⟩, known⟩, nodup, first, apart⟩
      have results' : ((ns ++ [n]).flatMap (·.outputs)).Nodup := by
        rw [List.flatMap_append] at nodup
        exact (List.nodup_append.1 nodup).1
      have fresh := ((results_concat applies).1 results').2
      obtain ⟨g₁, run⟩ := (built.apply_ok_iff distinct k).2
        ⟨⟨kind, applies⟩, fun y hy => ⟨(first y hy).1, (first y hy).2, fresh y hy⟩⟩
      obtain ⟨g', others⟩ := (ih (built.step distinct run) results').2 ⟨known, nodup, apart⟩
      exact ⟨g', _, g₁, run, others⟩

end Conversion

end TensorGraph
