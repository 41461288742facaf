import TensorGraph.Proofs.Trace.Conversion

/-!
# TensorGraph.Proofs.Trace.Acceptance

Which traces have a graph, and which graph it is.

* `toGraph_ok_iff`: what a conversion does, one part after the other.
* `Trace.Depicted`: the nodes of a trace are the operators of a graph, and what they or the
  designations name are its variables.
* `wellFormed_of_ok`, `ok_of_wellFormed`: exactly the well-formed traces have a graph.
* `toGraph_checked`, `depicted_of_ok`: it is checked, and depicts the trace.
-/

namespace TensorGraph

open Relation (TransGen)

/-! ## Conversion makes its graph by edits -/

namespace Conversion

open Edit TensorGraph.Graph Trace

variable {β γ : Type}

theorem reaches_fail (flaw : TraceFlaw) : (fail flaw : Step β).Reaches := reaches_throw _

theorem reaches_lift (e : Except GraphError β) : (lift e).Reaches := by
  cases e with
  | ok x => exact reaches_pure x
  | error err => exact reaches_throw err

theorem reaches_unless {c : Prop} [Decidable c] {flaw : TraceFlaw} {k : Unit → Step γ}
    (h : (k ⟨⟩).Reaches) : (if c then fail flaw >>= k else k ⟨⟩).Reaches := by
  by_cases holds : c
  · rw [if_pos holds]
    exact (reaches_fail flaw).bind fun _ => h
  · rwa [if_neg holds]

theorem reaches_mapM {f : β → Step γ} (h : ∀ x, (f x).Reaches) (xs : List β) :
    (xs.mapM f).Reaches := by
  induction xs with
  | nil => exact reaches_pure _
  | cons x xs ih =>
    rw [List.mapM_cons]
    exact (h x).bind fun _ => ih.bind fun _ => reaches_pure _

theorem reaches_foldlM {f : γ → β → Step γ} (h : ∀ acc x, (f acc x).Reaches) (xs : List β)
    (start : γ) : (xs.foldlM f start).Reaches := by
  induction xs generalizing start with
  | nil => exact reaches_pure _
  | cons x xs ih =>
    rw [List.foldlM_cons]
    exact (h start x).bind ih

theorem reaches_lookup (names : Names) (flaw : String → TraceFlaw) (x : String) :
    (lookup names flaw x).Reaches := by
  unfold lookup
  cases names.lookup x with
  | none => exact reaches_fail _
  | some v => exact reaches_pure v

theorem reaches_addVariable (name : String) (shape : Shape) :
    (Edit.addVariable name shape : Step VariableId).Reaches :=
  reaches_of_discard (reaches_call (.addVariable name shape))

theorem reaches_addOperator (kind : OperatorKind Binary32) (vs ws : List VariableId) :
    (Edit.addOperator kind vs ws).Reaches :=
  reaches_of_discard (reaches_call (.addOperator kind vs ws))

theorem reaches_liveOperator (o : OperatorId) :
    (liveOperator o : Step (Operator Binary32)).Reaches := by
  refine reaches_get.bind fun g => ?_
  cases g.operatorAt? o with
  | none => exact reaches_throw _
  | some op => exact reaches_pure op

theorem reaches_refuse {c : Prop} [Decidable c] {flaw : TraceFlaw} :
    (if c then fail flaw else pure ⟨⟩ : Step Unit).Reaches := by
  by_cases holds : c
  · rw [if_pos holds]
    exact reaches_fail flaw
  · rw [if_neg holds]
    exact reaches_pure _

theorem reaches_inspect (names : Names) (d : TracedVariable) : (inspect names d).Reaches := by
  unfold inspect
  cases d.elementType with
  | none => exact reaches_unless reaches_refuse
  | some type => exact reaches_unless (reaches_unless reaches_refuse)

theorem reaches_store (names : Names) (d : TracedVariable) : (store names d).Reaches := by
  have added {e : Step VariableId} (h : e.Reaches) :
      (e >>= fun id => pure (names ++ [(d.name, id)]) : Step Names).Reaches :=
    h.bind fun _ => reaches_pure _
  unfold store
  cases d.payload with
  | none => exact added (reaches_addVariable _ _)
  | some p => exact reaches_unless (added (reaches_addConstant _ _ p))

theorem reaches_declare (names : Names) (d : TracedVariable) : (declare names d).Reaches :=
  (reaches_inspect names d).bind fun _ => reaches_store names d

theorem reaches_enter (names : Names) (n : TracedNode) (index : Nat) :
    (enter names n index).Reaches := by
  refine (reaches_mapM (reaches_lookup names _) n.inputs).bind fun vs => ?_
  refine (reaches_mapM (reaches_lookup names _) n.outputs).bind fun ws => ?_
  refine reaches_get.bind fun g => (reaches_lift _).bind fun kind => ?_
  exact (reaches_addOperator kind vs ws).bind fun o => reaches_liveOperator o

theorem reaches_apply (names : Names) (n : TracedNode) (index : Nat) :
    (apply names n index).Reaches :=
  (reaches_enter names n index).bind fun _ => reaches_get.bind fun _ => reaches_lift _

theorem reaches_finish (t : Trace) (names : Names) : (finish t names).Reaches := by
  refine (reaches_mapM (reaches_lookup names _) t.inputs).bind fun vs => ?_
  refine (reaches_mapM (reaches_lookup names _) t.outputs).bind fun ws => ?_
  refine (reaches_call (.designateInputs vs)).bind fun _ => ?_
  refine (reaches_call (.designateOutputs ws)).bind fun _ => ?_
  exact reaches_prune.discard.bind fun _ => reaches_get.bind fun g => reaches_lift _

theorem reaches_all (t : Trace) : (all t).Reaches := by
  have nodes (names : Names) : (applyAll names t.nodes.zipIdx).Reaches := by
    refine reaches_forM (fun p => ?_) t.nodes.zipIdx
    exact reaches_apply names p.1 p.2
  refine (reaches_foldlM reaches_declare t.tensors []).bind fun names => ?_
  exact (nodes names).bind fun _ => reaches_finish t names

/-! ## Parts of a conversion together -/

/-- The graph of a trace before it is pruned. -/
def designated (g : Graph Binary32) (vs ws : List VariableId) : Graph Binary32 :=
  { g with inputs := vs, outputs := ws }

theorem toGraph_ok_iff_all {t : Trace} {g : Graph Binary32} :
    t.toGraph = .ok g ↔ all t .empty = .ok ⟨⟩ g := by
  unfold Trace.toGraph
  cases all t .empty with
  | ok u g' => exact ⟨fun h => by cases h; rfl, fun h => by cases h; rfl⟩
  | error e g' => exact ⟨(nomatch ·), (nomatch ·)⟩

/-- What a conversion does, one part after the other. -/
theorem toGraph_ok_iff {t : Trace} {g : Graph Binary32} : t.toGraph = .ok g ↔
    (t.tensors.map (·.name)).Nodup ∧ (∀ d ∈ t.tensors, d.Proper) ∧ ∃ g₀ vs ws n,
      applyAll (namesOf t.tensors) t.nodes.zipIdx (bare t.tensors) = .ok ⟨⟩ g₀ ∧
      List.Forall₂ t.Names t.inputs vs ∧ List.Forall₂ t.Names t.outputs ws ∧
      (∀ v ∈ vs, ∃ x, g₀.variableAt? v = some x ∧ x.producer = none ∧ x.payload = none) ∧
      prune (designated g₀ vs ws) = .ok n g ∧ g.validate = .ok ⟨⟩ := by
  have tensors {names : Names} {g₀ : Graph Binary32} :
      t.tensors.foldlM declare [] Graph.empty = .ok names g₀ ↔
        (t.tensors.map (·.name)).Nodup ∧ (∀ d ∈ t.tensors, d.Proper) ∧
          names = namesOf t.tensors ∧ g₀ = bare t.tensors := by
    have none_twice : (([] : List TracedVariable).map (·.name)).Nodup := List.nodup_nil
    exact declareAll_ok_iff none_twice
  rw [toGraph_ok_iff_all, all]
  simp only [finish, run_bind_ok_iff, tensors, run_discard_ok_iff, get_ok_iff, lift_ok_iff]
  constructor
  · rintro ⟨_, _, ⟨distinct, proper, rfl, rfl⟩, _, g₀, nodes, vs, _, ins, ws, _, outs, _, g₁,
      designateIns, _, g₂, designateOuts, _, g₃, ⟨n, pruned⟩, _, _, ⟨rfl, rfl⟩, valid, rfl⟩
    simp only [mapM_lookup_ok_iff, namesOf_lookup distinct] at ins outs
    obtain ⟨ins, rfl⟩ := ins
    obtain ⟨outs, rfl⟩ := outs
    rcases run_designateInputs (g := g₀) vs with ⟨run, free⟩ | ⟨e, run⟩
    · cases run.symm.trans designateIns
      rcases run_designateOutputs (g := { g₀ with inputs := vs }) ws with ⟨run, _⟩ | ⟨e, run⟩
      · cases run.symm.trans designateOuts
        exact ⟨distinct, proper, g₀, vs, ws, n, nodes, ins, outs, free, pruned, valid⟩
      · cases run.symm.trans designateOuts
    · cases run.symm.trans designateIns
  · rintro ⟨distinct, proper, g₀, vs, ws, n, nodes, ins, outs, free, pruned, valid⟩
    have built : Built t t.nodes g₀ := (built_bare proper).run distinct nodes
    have live (v : VariableId) (hv : v ∈ ws) :
        ({ g₀ with inputs := vs } : Graph Binary32).outline.Live v := by
      obtain ⟨x, _, hx⟩ := exists_left outs hv
      obtain ⟨u, hu, _⟩ := built.variable distinct hx
      exact live_iff.2 ⟨u, hu⟩
    have found {xs : List String} {us : List VariableId} (h : List.Forall₂ t.Names xs us) :
        List.Forall₂ (fun x v => (namesOf t.tensors).lookup x = some v) xs us :=
      h.imp fun _ _ => (namesOf_lookup distinct).2
    simp only [mapM_lookup_ok_iff]
    exact ⟨_, _, ⟨distinct, proper, rfl, rfl⟩, _, g₀, nodes, vs, _, ⟨found ins, rfl⟩, ws, _,
      ⟨found outs, rfl⟩,
      _, _, designateInputs_ok free, _, _, designateOutputs_ok live, ⟨⟩, _, ⟨n, pruned⟩, _, _,
      ⟨rfl, rfl⟩, valid, rfl⟩

variable {t : Trace} {g₀ g : Graph Binary32} {vs ws : List VariableId}

theorem Built.free_iff (built : Built t t.nodes g₀) (distinct : (t.tensors.map (·.name)).Nodup)
    (ins : List.Forall₂ t.Names t.inputs vs) :
    (∀ v ∈ vs, ∃ x, g₀.variableAt? v = some x ∧ x.producer = none ∧ x.payload = none) ↔
      ∀ x ∈ t.inputs, ¬t.Carries x ∧ ¬t.Computes x := by
  have computes (x : String) : x ∉ t.nodes.flatMap (·.outputs) ↔ ¬t.Computes x := by
    rw [List.mem_flatMap]
    rfl
  constructor
  · intro free x hx
    obtain ⟨v, hv, named⟩ := exists_right ins hx
    obtain ⟨u, hu, unproduced, unset⟩ := built.variable distinct named
    obtain ⟨u', hu', producer, payload⟩ := free v hv
    cases hu.symm.trans hu'
    exact ⟨unset.1 payload, (computes x).1 (unproduced.1 producer)⟩
  · intro free v hv
    obtain ⟨x, hx, named⟩ := exists_left ins hv
    obtain ⟨u, hu, unproduced, unset⟩ := built.variable distinct named
    obtain ⟨loose, fresh⟩ := free x hx
    exact ⟨u, hu, unproduced.2 ((computes x).2 fresh), unset.2 loose⟩

theorem Built.designated_shown (built : Built t t.nodes g₀) :
    t.Shown t.nodes (designated g₀ vs ws).outline :=
  ⟨built.shown.tensors, built.shown.operators⟩

theorem Built.designated_linked (built : Built t t.nodes g₀)
    (distinct : (t.tensors.map (·.name)).Nodup) (ins : List.Forall₂ t.Names t.inputs vs)
    (outs : List.Forall₂ t.Names t.outputs ws) : (designated g₀ vs ws).Linked := by
  refine designate_linked built.linked (fun v hv => ?_) fun v hv => ?_
  · obtain ⟨x, _, hx⟩ := exists_left ins hv
    obtain ⟨u, hu, _⟩ := built.variable distinct hx
    exact live_iff.2 ⟨u, hu⟩
  · obtain ⟨x, _, hx⟩ := exists_left outs hv
    obtain ⟨u, hu, _⟩ := built.variable distinct hx
    exact live_iff.2 ⟨u, hu⟩

/-- The graph of a trace is valid if the trace uses its names as it should. -/
theorem Built.validate_iff (built : Built t t.nodes g₀)
    (distinct : (t.tensors.map (·.name)).Nodup) (proper : ∀ d ∈ t.tensors, d.Proper)
    (computed : ∀ n ∈ t.nodes, ∀ y ∈ n.outputs, ¬t.Carries y)
    (ins : List.Forall₂ t.Names t.inputs vs) (outs : List.Forall₂ t.Names t.outputs ws)
    (free : ∀ x ∈ t.inputs, ¬t.Carries x ∧ ¬t.Computes x) {n : Nat}
    (pruned : prune (designated g₀ vs ws) = .ok n g) : g.validate = .ok ⟨⟩ ↔
      (∀ i, ¬TransGen t.Feeds i i) ∧
      (∀ x, t.Reads x ∨ x ∈ t.outputs → x ∈ t.inputs ∨ t.Carries x ∨ t.Computes x) ∧
      ∀ x, t.Computes x → t.Reads x ∨ x ∈ t.outputs := by
  obtain ⟨m, g', run, linked, outline⟩ := prune_yields (built.designated_linked distinct ins outs)
  cases pruned.symm.trans run
  have shown : t.Shown t.nodes (designated g₀ vs ws).outline := built.designated_shown
  have sound := shown.sound_iff distinct proper computed ins outs
  rw [validate_pruned_iff linked outline (fun _ _ => shown.typed distinct) (shown.positive proper)
    (fun _ => shown.inputs_free distinct ins free), sound, and_iff_right free]

/-- A trace with a graph is well-formed. -/
theorem wellFormed_of_ok (h : t.toGraph = .ok g) : t.WellFormed := by
  obtain ⟨distinct, proper, g₀, vs, ws, n, nodes, ins, outs, free, pruned, valid⟩ :=
    toGraph_ok_iff.1 h
  have start := built_bare proper
  have built : Built t t.nodes g₀ := start.run distinct nodes
  obtain ⟨known, results, apart⟩ :=
    (start.applyAll_ok_iff distinct List.nodup_nil).1 ⟨g₀, nodes⟩
  have inputs := (built.free_iff distinct ins).1 free
  obtain ⟨acyclic, sourced, used⟩ := (built.validate_iff distinct proper
    (fun n hn y hy => (apart n hn y hy).1) ins outs inputs pruned).1 valid
  have declared {xs : List String} {us : List VariableId} (names : List.Forall₂ t.Names xs us)
      (x : String) (hx : x ∈ xs) : t.Declares x := by
    obtain ⟨v, _, hv⟩ := exists_right names hx
    exact hv.declares
  exact ⟨distinct, proper, known, results, apart, fun x hx => ⟨declared ins x hx, inputs x hx⟩,
    declared outs, acyclic, sourced, used⟩

/-- A well-formed trace has a graph. -/
theorem ok_of_wellFormed (h : t.WellFormed) : ∃ g, t.toGraph = .ok g := by
  have start := built_bare h.tensors
  obtain ⟨g₀, nodes⟩ := (start.applyAll_ok_iff h.distinct List.nodup_nil (k := 0)).2
    ⟨h.nodes, h.results_distinct, h.results_computed⟩
  have built : Built t t.nodes g₀ := start.run h.distinct nodes
  obtain ⟨vs, ins⟩ := exists_names fun x hx => (h.inputs x hx).1
  obtain ⟨ws, outs⟩ := exists_names h.outputs
  have inputs (x : String) (hx : x ∈ t.inputs) := (h.inputs x hx).2
  obtain ⟨n, g, pruned, _⟩ := prune_yields (built.designated_linked h.distinct ins outs)
  have valid := (built.validate_iff h.distinct h.tensors
    (fun n hn y hy => (h.results_computed n hn y hy).1) ins outs inputs pruned).2
    ⟨h.acyclic, h.sourced, h.used⟩
  exact ⟨g, toGraph_ok_iff.2 ⟨h.distinct, h.tensors, g₀, vs, ws, n, nodes, ins, outs,
    (built.free_iff h.distinct ins).2 inputs, pruned, valid⟩⟩

/-- The graph of a trace is what pruning leaves of an outline that shows the trace and is sound. -/
theorem outline_of_ok (h : t.toGraph = .ok g) : g.Linked ∧ ∃ O, g.outline = O.pruned ∧
    t.Shown t.nodes O ∧ List.Forall₂ t.Names t.inputs O.inputs ∧
    List.Forall₂ t.Names t.outputs O.outputs ∧ ∃ rank, O.Sound rank := by
  have good := wellFormed_of_ok h
  obtain ⟨distinct, proper, g₀, vs, ws, n, nodes, ins, outs, _, pruned, _⟩ := toGraph_ok_iff.1 h
  have built : Built t t.nodes g₀ := (built_bare proper).run distinct nodes
  obtain ⟨m, g', run, linked, outline⟩ := prune_yields (built.designated_linked distinct ins outs)
  cases pruned.symm.trans run
  have shown : t.Shown t.nodes (designated g₀ vs ws).outline := built.designated_shown
  refine ⟨linked, _, outline, shown, ins, outs, (shown.sound_iff distinct proper ?_ ins outs).2 ?_⟩
  · exact fun n hn y hy => (good.results_computed n hn y hy).1
  · exact ⟨fun x hx => (good.inputs x hx).2, good.acyclic, good.sourced, good.used⟩

/-- The graph of a trace is checked. -/
theorem toGraph_checked (h : t.toGraph = .ok g) : g.Checked := by
  obtain ⟨linked, O, outline, _, _, _, rank, sound⟩ := outline_of_ok h
  have tidy : g.Tidy := by
    refine ⟨linked, ⟨rank, outline ▸ sound.pruned⟩, fun v live => ?_⟩
    rw [outline] at live ⊢
    exact Outline.pruned_needed live
  have reachable := reaches_all t .empty .empty
  rw [Edit.after, toGraph_ok_iff_all.1 h] at reachable
  exact tidy.checked reachable

end Conversion

/-- The nodes of a trace are the operators of a graph, and there are no others. Its variables are
the tensors that are read, computed or designated. Ids are places in the trace. -/
structure Trace.Depicted (t : Trace) (g : Graph Binary32) : Prop where
  operators : ∀ o, Option.Rel t.Lowers t.nodes[o.index]? (g.operatorAt? o)
  tensors : ∀ v x, g.variableAt? v = some x → ∃ d, t.tensors[v.index]? = some d ∧
    x.name = d.name ∧ x.shape = d.shape ∧ x.payload = d.payload
  kept : ∀ v d, t.tensors[v.index]? = some d → ((∃ x, g.variableAt? v = some x) ↔
    t.Reads d.name ∨ t.Computes d.name ∨ d.name ∈ t.inputs ∨ d.name ∈ t.outputs)
  inputs : List.Forall₂ t.Names t.inputs g.inputs
  outputs : List.Forall₂ t.Names t.outputs g.outputs

/-- The graph of a trace depicts it. -/
theorem Conversion.depicted_of_ok {t : Trace} {g : Graph Binary32} (h : t.toGraph = .ok g) :
    t.Depicted g := by
  have distinct := (wellFormed_of_ok h).distinct
  obtain ⟨linked, O, outline, shown, ins, outs, _⟩ := outline_of_ok h
  constructor
  case operators =>
    intro o
    rw [← Graph.outline_operators, outline]
    exact shown.operators o
  case tensors =>
    intro v x hx
    have found := Graph.outline_tensors_of hx
    rw [outline] at found
    by_cases needed : O.Needed v
    · rw [Outline.pruned_tensors needed, shown.tensors] at found
      obtain ⟨d, hd, same⟩ := Option.map_eq_some_iff.1 found
      exact ⟨d, hd, (congrArg Tensor.name same).symm, (congrArg Tensor.shape same).symm,
        (congrArg Tensor.payload same).symm⟩
    · rw [Outline.pruned_tensors_none needed] at found
      cases found
  case kept =>
    intro v d hd
    have hx : t.Names d.name v := ⟨d, hd, rfl⟩
    have found : O.tensors v = some d.tensor := by rw [shown.tensors, hd, Option.map_some]
    have needed : O.Needed v ↔ t.Computes d.name ∨ t.Reads d.name ∨ d.name ∈ t.inputs ∨
        d.name ∈ t.outputs :=
      or_congr (shown.written_iff distinct hx) (or_congr (shown.read_iff distinct hx)
        (or_congr (Trace.Names.mem_iff distinct ins hx) (Trace.Names.mem_iff distinct outs hx)))
    rw [← Graph.live_iff, outline, or_left_comm, ← needed]
    constructor
    · intro live
      exact Outline.pruned_needed live
    · intro h
      exact ⟨d.tensor, (Outline.pruned_tensors h).trans found⟩
  case inputs =>
    rw [← Graph.outline_inputs, outline]
    exact ins
  case outputs =>
    rw [← Graph.outline_outputs, outline]
    exact outs

/-- A layer and a softmax over its default axis, beside a tensor that nothing uses. -/
def Trace.classifier : Trace :=
  Trace.empty.addVariable "x" [1, 2] |>.addConstant "w" [2, 2] #[1, 0, 0, 1]
    |>.addVariable "spare" [3] |>.addVariable "y" [1, 2] |>.addVariable "z" [1, 2]
    |>.addNode "Linear" ["x", "w"] ["y"] (.object [])
    |>.addNode "Softmax" ["y"] ["z"] (.object [("axis", .null)])
    |>.designate ["x"] ["z"]

end TensorGraph
