import FlowEngine.Executor.Ends
import FlowEngine.Executor.Dag.Steps

namespace flow_engine.executor

/-- The output an edge is passed with: its source ended last by completing, with an output
on which the edge's condition holds. -/
def passed_output (ctx : RunContext) (ends : List (String × NodeEnd)) (edge : Edge) : Option Value :=
  match last_end ends edge.from_node with
  | some (.done outputs _) => if evaluate_edge_condition ctx edge outputs then some outputs else none
  | _ => none

/-- The values of the passed incoming edges of a node, merged in graph order. -/
def passed_inputs (ctx : RunContext) (ends : List (String × NodeEnd)) (node_id : String) : Value :=
  let merged := (build_incoming_edges ctx.graph node_id).foldl (fun merged edge =>
    match passed_output ctx ends edge with
    | some outputs => Map.insert merged edge.to_port (resolve_edge_value outputs edge.from_port)
    | none => merged) []
  match merged with
  | [] => .object []
  | [(_, value)] => value
  | _ => .object merged

/-- Every value merged into the inputs of a node comes through a passed edge, and the inputs
are what these edges give. -/
structure FromPassedEdges (ctx : RunContext) (ends : List (String × NodeEnd)) (s : RunState) (node_id : String)
    (inputs : Value) : Prop where
  contributes : ∀ edge ∈ ctx.graph.edges, edge.to_node = node_id → ∀ outputs,
    s.node_outputs edge.from_node = some outputs → passed_output ctx ends edge = some outputs
  folded : inputs = passed_inputs ctx ends node_id

/-- The edge's condition holds on what its source completed with last; a source that failed
last is no entry node and had not completed before; one that has not ended is no entry node. -/
def SourceClean (ctx : RunContext) (ends : List (String × NodeEnd)) (edge : Edge) : Prop :=
  match last_end ends edge.from_node with
  | some (.done outputs _) => evaluate_edge_condition ctx edge outputs = true
  | some .failed => edge.from_node ∉ entry_nodes ctx ∧ outputs_of ends edge.from_node = []
  | none => edge.from_node ∉ entry_nodes ctx

/-- All incoming edges of the node have clean sources. -/
def SourcesClean (ctx : RunContext) (ends : List (String × NodeEnd)) (node_id : String) : Prop :=
  ∀ edge ∈ ctx.graph.edges, edge.to_node = node_id → SourceClean ctx ends edge

theorem passed_output_eq_some {ctx : RunContext} {ends : List (String × NodeEnd)} {edge : Edge} {outputs : Value}
    (h : passed_output ctx ends edge = some outputs) :
    ∃ from_fan_in, last_end ends edge.from_node = some (.done outputs from_fan_in) ∧
      evaluate_edge_condition ctx edge outputs = true := by
  unfold passed_output at h
  split at h
  · rename_i done from_fan_in hlast
    split at h
    · rename_i hcondition
      cases h
      exact ⟨from_fan_in, hlast, hcondition⟩
    · cases h
  · cases h

theorem source_clean_of_passed {ctx : RunContext} {ends : List (String × NodeEnd)} {edge : Edge}
    (h : (passed_output ctx ends edge).isSome = true) : SourceClean ctx ends edge := by
  obtain ⟨outputs, houtputs⟩ := Option.isSome_iff_exists.mp h
  obtain ⟨_, hlast, hcondition⟩ := passed_output_eq_some houtputs
  unfold SourceClean
  rw [hlast]
  exact hcondition

/-- The merged inputs depend on the outputs of the sources edge by edge. -/
theorem resolve_inputs_eq_passed_inputs {ctx : RunContext} {ends : List (String × NodeEnd)}
    {node_outputs : String → Option Value} {node_id : String}
    (h : ∀ edge ∈ ctx.graph.edges, edge.to_node = node_id →
      node_outputs edge.from_node = passed_output ctx ends edge) :
    resolve_inputs ctx.graph node_outputs node_id = passed_inputs ctx ends node_id := by
  unfold resolve_inputs passed_inputs
  dsimp only
  have hedges : ∀ edge ∈ build_incoming_edges ctx.graph node_id,
      node_outputs edge.from_node = passed_output ctx ends edge := by
    intro edge hedge
    obtain ⟨hmem, hto⟩ := mem_build_incoming_edges.mp hedge
    exact h edge hmem hto
  rewrite [List.foldl_ext _ _ [] fun merged edge hedge => by rw [hedges edge hedge]]
  rfl

section Started

variable {ctx : RunContext}

/-- A plain task started by a spawn has the inputs its sources give it. -/
theorem spawn_ready_node_inputs {s : RunState} {ready : ReadyNode} {a : Nat} {n : String} {inputs : Value}
    (hnew : s.activations.length ≤ a)
    (hactivation : (spawn_ready_node ctx s ready).activations[a]? = some ⟨n, .plain inputs⟩) :
    inputs = resolve_inputs ctx.graph s.node_outputs n := by
  have hone : ∀ activation : Activation, (s.activations ++ [activation])[a]? = some ⟨n, .plain inputs⟩ →
      activation = ⟨n, .plain inputs⟩ := by
    intro activation hget
    rw [List.getElem?_append_right hnew] at hget
    cases hsub : a - s.activations.length with
    | zero => simpa [hsub] using hget
    | succ m => simp [hsub] at hget
  cases hitems : ready.fan_out_items with
  | none =>
    rw [spawn_ready_node_plain ctx s hitems, spawn_plain_eq] at hactivation
    split at hactivation
    · cases hone _ hactivation
      rfl
    · rw [reopen_activations, List.getElem?_eq_none hnew] at hactivation
      cases hactivation
  | some items =>
    rw [spawn_ready_node_fan_out ctx s hitems, spawn_fan_out_eq] at hactivation
    cases hone _ hactivation

theorem spawn_ready_nodes_inputs {s : RunState} {nodes : List ReadyNode} {a : Nat} {n : String} {inputs : Value}
    (hnew : s.activations.length ≤ a)
    (hactivation : (spawn_ready_nodes ctx nodes s).activations[a]? = some ⟨n, .plain inputs⟩) :
    inputs = resolve_inputs ctx.graph s.node_outputs n := by
  induction nodes generalizing s with
  | nil =>
    rw [spawn_ready_nodes, List.foldl_nil, List.getElem?_eq_none hnew] at hactivation
    cases hactivation
  | cons ready rest ih =>
    by_cases hlt : a < (spawn_ready_node ctx s ready).activations.length
    · obtain ⟨more, hmore⟩ := spawn_ready_nodes_activations ctx rest (spawn_ready_node ctx s ready)
      apply spawn_ready_node_inputs hnew
      rw [← List.getElem?_append_left hlt, ← hmore]
      exact hactivation
    · have hrest := ih (Nat.le_of_not_lt hlt) hactivation
      rwa [spawn_ready_node_node_outputs] at hrest

/-- Whatever a step starts as a single task gets its inputs from the outputs kept then. -/
theorem next_state_inputs {s next : RunState} {c : Completion} (hcounts : CountsBounded ctx s.edge_traversal_counts)
    (hstep : next_state ctx s c = some next) {a : Nat} {n : String} {inputs : Value}
    (hnew : s.activations.length ≤ a) (hactivation : next.activations[a]? = some ⟨n, .plain inputs⟩) :
    inputs = resolve_inputs ctx.graph next.node_outputs n := by
  obtain ⟨task, _, heffect⟩ := step_effect hstep
  cases heffect with
  | @completes settled outputs from_fan_in hend houtputs hsame hactivations hlog =>
    rw [evaluate_downstream_eq (hsame ▸ hcounts)] at hactivation ⊢
    rw [spawn_ready_nodes_node_outputs]
    exact spawn_ready_nodes_inputs (hactivations ▸ hnew) hactivation
  | fails hend =>
    rw [proceed_after_failure_eq] at hactivation ⊢
    rw [spawn_ready_nodes_node_outputs]
    exact spawn_ready_nodes_inputs hnew hactivation
  | waits hend houtputs hsame hactivations hlog =>
    rw [hactivations, List.getElem?_eq_none hnew] at hactivation
    cases hactivation

end Started

/-- A source shows an output exactly if it is an entry node or has completed. -/
theorem run_shows_output_iff {ctx : RunContext} (haccepted : Accepted ctx) {allowed : RunState → Completion → Prop}
    {cs : List Completion} {s : RunState} (hrun : transition.Run (next_state ctx) allowed (initial_state ctx) cs s)
    (n : String) : s.node_outputs n = none ↔ n ∉ entry_nodes ctx ∧ outputs_of (node_ends ctx cs) n = [] := by
  rw [run_node_outputs haccepted hrun, Option.or_eq_none_iff, List.getLast?_eq_none_iff, and_comm]
  simp [seeds]

/-- The inputs of a task started by a step are those of its passed incoming edges exactly if
its sources are clean. -/
theorem inputs_from_passed_edges_iff {ctx : RunContext} (haccepted : Accepted ctx)
    {allowed : RunState → Completion → Prop} {cs : List Completion} {s next : RunState} {c : Completion}
    (hrun : transition.Run (next_state ctx) allowed (initial_state ctx) cs s) (hallowed : allowed s c)
    (hstep : next_state ctx s c = some next) {a : Nat} {n : String} {inputs : Value}
    (hnew : s.activations.length ≤ a) (hactivation : next.activations[a]? = some ⟨n, .plain inputs⟩) :
    FromPassedEdges ctx (node_ends ctx (cs ++ [c])) next n inputs ↔
      SourcesClean ctx (node_ends ctx (cs ++ [c])) n := by
  have hnext := hrun.snoc hallowed hstep
  have hshown := fun u => run_shows_output_iff haccepted hnext u
  have hlatest := fun u => run_node_outputs haccepted hnext u
  constructor
  · intro h edge hedge hto
    have hcontributes := h.contributes edge hedge hto
    have hnot : (∀ outputs, passed_output ctx (node_ends ctx (cs ++ [c])) edge ≠ some outputs) →
        next.node_outputs edge.from_node = none := by
      intro hnone
      by_contra hsome
      obtain ⟨outputs, houtputs⟩ := Option.ne_none_iff_exists'.mp hsome
      exact hnone outputs (hcontributes outputs houtputs)
    unfold SourceClean
    cases hlast : last_end (node_ends ctx (cs ++ [c])) edge.from_node with
    | none => exact ((hshown _).mp (hnot (by simp [passed_output, hlast]))).1
    | some how =>
      cases how with
      | failed => exact (hshown _).mp (hnot (by simp [passed_output, hlast]))
      | done outputs from_fan_in =>
        have hvalue : next.node_outputs edge.from_node = some outputs := by
          rw [hlatest, getLast?_outputs_of hlast, Option.some_or]
        obtain ⟨_, _, hcondition⟩ := passed_output_eq_some (hcontributes outputs hvalue)
        exact hcondition
  · intro hclean
    have hsame : ∀ edge ∈ ctx.graph.edges, edge.to_node = n →
        next.node_outputs edge.from_node = passed_output ctx (node_ends ctx (cs ++ [c])) edge := by
      intro edge hedge hto
      have hedge_clean := hclean edge hedge hto
      unfold SourceClean at hedge_clean
      unfold passed_output
      cases hlast : last_end (node_ends ctx (cs ++ [c])) edge.from_node with
      | none =>
        rw [hlast] at hedge_clean
        exact (hshown _).mpr ⟨hedge_clean, outputs_of_eq_nil hlast⟩
      | some how =>
        rw [hlast] at hedge_clean
        cases how with
        | failed => exact (hshown _).mpr hedge_clean
        | done outputs from_fan_in =>
          dsimp only at hedge_clean
          rw [hlatest, getLast?_outputs_of hlast, Option.some_or]
          simp [hedge_clean]
    constructor
    · intro edge hedge hto outputs houtputs
      rw [← hsame edge hedge hto, houtputs]
    · rw [next_state_inputs (run_countsBounded hrun) hstep hnew hactivation]
      exact resolve_inputs_eq_passed_inputs hsame

/-- A join with a condition on the edge of one of its sources. -/
def refusing_sample : RunContext :=
  sample_context ["A", "B", "T"] [sample_edge "bt" "B" "T" none,
    sample_edge "at" "A" "T" (some "finish_reason == \"tool_calls\"")] 50

/-- A task of the sample that reports the reason it finished for. -/
def finished_with (activation : Nat) (reason : String) : Completion :=
  ⟨⟨activation, 0⟩, .returned (.Success (.object [("finish_reason", .string reason)])) []⟩

/-- The reason in the inputs of a single task. -/
def Work.reason : Work → Option String
  | .plain inputs =>
    match inputs.get "finish_reason" with
    | some (.string reason) => some reason
    | _ => none
  | .fan_out _ => none

/-- The join starts when its second source has finished, on what the first put out. -/
theorem refusing_sample_starts (reason : String) (hreason : reason ∈ ["stop", "tool_calls"]) :
    ∃ s next inputs, transition.Run (next_state refusing_sample) (fun _ _ => True) (initial_state refusing_sample)
        [finished_with 0 reason] s ∧ s.activations.length = 2 ∧
      next_state refusing_sample s (finished_with 1 "tool_calls") = some next ∧
      next.activations[2]? = some ⟨"T", .plain inputs⟩ ∧ (Work.plain inputs).reason = some reason := by
  have hstarts : ∀ reason ∈ ["stop", "tool_calls"],
      ([finished_with 0 reason].foldlM (next_state refusing_sample) (initial_state refusing_sample)).map (fun s =>
        (s.activations.length, (next_state refusing_sample s (finished_with 1 "tool_calls")).map fun next =>
          (next.activations[2]?).map fun started => (started.node_id, started.work.reason))) =
            some (2, some (some ("T", some reason))) := by decide +kernel
  obtain ⟨s, hrun, hread⟩ := Option.map_eq_some_iff.mp (hstarts reason hreason)
  obtain ⟨hlength, hnext⟩ := Prod.mk.inj hread
  obtain ⟨next, hstep, hstarted⟩ := Option.map_eq_some_iff.mp hnext
  obtain ⟨⟨n, work⟩, hactivation, hwork⟩ := Option.map_eq_some_iff.mp hstarted
  obtain ⟨rfl, hplain⟩ := Prod.mk.inj hwork
  cases work with
  | plain inputs => exact ⟨s, next, inputs, transition.run_of_foldlM hrun, hlength, hstep, hactivation, hplain⟩
  | fan_out items => cases hplain

theorem inputs_from_passed_edges_iff_sample : ∃ next inputs,
    next.activations[2]? = some ⟨"T", .plain inputs⟩ ∧ FromPassedEdges refusing_sample
      (node_ends refusing_sample [finished_with 0 "tool_calls", finished_with 1 "tool_calls"]) next "T" inputs := by
  obtain ⟨s, next, inputs, hrun, hlength, hstep, hactivation, _⟩ := refusing_sample_starts "tool_calls" (by simp)
  refine ⟨next, inputs, hactivation, (inputs_from_passed_edges_iff (sample_accepted 50 (by decide +kernel)) hrun
    trivial hstep (le_of_eq hlength) hactivation).mpr ?_⟩
  have hpassed : ∀ edge ∈ refusing_sample.graph.edges, (passed_output refusing_sample
      (node_ends refusing_sample [finished_with 0 "tool_calls", finished_with 1 "tool_calls"]) edge).isSome = true := by
    decide +kernel
  exact fun edge hedge _ => source_clean_of_passed (hpassed edge hedge)

/-- A join runs on what the source of its refused edge put out. -/
theorem refused_edge_feeds_join : Accepted refusing_sample ∧ "T" ∉ entry_nodes refusing_sample ∧
    ∃ s next inputs, transition.Run (next_state refusing_sample) (fun _ _ => True) (initial_state refusing_sample)
        [finished_with 0 "stop"] s ∧ s.activations.length = 2 ∧
      next_state refusing_sample s (finished_with 1 "tool_calls") = some next ∧
      next.activations[2]? = some ⟨"T", .plain inputs⟩ ∧ (Work.plain inputs).reason = some "stop" ∧
      ¬ FromPassedEdges refusing_sample
        (node_ends refusing_sample [finished_with 0 "stop", finished_with 1 "tool_calls"]) next "T" inputs := by
  obtain ⟨s, next, inputs, hrun, hlength, hstep, hactivation, hreason⟩ := refusing_sample_starts "stop" (by simp)
  refine ⟨sample_accepted 50 (by decide +kernel), by decide +kernel, s, next, inputs, hrun, hlength, hstep,
    hactivation, hreason, ?_⟩
  intro hpassed
  have hfolded : ((Work.plain (passed_inputs refusing_sample
      (node_ends refusing_sample [finished_with 0 "stop", finished_with 1 "tool_calls"]) "T")).reason) =
        some "tool_calls" := by
    decide +kernel
  rw [← hpassed.folded, hreason] at hfolded
  exact absurd hfolded (by decide)

end flow_engine.executor
