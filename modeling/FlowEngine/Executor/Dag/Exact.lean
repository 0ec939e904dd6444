import FlowEngine.Executor.Dag.Once

namespace flow_engine.executor

open dataflow (Activated Legal found keys)

/-- A handler's output holds no non-empty array for any outgoing edge. -/
def SendsNoArray (ctx : RunContext) (node_id : String) (outputs : Value) : Prop :=
  ∀ edge ∈ ctx.graph.edges, edge.from_node = node_id → ∀ item items,
    resolve_edge_value outputs edge.from_port ≠ .array (item :: items)

theorem SendsNoArray.small {ctx : RunContext} {node_id : String} {outputs : Value}
    (h : SendsNoArray ctx node_id outputs) : SmallArrays ctx node_id outputs := by
  intro edge hedge hfrom items hvalue
  cases items with
  | nil => decide
  | cons item rest => exact absurd hvalue (h edge hedge hfrom item rest)

theorem fan_out_items_eq_none {ctx : RunContext} {node_id : String} {outputs : Value}
    (h : SendsNoArray ctx node_id outputs) {edge : Edge} (hedge : edge ∈ ctx.graph.edges)
    (hfrom : edge.from_node = node_id) (from_fan_in : Bool) : fan_out_items outputs edge from_fan_in = none := by
  cases hitems : fan_out_items outputs edge from_fan_in with
  | none => rfl
  | some items =>
    obtain ⟨_, hne, hvalue⟩ := fan_out_items_eq_some hitems
    obtain ⟨item, rest, rfl⟩ := List.exists_cons_of_ne_nil hne
    exact absurd hvalue (h edge hedge hfrom item rest)

/-- The handlers that succeed and send no arrays. -/
def plain_handlers (ctx : RunContext) : Handlers := fun node_id _ outcome =>
  ∃ outputs, outcome = .Success outputs ∧ SendsNoArray ctx node_id outputs

/-- What a run on a plain acyclic graph has to show in every reached state. -/
structure DagExact (ctx : RunContext) (may : Task → NodeOutcome → Prop) (cs : List Completion) (s : RunState) :
    Prop where
  once : (s.activations.map Activation.node_id).Nodup
  sources_completed : ∀ activation ∈ s.activations, ∀ edge ∈ ctx.graph.edges,
    edge.to_node = activation.node_id → edge.from_node ∈ s.completed
  entry_inputs : ∀ activation ∈ s.activations, activation.node_id ∈ entry_nodes ctx →
    activation.work = .plain ctx.inputs
  joined_inputs : ∀ activation ∈ s.activations, activation.node_id ∉ entry_nodes ctx →
    activation.work = .plain (resolve_inputs ctx.graph s.node_outputs activation.node_id)
  /-- No run is longer than the number of nodes. -/
  bounded : cs.length ≤ ctx.graph.nodes.length
  no_panic : ∀ c, Finishes may s c → ∃ next, next_state ctx s c = some next
  progress : s.running ≠ [] → ∃ c next, Finishes may s c ∧ next_state ctx s c = some next
  /-- When no task is left every node has run once and completed. -/
  ended : s.running = [] → s.completed = (ctx.graph.nodes.map NodeInstance.instance_id).toFinset ∧ s.failed = ∅ ∧
    (∀ node ∈ ctx.graph.nodes, (s.activations.map Activation.node_id).count node.instance_id = 1) ∧
    final_status ctx s false = .Completed

section Plain

variable {ctx : RunContext} {order : List (String × NodeEnd)}
  (hlegal : Legal (net ctx) (Ends (plain_handlers ctx)) order)
include hlegal

/-- Without arrays a node that ended is done, as the end of a fan-out or with an output
that is sent on whole. -/
theorem found_plain {x : String} {r : NodeEnd} (hfound : found order x = some r) :
    ∃ outputs from_fan_in, r = .done outputs from_fan_in ∧
      (from_fan_in = false → SendsNoArray ctx x outputs) := by
  have hmem : x ∈ keys order := by
    by_contra hnot
    rw [dataflow.found_eq_none hnot] at hfound
    cases hfound
  obtain ⟨w, r', _, hfound', hends⟩ := hlegal.activated hmem
  rw [hfound] at hfound'
  cases hfound'
  cases hends with
  | plain_done hmay =>
    obtain ⟨outputs, heq, hsends⟩ := hmay
    cases heq
    exact ⟨_, _, rfl, fun _ => hsends⟩
  | plain_failed hmay =>
    obtain ⟨outputs, heq, _⟩ := hmay
    cases heq
  | fan_in _ => exact ⟨_, _, rfl, fun hdirect => absurd hdirect (by simp)⟩

theorem fan_out_items_plain {x v : String} {outputs : Value} {from_fan_in : Bool} {edge : Edge}
    (hfound : found order x = some (.done outputs from_fan_in))
    (hpassing : passing_edge ctx outputs x v = some edge) : fan_out_items outputs edge from_fan_in = none := by
  obtain ⟨outputs', from_fan_in', heq, hsends⟩ := found_plain hlegal hfound
  cases heq
  obtain ⟨hedge, hfrom, _⟩ := passing_edge_spec hpassing
  cases from_fan_in with
  | true => rfl
  | false => exact fan_out_items_eq_none (hsends rfl) hedge hfrom false

/-- The work of a node: the trigger inputs, or what its sources left. -/
theorem activated_plain {v : String} {w : Work} (hactive : Activated (net ctx) order v w) :
    (sources ctx v = [] ∧ w = .plain ctx.inputs) ∨ (sources ctx v ≠ [] ∧ w = join_work ctx (found order) v) := by
  rcases activated_cases hactive with
    ⟨hnil, _, hw⟩ | ⟨x, outputs, from_fan_in, edge, _, hsource, hfound, hpassing, hw⟩ | ⟨x, _, _, hfound, _⟩
  · exact Or.inl ⟨hnil, hw⟩
  · rw [fan_out_items_plain hlegal hfound hpassing] at hw
    exact Or.inr ⟨List.ne_nil_of_mem hsource, hw⟩
  · obtain ⟨_, _, heq, _⟩ := found_plain hlegal hfound
    cases heq

/-- A node whose sources have ended is activated: its closing source passes an edge to
it. -/
theorem activated_of_sources (hconditions : ∀ edge ∈ ctx.graph.edges, edge.condition = none)
    (hlimit : 1 ≤ ctx.max_traversals) {v : String} (hnode : v ∈ ctx.graph.nodes.map NodeInstance.instance_id)
    (hsources : ∀ u ∈ sources ctx v, u ∈ keys order) : ∃ w, Activated (net ctx) order v w := by
  by_cases hnil : sources ctx v = []
  · exact ⟨_, Or.inl ⟨hnil, if_pos hnode⟩⟩
  · obtain ⟨x, hx⟩ : ∃ x, dataflow.Closes (net ctx) order x v := dataflow.exists_closes hnil hsources
    obtain ⟨_, r, _, hfound, _⟩ := hlegal.activated (hsources x hx.1)
    obtain ⟨outputs, from_fan_in, rfl, _⟩ := found_plain hlegal hfound
    obtain ⟨edge, hedge, hfrom, hto⟩ := mem_sources.mp hx.1
    have hcondition : evaluate_edge_condition ctx edge outputs = true := by
      rw [evaluate_edge_condition, hconditions edge hedge]
    have hpositive : 0 < ctx.max_traversals := hlimit
    have hsome : (passing_edge ctx outputs x v).isSome := by
      unfold passing_edge
      rw [List.find?_isSome]
      exact ⟨edge, mem_build_outgoing_edges.mpr ⟨hedge, hfrom⟩, by simp [hto, hcondition, hpositive]⟩
    obtain ⟨first, hfirst⟩ := Option.isSome_iff_exists.mp hsome
    refine ⟨join_work ctx (found order) v, Or.inr ⟨x, hx, ?_⟩⟩
    change wake ctx (found order) x v = _
    have hplain := fan_out_items_plain hlegal hfound hfirst
    simp only [wake, hfound, hfirst, hplain]

end Plain

section Refined

variable {ctx : RunContext} {order : List (String × NodeEnd)} {s : RunState}
  (h : Refines ctx (Ends (plain_handlers ctx)) order s)
include h

theorem Refines.failed_empty : s.failed = ∅ := by
  rw [Finset.eq_empty_iff_forall_notMem]
  intro n hfailed
  obtain ⟨_, _, heq, _⟩ := found_plain h.legal ((h.failed n).mp hfailed)
  cases heq

theorem Refines.completed_iff (n : String) : n ∈ s.completed ↔ n ∈ keys order := by
  rw [← h.over_iff, h.failed_empty]
  simp

theorem Refines.activations_length_le (haccepted : Accepted ctx) : s.activations.length ≤ ctx.graph.nodes.length := by
  have hsubset : s.activations.map Activation.node_id ⊆ ctx.graph.nodes.map NodeInstance.instance_id := by
    intro n hn
    obtain ⟨activation, hmem, rfl⟩ := List.mem_map.mp hn
    exact activated_mem_nodes haccepted ((h.activated _ _).mp hmem)
  simpa using (h.once.subperm hsubset).length_le

/-- On a plain graph each activation has one task. -/
theorem Refines.task_ids_length : (task_ids s.activations).length = s.activations.length := by
  have hwidth : ∀ activation ∈ s.activations, activation.work.width = 1 := by
    intro activation hmem
    rcases activated_plain h.legal ((h.activated _ _).mp hmem) with ⟨_, hw⟩ | ⟨_, hw⟩ <;> rw [hw] <;> rfl
  have hone : ∀ entry ∈ s.activations.zipIdx, entry.1.work.width = 1 := by
    intro entry hentry
    exact hwidth entry.1 (List.mem_of_getElem? (List.mem_zipIdx_iff_getElem?.mp hentry))
  have hsum : (s.activations.zipIdx.map fun entry => entry.1.work.width) = s.activations.zipIdx.map fun _ => 1 :=
    List.map_congr_left hone
  simp [task_ids, List.length_flatMap, hsum]

/-- When all nodes with work have ended, every node has. -/
theorem Refines.all_ended (hacyclic : digraph.Acyclic (GraphEdge ctx.graph)) (haccepted : Accepted ctx)
    (hconditions : ∀ edge ∈ ctx.graph.edges, edge.condition = none) (hlimit : 1 ≤ ctx.max_traversals)
    (hmax : dataflow.Maximal (net ctx) order) (n : String) :
    n ∈ keys order ↔ n ∈ ctx.graph.nodes.map NodeInstance.instance_id := by
  constructor
  · intro hmem
    obtain ⟨w, _, hactive, _⟩ := h.legal.activated hmem
    exact activated_mem_nodes haccepted hactive
  · induction n using (source_wellFounded hacyclic).induction with
    | h n ih =>
      intro hnode
      have hsources : ∀ u ∈ sources ctx n, u ∈ keys order := by
        intro u hu
        obtain ⟨edge, hedge, rfl, _⟩ := mem_sources.mp hu
        exact ih _ hu (haccepted.valid.from_node_mem edge hedge)
      obtain ⟨w, hactive⟩ := activated_of_sources h.legal hconditions hlimit hnode hsources
      exact hmax n w hactive

end Refined

/-- Scheduling of a plain acyclic graph is exact: every node runs once, after its
sources and on what they left, and the run ends with all nodes completed. -/
theorem dag_scheduling_exact {ctx : RunContext} (haccepted : Accepted ctx)
    (hacyclic : digraph.Acyclic (GraphEdge ctx.graph))
    (hconditions : ∀ edge ∈ ctx.graph.edges, edge.condition = none) (hlimit : 1 ≤ ctx.max_traversals)
    {may : Task → NodeOutcome → Prop} (htotal : ∀ task, ∃ outcome, may task outcome)
    (hsucceed : ∀ task outcome, may task outcome →
      ∃ outputs, outcome = .Success outputs ∧ SendsNoArray ctx task.node_id outputs)
    {cs : List Completion} {s : RunState} (hrun : RunOf ctx may cs s) : DagExact ctx may cs s := by
  have hsmall : ∀ n inputs outputs, plain_handlers ctx n inputs (.Success outputs) → SmallArrays ctx n outputs := by
    rintro n inputs outputs ⟨_, heq, hsends⟩
    cases heq
    exact hsends.small
  have hnever : ∀ n inputs error, ¬ plain_handlers ctx n inputs (.Failed error) := by
    rintro n inputs error ⟨_, heq, _⟩
    cases heq
  have hplain : RunOf ctx (plain_handlers ctx).of_task cs s := by
    refine hrun.mono ?_
    rintro s c ⟨task, hfind, outcome, records, hjoined, hmay⟩
    exact ⟨task, hfind, outcome, records, hjoined, hsucceed task outcome hmay⟩
  obtain ⟨⟨order, h⟩, hphases⟩ := run_refines haccepted hacyclic (Or.inr hnever) hsmall hplain
  have hsound := run_sound haccepted hsmall hplain
  have hentry : ∀ n, n ∈ ctx.graph.nodes.map NodeInstance.instance_id →
      (n ∈ entry_nodes ctx ↔ sources ctx n = []) := by
    intro n hn
    rw [mem_entry_nodes_of_acyclic hacyclic rfl, sources_eq_nil_iff]
    exact and_iff_right hn
  have hnode : ∀ activation ∈ s.activations, activation.node_id ∈ ctx.graph.nodes.map NodeInstance.instance_id :=
    fun activation hmem => activated_mem_nodes haccepted ((h.activated _ _).mp hmem)
  have hno_panic : ∀ c, Finishes may s c → ∃ next, next_state ctx s c = some next := by
    rintro c ⟨task, hfind, _⟩
    exact hsound.exists_next hfind
  constructor
  · exact h.once
  · intro activation hmem edge hedge hto
    have hactive := (h.activated _ _).mp hmem
    exact (h.completed_iff _).mpr (hactive.sources_mem _ (mem_sources.mpr ⟨edge, hedge, rfl, hto⟩))
  · intro activation hmem hentry_node
    rcases activated_plain h.legal ((h.activated _ _).mp hmem) with ⟨_, hw⟩ | ⟨hne, _⟩
    · exact hw
    · exact absurd ((hentry _ (hnode activation hmem)).mp hentry_node) hne
  · intro activation hmem hentry_node
    rcases activated_plain h.legal ((h.activated _ _).mp hmem) with ⟨hnil, _⟩ | ⟨_, hw⟩
    · exact absurd ((hentry _ (hnode activation hmem)).mpr hnil) hentry_node
    · rw [hw, join_work, h.outputs]
  · have hperm := hsound.ledger.ids.length_eq
    have hle := h.activations_length_le haccepted
    rw [h.task_ids_length, List.length_append, List.length_map, List.length_map] at hperm
    omega
  · exact hno_panic
  · intro hne
    obtain ⟨task, hmem⟩ := List.exists_mem_of_ne_nil _ hne
    obtain ⟨outcome, hmay⟩ := htotal task
    have hfinishes : Finishes may s ⟨task.id, .returned outcome []⟩ :=
      ⟨task, hsound.ledger.find_eq hmem, outcome, [], rfl, hmay⟩
    obtain ⟨next, hstep⟩ := hno_panic _ hfinishes
    exact ⟨_, next, hfinishes, hstep⟩
  · intro hempty
    have hmax := (h.maximal_iff hphases hsound).mpr hempty
    have hall := h.all_ended hacyclic haccepted hconditions hlimit hmax
    have hcompleted : s.completed = (ctx.graph.nodes.map NodeInstance.instance_id).toFinset := by
      ext n
      rw [h.completed_iff, hall, List.mem_toFinset]
    refine ⟨hcompleted, h.failed_empty, ?_, ?_⟩
    · intro node hmem
      apply List.count_eq_one_of_mem h.once
      obtain ⟨w, _, hactive, _⟩ := h.legal.activated ((hall _).mpr (List.mem_map_of_mem hmem))
      exact List.mem_map.mpr ⟨⟨node.instance_id, w⟩, (h.activated _ _).mpr hactive, rfl⟩
    · simp [final_status, hcompleted, h.failed_empty]

/-- A fork whose branches meet again. -/
def diamond_sample : RunContext :=
  sample_context ["A", "B", "C", "D"] [sample_edge "ab" "A" "B" none, sample_edge "ac" "A" "C" none,
    sample_edge "bd" "B" "D" none, sample_edge "cd" "C" "D" none] 1

theorem dag_scheduling_exact_sample : ∃ cs s,
    RunOf diamond_sample (fun _ outcome => outcome = .Success (.bool true)) cs s ∧ cs.length = 4 ∧
      DagExact diamond_sample (fun _ outcome => outcome = .Success (.bool true)) cs s := by
  have haccepted : Accepted diamond_sample := sample_accepted 1 (by decide +kernel)
  have hacyclic := sample_acyclic 1 (show ∀ edge ∈ diamond_sample.graph.edges,
    ["A", "B", "C", "D"].idxOf edge.from_node < ["A", "B", "C", "D"].idxOf edge.to_node by decide +kernel)
  have hconditions : ∀ edge ∈ diamond_sample.graph.edges, edge.condition = none := by decide +kernel
  have hsucceed : ∀ (task : Task) (outcome : NodeOutcome), outcome = .Success (.bool true) →
      ∃ outputs, outcome = .Success outputs ∧ SendsNoArray diamond_sample task.node_id outputs := by
    rintro task _ rfl
    refine ⟨.bool true, rfl, ?_⟩
    intro edge _ _ item items hvalue
    cases hvalue
  have htotal : ∀ _ : Task, ∃ outcome : NodeOutcome, outcome = .Success (.bool true) := fun _ => ⟨_, rfl⟩
  have hreplay : ((replay diamond_sample (fun _ => .Success (.bool true)) (initial_state diamond_sample)
      [⟨0, 0⟩, ⟨2, 0⟩, ⟨1, 0⟩, ⟨3, 0⟩]).map fun run => run.1.length) = some 4 := by decide +kernel
  obtain ⟨⟨cs, s⟩, hrun, hlength⟩ := Option.map_eq_some_iff.mp hreplay
  have hrun := run_of_replay hrun
  exact ⟨cs, s, hrun, hlength,
    dag_scheduling_exact haccepted hacyclic hconditions (le_refl 1) htotal hsucceed hrun⟩

end flow_engine.executor
