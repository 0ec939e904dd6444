import FlowEngine.Executor.Dag.Start
import FlowEngine.Executor.Started
import FlowEngine.Executor.Termination

namespace flow_engine.executor

/-- The log holds an evaluation of the edge with this result. -/
def Evaluated (s : RunState) (edge : Edge) (result : Bool) : Prop :=
  ∃ seq run_id condition data, WriteEvent.EdgeEvaluated seq run_id edge.id condition result data ∈ s.log

/-- The first evaluation of an edge passes it: its condition holds on the output of its
source, and edges may be traversed at all. -/
def passes_first (ctx : RunContext) (edge : Edge) (outputs : Value) : Bool :=
  evaluate_edge_condition ctx edge outputs && decide (0 < ctx.max_traversals)

/-- On an acyclic graph the sources of a started node have completed. The edges of
completed nodes, and no others, were evaluated, once each and on the output the node
still has. -/
structure Branched (ctx : RunContext) (s : RunState) : Prop where
  sources_completed : ∀ edge ∈ ctx.graph.edges, edge.to_node ∈ started s → edge.from_node ∈ s.completed
  not_counted : ∀ edge ∈ ctx.graph.edges, edge.from_node ∉ s.completed → s.edge_traversal_counts edge.id = 0
  recorded : ∀ edge ∈ ctx.graph.edges, ∀ result, Evaluated s edge result ↔ edge.from_node ∈ s.completed ∧
    ∃ outputs, s.node_outputs edge.from_node = some outputs ∧ passes_first ctx edge outputs = result

/-- A node that has not completed before completes with an output, in a state that is
otherwise the same for the edges. -/
structure Completes (s settled : RunState) (x : String) (outputs : Value) : Prop where
  was_started : x ∈ started s
  fresh : x ∉ s.completed
  failed : settled.failed = s.failed
  completed : settled.completed = insert x s.completed
  node_outputs : settled.node_outputs = Function.update s.node_outputs x (some outputs)
  counts : settled.edge_traversal_counts = s.edge_traversal_counts
  activations : settled.activations = s.activations
  evaluated : ∀ edge result, Evaluated settled edge result ↔ Evaluated s edge result

/-- Edges that were never passed are recorded with the result of their condition. -/
theorem edge_events_eq_map {ctx : RunContext} {outputs : Value} {counts : String → Nat} {edges : List Edge}
    (hnodup : (edges.map Edge.id).Nodup) (hzero : ∀ edge ∈ edges, counts edge.id = 0) :
    edge_events ctx outputs counts edges =
      edges.map fun edge => edge_event ctx edge outputs (passes_first ctx edge outputs) := by
  induction edges generalizing counts with
  | nil => rfl
  | cons edge rest ih =>
    rw [List.map_cons, List.nodup_cons] at hnodup
    obtain ⟨hfresh, hnodup⟩ := hnodup
    have hrest : ∀ e ∈ rest, counts e.id = 0 := fun e he => hzero e (List.mem_cons_of_mem _ he)
    have hcounted : ∀ e ∈ rest, count_pass counts edge e.id = 0 := by
      intro e he
      have hne : e.id ≠ edge.id := fun heq => hfresh (heq ▸ List.mem_map_of_mem he)
      exact (Function.update_of_ne hne _ _).trans (hrest e he)
    rw [edge_events, List.map_cons, ih hnodup hrest, ih hnodup hcounted, hzero edge List.mem_cons_self]
    change (if passes_first ctx edge outputs then _ else _) = _
    cases passes_first ctx edge outputs <;> rfl

/-- What the completion of a node adds to the evaluations in the log. -/
theorem evaluated_append {s : RunState} {ctx : RunContext} (haccepted : Accepted ctx) {x : String} {outputs : Value}
    (hzero : ∀ edge ∈ ctx.graph.edges, edge.from_node = x → s.edge_traversal_counts edge.id = 0)
    {next : RunState} (hlog : next.log = s.log ++
      edge_events ctx outputs s.edge_traversal_counts (build_outgoing_edges ctx.graph x))
    {edge : Edge} (hedge : edge ∈ ctx.graph.edges) (result : Bool) :
    Evaluated next edge result ↔
      Evaluated s edge result ∨ edge.from_node = x ∧ passes_first ctx edge outputs = result := by
  have hnodup : ((build_outgoing_edges ctx.graph x).map Edge.id).Nodup := by
    rw [build_outgoing_edges, file_edges_apply]
    exact haccepted.valid.edge_ids_nodup.sublist (List.filter_sublist.map _)
  have hown : ∀ e ∈ build_outgoing_edges ctx.graph x, s.edge_traversal_counts e.id = 0 := fun e he =>
    hzero e (mem_build_outgoing_edges.mp he).1 (mem_build_outgoing_edges.mp he).2
  unfold Evaluated
  simp only [hlog, edge_events_eq_map hnodup hown, List.mem_append, List.mem_map]
  constructor
  · rintro ⟨seq, run_id, condition, data, hold | ⟨e, he, hevent⟩⟩
    · exact Or.inl ⟨seq, run_id, condition, data, hold⟩
    · obtain ⟨hmem, hfrom⟩ := mem_build_outgoing_edges.mp he
      simp only [edge_event, WriteEvent.EdgeEvaluated.injEq] at hevent
      obtain ⟨_, _, hid, _, hresult, _⟩ := hevent
      have hsame : e = edge := List.inj_on_of_nodup_map haccepted.valid.edge_ids_nodup hmem hedge hid
      exact Or.inr (hsame ▸ ⟨hfrom, hresult⟩)
  · rintro (⟨seq, run_id, condition, data, hold⟩ | ⟨hfrom, rfl⟩)
    · exact ⟨seq, run_id, condition, data, Or.inl hold⟩
    · exact ⟨_, _, _, _, Or.inr ⟨edge, mem_build_outgoing_edges.mpr ⟨hedge, hfrom⟩, rfl⟩⟩

theorem Spawned.started {ctx : RunContext} {nodes : List ReadyNode} {s next : RunState}
    (h : Spawned ctx nodes s next) : started next = started s ++ nodes.map ReadyNode.node_id := by
  rw [executor.started, h.activations, List.map_append, List.map_map]
  rfl

section Completion

variable {ctx : RunContext} {s settled : RunState} {x : String} {outputs : Value}
  (hacyclic : digraph.Acyclic (GraphEdge ctx.graph)) (h : Branched ctx s) (htracked : Tracked ctx s)
  (hcompletes : Completes s settled x outputs)
include hacyclic h htracked hcompletes

/-- The node has not completed before, so neither have the targets of its edges. -/
theorem Branched.target_fresh {edge : Edge} (hedge : edge ∈ ctx.graph.edges) (hfrom : edge.from_node = x) :
    edge.to_node ∉ settled.completed := by
  rw [hcompletes.completed, Finset.mem_insert]
  rintro (hloop | hcompleted)
  · exact hacyclic x (.single ⟨edge, hedge, hfrom, hloop⟩)
  · have hstarted := htracked.completed_started _ hcompleted
    exact hcompletes.fresh (hfrom ▸ h.sources_completed edge hedge hstarted)

/-- A node an edge starts has all its sources completed. -/
theorem Branched.sources_of_starting (hcounts : CountsBounded ctx s.edge_traversal_counts) {first : Edge}
    (hstarts : first ∈ starting_edges ctx settled x outputs) {edge : Edge} (hedge : edge ∈ ctx.graph.edges)
    (hto : edge.to_node = first.to_node) : edge.from_node ∈ settled.completed := by
  obtain ⟨hmem, hfrom, _, hstart⟩ := mem_starting_edges hstarts
  have htarget := h.target_fresh hacyclic htracked hcompletes hmem hfrom
  simp only [startable, Bool.and_eq_true, Bool.or_eq_true, decide_eq_true_eq, htarget, false_or] at hstart
  have hforward : edge.id ∉ find_back_edges ctx.graph := by simp [find_back_edges_eq_empty hacyclic]
  rw [hcompletes.counts] at hstart
  have hdone := source_done_of_ready hcounts hstart.2.2 hedge hto hforward
  rw [hcompletes.failed, htracked.failed_empty] at hdone
  exact hdone.resolve_right (Finset.notMem_empty _)

theorem Branched.evaluated_downstream (haccepted : Accepted ctx)
    (hcounts : CountsBounded ctx s.edge_traversal_counts) (from_fan_in : Bool) :
    Branched ctx (evaluate_downstream ctx settled x outputs from_fan_in) := by
  have hown : ∀ edge ∈ ctx.graph.edges, edge.from_node = x → settled.edge_traversal_counts edge.id = 0 := by
    intro edge hedge hfrom
    rw [hcompletes.counts]
    exact h.not_counted edge hedge (hfrom ▸ hcompletes.fresh)
  have hfirst : ∀ ready ∈ (starting_edges ctx settled x outputs).map (ready_node settled outputs from_fan_in),
      ready.is_cycle = false := by
    intro ready hready
    obtain ⟨edge, hstarts, rfl⟩ := List.mem_map.mp hready
    obtain ⟨hedge, hfrom, _⟩ := mem_starting_edges hstarts
    exact decide_eq_false (h.target_fresh hacyclic htracked hcompletes hedge hfrom)
  have hspawned := spawned_all (s := { settled with
      edge_traversal_counts := (passed ctx settled x outputs).foldl count_pass settled.edge_traversal_counts
      log := settled.log ++
        edge_events ctx outputs settled.edge_traversal_counts (build_outgoing_edges ctx.graph x) })
    (ready_nodes_spawnable haccepted settled x outputs from_fan_in) hfirst
  rw [evaluate_downstream_eq (hcompletes.counts ▸ hcounts)]
  constructor
  · intro edge hedge hstarted
    rw [hspawned.started, List.mem_append] at hstarted
    rw [hspawned.completed]
    cases hstarted with
    | inl hold =>
      have hbefore : edge.to_node ∈ started s := by
        rwa [started, hcompletes.activations] at hold
      dsimp only
      rw [hcompletes.completed]
      exact Finset.mem_insert_of_mem (h.sources_completed edge hedge hbefore)
    | inr hnew =>
      obtain ⟨ready, hready, hnode⟩ := List.mem_map.mp hnew
      obtain ⟨first, hstarts, rfl⟩ := List.mem_map.mp hready
      exact h.sources_of_starting hacyclic htracked hcompletes hcounts hstarts hedge hnode.symm
  · intro edge hedge hnot
    rw [hspawned.completed] at hnot
    dsimp only at hnot
    rw [hcompletes.completed, Finset.mem_insert, not_or] at hnot
    rw [hspawned.counts]
    refine (passed_counts_other haccepted outputs _ hedge hnot.1).trans ?_
    rw [hcompletes.counts]
    exact h.not_counted edge hedge hnot.2
  · intro edge hedge result
    rw [evaluated_append haccepted hown (spawn_ready_nodes_log _ _ _) hedge result, hcompletes.evaluated,
      h.recorded edge hedge, hspawned.completed, hspawned.node_outputs]
    dsimp only
    rw [hcompletes.completed, hcompletes.node_outputs]
    by_cases hfrom : edge.from_node = x
    · simp [hfrom, hcompletes.fresh]
    · simp [hfrom]

end Completion

section Step

variable {ctx : RunContext} {s : RunState} {c : Completion} {task : Task}

/-- The records of a joined task are no evaluations. -/
theorem evaluated_joined (edge : Edge) (result : Bool) :
    Evaluated (joined ctx s c task) edge result ↔ Evaluated s edge result := by
  simp [Evaluated, joined, collect_llm_records]

theorem Completes.plain (hphases : Phases s) (hrecorded : Recorded s.activations task)
    (hfind : s.running.find? (fun task => task.id = c.task) = some task) (hindex : task.fan_out_index = none)
    (outputs : Value) :
    Completes s (complete_plain (joined ctx s c task) task.node_id outputs) task.node_id outputs := by
  have hrunning := hphases.running_of_plain_task (List.mem_of_find?_eq_some hfind) hindex
  obtain ⟨hfresh, _⟩ := hphases.in_flight_not_done _ (in_flight_iff.mpr (Or.inr hrunning))
  exact ⟨mem_started_of_recorded hrecorded, hfresh, rfl, rfl, rfl, rfl, rfl, evaluated_joined⟩

theorem Completes.fan_in (hphases : Phases s) (hrecorded : Recorded s.activations task) {state : FanOutState}
    (hstate : s.fan_out_states task.node_id = some state) (hlast : state.completed + 1 = state.expected)
    (filled : FanOutState) :
    Completes s (complete_fan_in (joined ctx s c task) task.node_id filled) task.node_id
      (merged_output filled) := by
  have hfan : is_fan_out_running s task.node_id = true := by
    simp only [is_fan_out_running, hstate, decide_eq_true_eq]
    omega
  obtain ⟨hfresh, _⟩ := hphases.in_flight_not_done _ (in_flight_iff.mpr (Or.inl hfan))
  exact ⟨mem_started_of_recorded hrecorded, hfresh, rfl, rfl, rfl, rfl, rfl, evaluated_joined⟩

theorem Branched.joined (h : Branched ctx s) : Branched ctx (joined ctx s c task) := by
  refine ⟨h.sources_completed, h.not_counted, ?_⟩
  intro edge hedge result
  exact (evaluated_joined edge result).trans (h.recorded edge hedge result)

theorem Branched.step {joined_ids : List TaskId} {next : RunState} (haccepted : Accepted ctx)
    (hacyclic : digraph.Acyclic (GraphEdge ctx.graph)) (h : Branched ctx s) (htracked : Tracked ctx s)
    (hphases : Phases s) (hledger : Ledger joined_ids s) (hcounts : CountsBounded ctx s.edge_traversal_counts)
    (hallowed : Finishes TaskSucceeds s c) (hstep : next_state ctx s c = some next) : Branched ctx next := by
  obtain ⟨task, hfind, hcase⟩ := next_state_cases hstep
  obtain ⟨_, _, outcome, records, hreturned, outputs, rfl⟩ := hallowed
  have hrecorded := hledger.recorded task (List.mem_of_find?_eq_some hfind)
  cases hcase with
  | plain_success hjoined hindex =>
    exact h.evaluated_downstream hacyclic htracked (.plain hphases hrecorded hfind hindex _) haccepted hcounts _
  | plain_failure hjoined hindex =>
    rw [hreturned] at hjoined
    cases hjoined
  | panic hjoined =>
    rw [hreturned] at hjoined
    cases hjoined
  | instance_dropped hjoined hindex hstate => exact h.joined
  | instance_kept hjoined hindex hstate hbound hmore =>
    have hjoined : Branched ctx (executor.joined ctx s c task) := h.joined
    exact ⟨hjoined.sources_completed, hjoined.not_counted, hjoined.recorded⟩
  | fan_in hjoined hindex hstate hbound hlast =>
    exact h.evaluated_downstream hacyclic htracked (.fan_in hphases hrecorded hstate hlast _) haccepted hcounts _

end Step

theorem Branched.initial {ctx : RunContext} (haccepted : Accepted ctx)
    (hacyclic : digraph.Acyclic (GraphEdge ctx.graph)) : Branched ctx (initial_state ctx) := by
  rw [initial_state_eq fun entry hentry => entry_nodes_spawnable haccepted hentry]
  constructor
  · intro edge hedge hstarted
    have hentry : edge.to_node ∈ entry_nodes ctx := by simpa [started] using hstarted
    exact absurd rfl (((mem_entry_nodes_of_acyclic hacyclic rfl).mp hentry).2 edge hedge)
  · exact fun _ _ _ => rfl
  · simp [Evaluated]

theorem run_branched {ctx : RunContext} (haccepted : Accepted ctx) (hacyclic : digraph.Acyclic (GraphEdge ctx.graph))
    {cs : List Completion} {s : RunState} (hrun : RunOf ctx TaskSucceeds cs s) : Branched ctx s := by
  refine hrun.invariant (P := fun _ s => Branched ctx s) (Branched.initial haccepted hacyclic) ?_
  intro cs s c next hreached h hallowed hstep
  exact h.step haccepted hacyclic (run_tracked haccepted hreached) (run_phases_of_success haccepted hreached)
    (run_ledger haccepted hreached) (run_countsBounded hreached) hallowed hstep

end flow_engine.executor
