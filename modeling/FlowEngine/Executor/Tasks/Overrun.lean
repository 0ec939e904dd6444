import FlowEngine.Executor.Tasks.Causality
import FlowEngine.Executor.Tasks.Sequential

namespace flow_engine.executor

section Chain

variable {ctx : RunContext} {edge : Edge} {s : RunState}

/-- A node with one edge, the only one of its target, starts the target when it completes. -/
theorem evaluate_downstream_chain (hout : build_outgoing_edges ctx.graph edge.from_node = [edge])
    (hin : build_incoming_edges ctx.graph edge.to_node = [edge]) (hcondition : edge.condition = none)
    (hforward : edge.id ∉ find_back_edges ctx.graph) (hcounts : CountsBounded ctx s.edge_traversal_counts)
    (hlimit : s.edge_traversal_counts edge.id < ctx.max_traversals) (hidle : in_flight s edge.to_node = false)
    (hcompleted : edge.to_node ∉ s.completed) (hfailed : edge.to_node ∉ s.failed) (hsource : edge.from_node ∈ s.completed)
    {outputs : Value} (houtputs : s.node_outputs edge.from_node = some outputs) (from_fan_in : Bool) :
    evaluate_downstream ctx s edge.from_node outputs from_fan_in =
      spawn_ready_node ctx { s with
        edge_traversal_counts := count_pass s.edge_traversal_counts edge
        log := s.log ++ edge_events ctx outputs s.edge_traversal_counts [edge] }
        ⟨edge.to_node, fan_out_items outputs edge from_fan_in, false⟩ := by
  have hholds : ∀ data, evaluate_edge_condition ctx edge data = true := by
    intro data
    rw [evaluate_edge_condition, hcondition]
  have hpassed : passed ctx s edge.from_node outputs = [edge] := by
    simp [passed, hout, passed_edges, hholds, hlimit]
  have hready : is_node_ready ctx s s.edge_traversal_counts edge.to_node = true := by
    simp [is_node_ready, hin, is_node_ready_loop, hforward, hsource, houtputs, hholds, hcounts edge.id]
  have hstarting : starting_edges ctx s edge.from_node outputs = [edge] := by
    simp [starting_edges, hpassed, first_targets, startable, hidle, hcompleted, hfailed, hready]
  rw [evaluate_downstream_eq hcounts, hstarting, hpassed, hout]
  simp only [List.map_cons, List.map_nil, spawn_ready_nodes, List.foldl_cons, List.foldl_nil, ready_node, hcompleted,
    decide_false]

end Chain

/-- A chain of three nodes. -/
def overrun_sample : RunContext :=
  sample_context ["A", "S", "T"] [sample_edge "as" "A" "S" none, sample_edge "st" "S" "T" none] 50

/-- The first node puts out an array. -/
def array_behaviour (items : List Value) (task : Task) : Behaviour where
  timeout_ms := 0
  retry := ⟨1, none⟩
  attempts _ := ⟨[], .ok (if task.node_id = "A" then .array items else .null)⟩

theorem overrun_facts : build_outgoing_edges overrun_sample.graph "A" = [sample_edge "as" "A" "S" none] ∧
    build_incoming_edges overrun_sample.graph "S" = [sample_edge "as" "A" "S" none] ∧
    build_outgoing_edges overrun_sample.graph "S" = [sample_edge "st" "S" "T" none] ∧
    build_incoming_edges overrun_sample.graph "T" = [sample_edge "st" "S" "T" none] ∧
    find_back_edges overrun_sample.graph = ∅ ∧ entry_nodes overrun_sample = ["A"] ∧
    spawnable overrun_sample "S" = true ∧ spawnable overrun_sample "T" = true := by
  decide +kernel

/-- The second node is fanned out over an array and nothing has been joined since. -/
structure FannedOut (s : RunState) (items : List Value) : Prop where
  running : ∃ origin : RunState, s.running = instance_tasks origin "S" items ∧ origin.activations.length = 1
  fan_out_states : s.fan_out_states = Function.update (fun _ => none) "S" (some (fresh_fan_out items))
  completed : s.completed = {"A"}
  failed : s.failed = ∅
  running_set : s.running_set = ∅
  activations : s.activations.length = 2
  counts : s.edge_traversal_counts "st" = 0

section Overrun

variable {rest : List Value}

/-- An array that the first node puts out fans the second one out. -/
theorem FannedOut.of_array {s : RunState} (hcompleted : s.completed = {"A"}) (hfailed : s.failed = ∅)
    (hrunning_set : s.running_set = ∅) (hfan : s.fan_out_states = fun _ => none)
    (hcounts : s.edge_traversal_counts = fun _ => 0) (hrunning : s.running = []) (hlength : s.activations.length = 1)
    (houtputs : s.node_outputs "A" = some (.array (.null :: .null :: rest))) :
    FannedOut (evaluate_downstream overrun_sample s "A" (.array (.null :: .null :: rest)) false)
      (.null :: .null :: rest) := by
  obtain ⟨hout, hin, _, _, hforward, _, hspawnable, _⟩ := overrun_facts
  have hidle : in_flight s "S" = false := by simp [in_flight, is_fan_out_running, hfan, hrunning_set]
  have hchain := @evaluate_downstream_chain overrun_sample (sample_edge "as" "A" "S" none) s hout hin rfl
    (by simp [hforward]) (by simp [CountsBounded, hcounts])
    (by simp [hcounts, overrun_sample, sample_context]) hidle (by simp [hcompleted, sample_edge])
    (by simp [hfailed]) (by simp [hcompleted, sample_edge]) _ houtputs false
  change evaluate_downstream overrun_sample s "A" (.array (.null :: .null :: rest)) false = _ at hchain
  rw [hchain, spawn_ready_node_fan_out _ _ (show _ = some (.null :: .null :: rest) from rfl), spawn_fan_out_eq,
    if_pos (show spawnable overrun_sample (sample_edge "as" "A" "S" none).to_node = true from hspawnable)]
  refine ⟨⟨_, ?_, hlength⟩, ?_, hcompleted, hfailed, hrunning_set, ?_, ?_⟩
  · simp [reopen, hrunning, sample_edge]
    rfl
  · simp [reopen, hfan, sample_edge]
  · simp [reopen, hlength]
  · simp [reopen, count_pass, sample_edge, hcounts]

theorem overrun_fans_out (records : List LlmInvocationRecord) : ∃ s,
    next_state overrun_sample (initial_state overrun_sample)
      ⟨⟨0, 0⟩, .returned (.Success (.array (.null :: .null :: rest))) records⟩ = some s ∧
      FannedOut s (.null :: .null :: rest) := by
  obtain ⟨_, _, _, _, _, hentry, _, _⟩ := overrun_facts
  have hinitial : initial_state overrun_sample = _ := initial_state_eq (by rw [hentry]; decide +kernel)
  rw [hentry] at hinitial
  have hfind : (initial_state overrun_sample).running.find? (fun task => task.id = ⟨0, 0⟩) =
      some (entry_task overrun_sample ("A", 0)) := by
    rw [hinitial]
    rfl
  rw [next_state_of_settle hfind (settle_plain_success _ _ _ _ _ rfl), proceed_downstream]
  refine ⟨_, rfl, .of_array ?_ ?_ ?_ ?_ ?_ ?_ ?_ ?_⟩
  all_goals rw [hinitial]; rfl

theorem FannedOut.tasks {s : RunState} (h : FannedOut s (.null :: .null :: rest)) :
    s.running = ⟨⟨1, 0⟩, "S", some 0, .null⟩ :: ⟨⟨1, 1⟩, "S", some 1, .null⟩ ::
      (rest.zipIdx 2).map fun item => ⟨⟨1, item.2⟩, "S", some (item.2 % 2 ^ 32), item.1⟩ := by
  obtain ⟨origin, hrunning, horigin⟩ := h.running
  rw [hrunning, instance_tasks, horigin]
  rfl

/-- Where the count of instances is truncated to one, the first instance completes the
fan-out and starts the third node, while the second instance is in flight. -/
theorem FannedOut.overruns {s : RunState} (h : FannedOut s (.null :: .null :: rest))
    (hcounts : CountsBounded overrun_sample s.edge_traversal_counts) (hlength : (rest.length + 2) % 2 ^ 32 = 1) :
    ∃ next, next_state overrun_sample s ⟨⟨1, 0⟩, .returned (.Success .null) []⟩ = some next ∧
      (∃ task ∈ next.running, task.node_id = "T") ∧ ∃ task ∈ next.running, task.id = ⟨1, 1⟩ ∧ task.node_id = "S" := by
  obtain ⟨_, _, hout, hin, hforward, _, _, hspawnable⟩ := overrun_facts
  have hcount : (Value.null :: Value.null :: rest).length % 2 ^ 32 = 1 := hlength
  have htasks := h.tasks
  have hfind : s.running.find? (fun task => task.id = ⟨1, 0⟩) = some ⟨⟨1, 0⟩, "S", some 0, .null⟩ := by
    rw [htasks]
    rfl
  have hstate : s.fan_out_states "S" = some (fresh_fan_out (.null :: .null :: rest)) := by
    rw [h.fan_out_states, Function.update_self]
  have hbound : 0 < (fresh_fan_out (.null :: .null :: rest)).results.length := by
    rw [fresh_fan_out, List.length_replicate, hcount]
    exact Nat.one_pos
  have hlast : (fresh_fan_out (.null :: .null :: rest)).completed + 1 =
      (fresh_fan_out (.null :: .null :: rest)).expected := hcount.symm
  have hsettle := settle_fan_in overrun_sample (joined overrun_sample s ⟨⟨1, 0⟩, .returned (.Success .null) []⟩
    ⟨⟨1, 0⟩, "S", some 0, .null⟩) ⟨⟨1, 0⟩, "S", some 0, .null⟩ [] (.Success .null) rfl hstate hbound hlast
  rw [next_state_of_settle hfind hsettle, proceed_downstream]
  generalize hfilled : fill_slot (fresh_fan_out (.null :: .null :: rest)) 0 (.Success .null) = filled
  generalize hsettled : complete_fan_in (joined overrun_sample s ⟨⟨1, 0⟩, .returned (.Success .null) []⟩
    ⟨⟨1, 0⟩, "S", some 0, .null⟩) "S" filled = settled
  have hcompleted : settled.completed = {"S", "A"} := by
    rw [← hsettled, complete_fan_in, joined_completed, h.completed]
  have hfailed : settled.failed = ∅ := by rw [← hsettled, complete_fan_in, joined_failed, h.failed]
  have hidle : in_flight settled "T" = false := by
    rw [← hsettled]
    simp [in_flight, is_fan_out_running, complete_fan_in, h.fan_out_states, h.running_set]
  have hkept : (⟨⟨1, 1⟩, "S", some 1, .null⟩ : Task) ∈ settled.running := by
    rw [← hsettled, complete_fan_in, joined_running, htasks]
    simp
  have houtputs : settled.node_outputs "S" = some (merged_output filled) := by
    rw [← hsettled]
    simp [complete_fan_in]
  have hsame : settled.edge_traversal_counts = s.edge_traversal_counts := by
    rw [← hsettled]
    rfl
  have hchain := @evaluate_downstream_chain overrun_sample (sample_edge "st" "S" "T" none) settled hout hin rfl
    (by simp [hforward]) (hsame ▸ hcounts) (by simp [hsame, h.counts, sample_edge, overrun_sample, sample_context])
    hidle (by simp [hcompleted, sample_edge]) (by simp [hfailed]) (by simp [hcompleted, sample_edge]) _ houtputs true
  change evaluate_downstream overrun_sample settled "S" (merged_output filled) true = _ at hchain
  refine ⟨_, rfl, ?_⟩
  rw [hchain, spawn_ready_node_plain _ _ rfl, spawn_plain_eq,
    if_pos (show spawnable overrun_sample (sample_edge "st" "S" "T" none).to_node = true from hspawnable)]
  refine ⟨⟨_, List.mem_append_right _ (List.mem_singleton_self _), rfl⟩, _, List.mem_append_left _ hkept, rfl, rfl⟩

/-- The loop's part of the overrun. -/
theorem overrun_run (hlength : (rest.length + 2) % 2 ^ 32 = 1) : ∃ s,
    transition.Run (next_state overrun_sample)
      (Scripted overrun_sample (array_behaviour (.null :: .null :: rest))) (initial_state overrun_sample)
      [⟨⟨0, 0⟩, .returned (.Success (.array (.null :: .null :: rest))) []⟩, ⟨⟨1, 0⟩, .returned (.Success .null) []⟩] s ∧
      (∃ task ∈ s.running, task.node_id = "T") ∧ ∃ task ∈ s.running, task.id = ⟨1, 1⟩ ∧ task.node_id = "S" := by
  obtain ⟨_, _, _, _, _, hentry, _, _⟩ := overrun_facts
  obtain ⟨s, hfirst, hfanned⟩ := @overrun_fans_out rest []
  have hone : transition.Run (next_state overrun_sample)
      (Scripted overrun_sample (array_behaviour (.null :: .null :: rest))) (initial_state overrun_sample)
      ([] ++ [⟨⟨0, 0⟩, .returned (.Success (.array (.null :: .null :: rest))) []⟩]) s := by
    refine transition.Run.nil.snoc ?_ hfirst
    intro task hfind
    have hmem := List.mem_of_find?_eq_some hfind
    rw [initial_state_eq (by rw [hentry]; decide +kernel), hentry] at hmem
    cases List.mem_singleton.mp hmem
    rfl
  obtain ⟨next, hsecond, htarget, hsource⟩ := hfanned.overruns (run_countsBounded hone) hlength
  refine ⟨next, hone.snoc ?_ hsecond, htarget, hsource⟩
  intro task hfind
  obtain ⟨origin, hrunning, _⟩ := hfanned.running
  have hmem := List.mem_of_find?_eq_some hfind
  rw [hrunning] at hmem
  obtain ⟨item, _, rfl⟩ := List.mem_map.mp hmem
  rfl

end Overrun

/-- A fan-out over more than 2^32 elements is closed before all of its instances have ended,
and its target starts. -/
theorem long_fan_out_overrun : Accepted overrun_sample ∧ digraph.Acyclic (GraphEdge overrun_sample.graph) ∧
    NoParallelEdges overrun_sample.graph ∧ ∃ items : List Value, items.length = 2 ^ 32 + 1 ∧
      (∀ task, (array_behaviour items task).NoPanic) ∧ ∃ moves x,
        LiveRun overrun_sample (array_behaviour items) 1 moves x ∧
          ¬ CausalOrder overrun_sample x (sample_edge "st" "S" "T" none) := by
  have haccepted : Accepted overrun_sample := sample_accepted 50 (by decide +kernel)
  have hacyclic := sample_acyclic 50 (show ∀ edge ∈ overrun_sample.graph.edges,
    ["A", "S", "T"].idxOf edge.from_node < ["A", "S", "T"].idxOf edge.to_node by decide +kernel)
  have hparallel : NoParallelEdges overrun_sample.graph := by
    unfold NoParallelEdges
    decide +kernel
  generalize hrest : List.replicate (2 ^ 32 - 1) Value.null = rest
  have hlength : rest.length = 2 ^ 32 - 1 := by rw [← hrest, List.length_replicate]
  refine ⟨haccepted, hacyclic, hparallel, .null :: .null :: rest, ?_, ?_, ?_⟩
  · rw [List.length_cons, List.length_cons, hlength]
    omega
  · intro task attempt error
    simp [array_behaviour]
  obtain ⟨s, hrun, ⟨target, htarget, htarget_node⟩, source, hsource, hsource_id, hsource_node⟩ :=
    @overrun_run rest (by rw [hlength]; omega)
  have hledger := run_ledger haccepted hrun
  obtain ⟨moves, x, hlive, hwrote⟩ := live_of_run haccepted 1 hrun
  obtain ⟨first, _, hscript, hstart⟩ := @script_head overrun_sample (array_behaviour (.null :: .null :: rest)) target
  obtain ⟨moves', y, hlive', hwrote', _, _, hevents⟩ := hlive.write_part hwrote (hledger.find_eq htarget)
    (hledger.not_joined htarget) (show 1 ≤ _ by rw [hscript]; exact Nat.le_add_left 1 _)
  refine ⟨moves', y, hlive', ?_⟩
  intro hcausal
  obtain ⟨start, hlogged, hwriter, hevent⟩ := hevents first (by rw [hscript]; exact List.mem_cons_self)
  have hnode : event_node first = some "T" := by
    rw [← htarget_node]
    exact script_node (by rw [hscript]; exact List.mem_cons_self)
  obtain ⟨entry, hentry, hby, _⟩ := hcausal.ended_before_start start hlogged ⟨hevent ▸ hnode, hevent ▸ hstart⟩ source
    (by rw [hwrote'.loop]; exact hledger.recorded source hsource) hsource_node
  have hid := hwrote'.writers entry hentry source hby
  rw [hsource_id] at hid
  cases List.mem_append.mp hid with
  | inl hjoined => simp at hjoined
  | inr hlast =>
    have hsame := (hledger.recorded source hsource).unique (hledger.recorded target htarget)
      (hsource_id.trans (List.mem_singleton.mp hlast))
    rw [hsame, htarget_node] at hsource_node
    exact absurd hsource_node (by decide)

end flow_engine.executor
