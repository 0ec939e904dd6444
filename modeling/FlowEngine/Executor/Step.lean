import FlowEngine.Executor.Evaluate

namespace flow_engine.executor

/-- The state in which a joined task is processed: it has left the tasks in
flight and its LLM records are kept. -/
def joined (ctx : RunContext) (s : RunState) (c : Completion) (task : Task) : RunState :=
  collect_llm_records ctx { s with running := s.running.eraseP fun task => task.id = c.task }
    (node_result task c.joined)

/-- A plain task's node completes. -/
def complete_plain (s : RunState) (node_id : String) (outputs : Value) : RunState :=
  { s with
    running_set := s.running_set.erase node_id
    completed := insert node_id s.completed
    node_outputs := Function.update s.node_outputs node_id (some outputs) }

/-- A node fails. -/
def fail_node (s : RunState) (node_id : String) : RunState :=
  { s with
    running_set := s.running_set.erase node_id
    failed := insert node_id s.failed }

/-- The slots of a fan-out after an instance finished. -/
def fill_slot (state : FanOutState) (index : Nat) (outcome : NodeOutcome) : FanOutState :=
  { state with
    results := state.results.set index (some (fan_out_result index outcome))
    completed := state.completed + 1 }

/-- The array of all slots. -/
def merged_output (state : FanOutState) : Value := .array (state.results.map fun r => r.getD .null)

/-- A node's fan-out stays open with new slots. -/
def keep_fan_out (s : RunState) (node_id : String) (state : FanOutState) : RunState :=
  { s with fan_out_states := Function.update s.fan_out_states node_id (some state) }

/-- A node's fan-out is closed and the node completes with the array of slots. -/
def complete_fan_in (s : RunState) (node_id : String) (state : FanOutState) : RunState :=
  { s with
    completed := insert node_id s.completed
    node_outputs := Function.update s.node_outputs node_id (some (merged_output state))
    fan_out_states := Function.update s.fan_out_states node_id none }

/-- Process a failure: the node fails and the targets that can still proceed are
spawned. -/
def proceed_after_failure (ctx : RunContext) (s : RunState) (node_id : String) : RunState :=
  (find_ready_after_failure ctx (fail_node s node_id) node_id).foldl (spawn_plain ctx) (fail_node s node_id)

section Frame

variable (ctx : RunContext) (s : RunState) (c : Completion) (task : Task)

@[simp] theorem joined_completed : (joined ctx s c task).completed = s.completed := rfl

@[simp] theorem joined_failed : (joined ctx s c task).failed = s.failed := rfl

@[simp] theorem joined_node_outputs : (joined ctx s c task).node_outputs = s.node_outputs := rfl

@[simp] theorem joined_counts : (joined ctx s c task).edge_traversal_counts = s.edge_traversal_counts := rfl

@[simp] theorem joined_fan_out_states : (joined ctx s c task).fan_out_states = s.fan_out_states := rfl

@[simp] theorem joined_running :
    (joined ctx s c task).running = s.running.eraseP fun task => task.id = c.task := rfl

@[simp] theorem joined_running_set : (joined ctx s c task).running_set = s.running_set := rfl

@[simp] theorem joined_activations : (joined ctx s c task).activations = s.activations := rfl

end Frame

/-- The tasks before a step are the joined one and those left. -/
theorem running_perm {s : RunState} {c : Completion} {task : Task}
    (hfind : s.running.find? (fun task => task.id = c.task) = some task) :
    s.running.Perm (task :: s.running.eraseP fun task => task.id = c.task) := by
  obtain ⟨hid, before, after, hsplit, hbefore⟩ := List.find?_eq_some_iff_append.mp hfind
  have hnot : ∀ other ∈ before, ¬ (decide (other.id = c.task) = true) := by
    intro other hother
    simpa using hbefore other hother
  have herase : s.running.eraseP (fun task => task.id = c.task) = before ++ after := by
    rw [hsplit, List.eraseP_append_right _ hnot]
    simp [of_decide_eq_true hid]
  rw [herase, hsplit]
  exact List.perm_middle

/-- Evaluating a completed node's edges and spawning what they start. -/
theorem evaluate_downstream_eq {ctx : RunContext} {s : RunState}
    (hcounts : CountsBounded ctx s.edge_traversal_counts) (node_id : String) (outputs : Value)
    (from_fan_in : Bool) :
    evaluate_downstream ctx s node_id outputs from_fan_in =
      spawn_ready_nodes ctx ((starting_edges ctx s node_id outputs).map (ready_node s outputs from_fan_in))
        { s with
          edge_traversal_counts := (passed ctx s node_id outputs).foldl count_pass s.edge_traversal_counts
          log := s.log ++
            edge_events ctx outputs s.edge_traversal_counts (build_outgoing_edges ctx.graph node_id) } := by
  unfold evaluate_downstream
  rw [evaluate_edges_eq hcounts]

/-- The failure path spawns its nodes as ready nodes that are neither fanned out nor
re-executed. -/
theorem proceed_after_failure_eq (ctx : RunContext) (s : RunState) (node_id : String) :
    proceed_after_failure ctx s node_id = spawn_ready_nodes ctx
      ((find_ready_after_failure ctx (fail_node s node_id) node_id).map fun target => ⟨target, none, false⟩)
      (fail_node s node_id) := by
  unfold proceed_after_failure spawn_ready_nodes
  rw [List.foldl_map]
  rfl

/-- Everything an iteration of the loop can do with the task it joined. -/
inductive StepCase (ctx : RunContext) (s : RunState) (c : Completion) (task : Task) : RunState → Prop
  | plain_success {outputs : Value} {records : List LlmInvocationRecord}
      (hjoined : c.joined = .returned (.Success outputs) records) (hindex : task.fan_out_index = none) :
      StepCase ctx s c task (evaluate_downstream ctx (complete_plain (joined ctx s c task) task.node_id outputs)
        task.node_id outputs false)
  | plain_failure {error : String} {records : List LlmInvocationRecord}
      (hjoined : c.joined = .returned (.Failed error) records) (hindex : task.fan_out_index = none) :
      StepCase ctx s c task (proceed_after_failure ctx (joined ctx s c task) task.node_id)
  | panic {error : String} (hjoined : c.joined = .panicked error) :
      StepCase ctx s c task (proceed_after_failure ctx (joined ctx s c task) "unknown")
  | instance_dropped {outcome : NodeOutcome} {records : List LlmInvocationRecord} {index : Nat}
      (hjoined : c.joined = .returned outcome records) (hindex : task.fan_out_index = some index)
      (hstate : s.fan_out_states task.node_id = none) :
      StepCase ctx s c task (joined ctx s c task)
  | instance_kept {outcome : NodeOutcome} {records : List LlmInvocationRecord} {index : Nat}
      {state : FanOutState} (hjoined : c.joined = .returned outcome records)
      (hindex : task.fan_out_index = some index) (hstate : s.fan_out_states task.node_id = some state)
      (hbound : index < state.results.length) (hmore : state.completed + 1 ≠ state.expected) :
      StepCase ctx s c task (keep_fan_out (joined ctx s c task) task.node_id (fill_slot state index outcome))
  | fan_in {outcome : NodeOutcome} {records : List LlmInvocationRecord} {index : Nat}
      {state : FanOutState} (hjoined : c.joined = .returned outcome records)
      (hindex : task.fan_out_index = some index) (hstate : s.fan_out_states task.node_id = some state)
      (hbound : index < state.results.length) (hlast : state.completed + 1 = state.expected) :
      StepCase ctx s c task (evaluate_downstream ctx
        (complete_fan_in (joined ctx s c task) task.node_id (fill_slot state index outcome)) task.node_id
        (merged_output (fill_slot state index outcome)) true)

section Settle

variable (ctx : RunContext) (s : RunState) (task : Task) (records : List LlmInvocationRecord)

theorem settle_plain_success (outputs : Value) (hindex : task.fan_out_index = none) :
    settle ctx s (node_result task (.returned (.Success outputs) records)) =
      .ok (complete_plain s task.node_id outputs, some (task.node_id, outputs, false)) := by
  simp [settle, node_result, hindex, complete_plain]

theorem settle_plain_failure (error : String) (hindex : task.fan_out_index = none) :
    settle ctx s (node_result task (.returned (.Failed error) records)) =
      .ok (proceed_after_failure ctx s task.node_id, none) := by
  simp [settle, node_result, hindex, proceed_after_failure, fail_node]

theorem settle_panic (error : String) :
    settle ctx s (node_result task (.panicked error)) = .ok (proceed_after_failure ctx s "unknown", none) := by
  simp [settle, node_result, proceed_after_failure, fail_node]

variable (outcome : NodeOutcome) {index : Nat} (hindex : task.fan_out_index = some index)
include hindex

theorem settle_instance_dropped (hstate : s.fan_out_states task.node_id = none) :
    settle ctx s (node_result task (.returned outcome records)) = .ok (s, none) := by
  simp [settle, node_result, hindex, handle_fan_out_completion, hstate]

variable {state : FanOutState} (hstate : s.fan_out_states task.node_id = some state)
include hstate

theorem settle_instance_kept (hbound : index < state.results.length)
    (hmore : state.completed + 1 ≠ state.expected) :
    settle ctx s (node_result task (.returned outcome records)) =
      .ok (keep_fan_out s task.node_id (fill_slot state index outcome), none) := by
  simp [settle, node_result, hindex, handle_fan_out_completion, hstate, hbound, hmore, keep_fan_out, fill_slot]

theorem settle_fan_in (hbound : index < state.results.length) (hlast : state.completed + 1 = state.expected) :
    settle ctx s (node_result task (.returned outcome records)) =
      .ok (complete_fan_in s task.node_id (fill_slot state index outcome),
        some (task.node_id, merged_output (fill_slot state index outcome), true)) := by
  simp [settle, node_result, hindex, handle_fan_out_completion, hstate, hbound, hlast, complete_fan_in,
    fill_slot, merged_output]

theorem settle_out_of_bounds (hbound : ¬ index < state.results.length) :
    settle ctx s (node_result task (.returned outcome records)) =
      .error (.index_out_of_bounds index state.results.length) := by
  simp [settle, node_result, hindex, handle_fan_out_completion, hstate, hbound]

end Settle

/-- How an iteration goes on after the joined task was settled. -/
def proceed_downstream (ctx : RunContext) (settled : RunState) : Option (String × Value × Bool) → RunState
  | none => settled
  | some (node_id, outputs, from_fan_in) => evaluate_downstream ctx settled node_id outputs from_fan_in

/-- An iteration settles the joined task and goes on from there. -/
theorem next_state_eq {ctx : RunContext} {s : RunState} {c : Completion} {task : Task}
    (hfind : s.running.find? (fun task => task.id = c.task) = some task) :
    next_state ctx s c = (settle ctx (joined ctx s c task) (node_result task c.joined)).toOption.map
      fun settled => proceed_downstream ctx settled.1 settled.2 := by
  unfold next_state process_result joined
  rw [hfind]
  dsimp only
  cases settle ctx _ (node_result task c.joined) with
  | error p => rfl
  | ok settled =>
    obtain ⟨settled, downstream⟩ := settled
    cases downstream with
    | none => rfl
    | some completion => rfl

/-- What is settled for the joined task is what the iteration goes on with. -/
theorem next_state_of_settle {ctx : RunContext} {s : RunState} {c : Completion} {task : Task}
    (hfind : s.running.find? (fun task => task.id = c.task) = some task) {settled : RunState}
    {downstream : Option (String × Value × Bool)}
    (hsettle : settle ctx (joined ctx s c task) (node_result task c.joined) = .ok (settled, downstream)) :
    next_state ctx s c = some (proceed_downstream ctx settled downstream) := by
  rw [next_state_eq hfind, hsettle]
  rfl

/-- A step joins a task in flight and does one of the listed things with it. -/
theorem next_state_cases {ctx : RunContext} {s next : RunState} {c : Completion}
    (h : next_state ctx s c = some next) :
    ∃ task, s.running.find? (fun task => task.id = c.task) = some task ∧ StepCase ctx s c task next := by
  cases hfind : s.running.find? fun task => task.id = c.task with
  | none =>
    rw [next_state, hfind] at h
    cases h
  | some task =>
    refine ⟨task, rfl, ?_⟩
    rw [next_state_eq hfind] at h
    cases hjoined : c.joined with
    | panicked error =>
      rw [hjoined, settle_panic] at h
      cases h
      exact .panic hjoined
    | returned outcome records =>
      rw [hjoined] at h
      cases hindex : task.fan_out_index with
      | none =>
        cases outcome with
        | Success outputs =>
          rw [settle_plain_success _ _ _ _ _ hindex] at h
          cases h
          exact .plain_success hjoined hindex
        | Failed error =>
          rw [settle_plain_failure _ _ _ _ _ hindex] at h
          cases h
          exact .plain_failure hjoined hindex
      | some index =>
        have hframe : (joined ctx s c task).fan_out_states = s.fan_out_states := rfl
        cases hstate : s.fan_out_states task.node_id with
        | none =>
          rw [settle_instance_dropped _ _ _ _ _ hindex (by rw [hframe, hstate])] at h
          cases h
          exact .instance_dropped hjoined hindex hstate
        | some state =>
          by_cases hbound : index < state.results.length
          · by_cases hlast : state.completed + 1 = state.expected
            · rw [settle_fan_in _ _ _ _ _ hindex (by rw [hframe, hstate]) hbound hlast] at h
              cases h
              exact .fan_in hjoined hindex hstate hbound hlast
            · rw [settle_instance_kept _ _ _ _ _ hindex (by rw [hframe, hstate]) hbound hlast] at h
              cases h
              exact .instance_kept hjoined hindex hstate hbound hlast
          · rw [settle_out_of_bounds _ _ _ _ _ hindex (by rw [hframe, hstate]) hbound] at h
            cases h

/-- The loop panics only on an index outside the slots. -/
theorem exists_next_state {ctx : RunContext} {s : RunState} {c : Completion} {task : Task}
    (hfind : s.running.find? (fun task => task.id = c.task) = some task)
    (hbound : ∀ index state, task.fan_out_index = some index → s.fan_out_states task.node_id = some state →
      index < state.results.length) : ∃ next, next_state ctx s c = some next := by
  have hsettle : ∃ settled, settle ctx (joined ctx s c task) (node_result task c.joined) = .ok settled := by
    cases hjoined : c.joined with
    | panicked error => exact ⟨_, settle_panic _ _ _ _⟩
    | returned outcome records =>
      cases hindex : task.fan_out_index with
      | none =>
        cases outcome with
        | Success outputs => exact ⟨_, settle_plain_success _ _ _ _ _ hindex⟩
        | Failed error => exact ⟨_, settle_plain_failure _ _ _ _ _ hindex⟩
      | some index =>
        cases hstate : s.fan_out_states task.node_id with
        | none => exact ⟨_, settle_instance_dropped _ _ _ _ _ hindex hstate⟩
        | some state =>
          have hlt := hbound index state hindex hstate
          by_cases hlast : state.completed + 1 = state.expected
          · exact ⟨_, settle_fan_in _ _ _ _ _ hindex hstate hlt hlast⟩
          · exact ⟨_, settle_instance_kept _ _ _ _ _ hindex hstate hlt hlast⟩
  obtain ⟨⟨settled, downstream⟩, hsettle⟩ := hsettle
  exact ⟨_, next_state_of_settle hfind hsettle⟩

end flow_engine.executor
