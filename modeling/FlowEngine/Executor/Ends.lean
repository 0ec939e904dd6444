import FlowEngine.Executor.Dag.Net

namespace flow_engine.executor

/-- How a node ended when its task was joined, if it did: with the output whose edges the
loop evaluates, or because its plain task failed or panicked. -/
def settled_end (ctx : RunContext) (s : RunState) (c : Completion) : Option (String × NodeEnd) :=
  match s.running.find? fun task => task.id = c.task with
  | none => none
  | some task =>
    match settle ctx (joined ctx s c task) (node_result task c.joined) with
    | .ok (_, some (node_id, outputs, from_fan_in)) => some (node_id, .done outputs from_fan_in)
    | .ok (_, none) => if task.fan_out_index = none then some (task.node_id, .failed) else none
    | .error _ => none

/-- The ends of nodes in a run, in the order in which the loop joined their tasks. -/
def node_ends (ctx : RunContext) (cs : List Completion) : List (String × NodeEnd) :=
  transition.trace (next_state ctx) (settled_end ctx) (initial_state ctx) cs

/-- The outputs a node completed with, oldest first. -/
def outputs_of (ends : List (String × NodeEnd)) (node_id : String) : List Value :=
  ends.filterMap fun e => if e.1 = node_id then e.2.output else none

/-- How a node ended last. -/
def last_end (ends : List (String × NodeEnd)) (node_id : String) : Option NodeEnd :=
  (ends.filter fun e => e.1 = node_id).getLast?.map Prod.snd

section Outputs

variable {ends : List (String × NodeEnd)} {node_id : String}

@[simp] theorem outputs_of_nil : outputs_of [] node_id = [] := rfl

theorem outputs_of_append (ends more : List (String × NodeEnd)) (node_id : String) :
    outputs_of (ends ++ more) node_id = outputs_of ends node_id ++ outputs_of more node_id :=
  List.filterMap_append

@[simp] theorem outputs_of_done (n : String) (outputs : Value) (from_fan_in : Bool) :
    outputs_of [(n, .done outputs from_fan_in)] node_id = if n = node_id then [outputs] else [] := by
  by_cases hn : n = node_id <;> simp [outputs_of, hn, NodeEnd.output]

@[simp] theorem outputs_of_failed (n : String) : outputs_of [(n, .failed)] node_id = [] := by
  by_cases hn : n = node_id <;> simp [outputs_of, hn, NodeEnd.output]

/-- A node that has not ended has no outputs. -/
theorem outputs_of_eq_nil (h : last_end ends node_id = none) : outputs_of ends node_id = [] := by
  rw [last_end, Option.map_eq_none_iff, List.getLast?_eq_none_iff, List.filter_eq_nil_iff] at h
  rw [outputs_of, List.filterMap_eq_nil_iff]
  intro e he
  exact if_neg fun heq => h e he (decide_eq_true heq)

/-- A node that ended last by completing shows its last output. -/
theorem getLast?_outputs_of {outputs : Value} {from_fan_in : Bool}
    (h : last_end ends node_id = some (.done outputs from_fan_in)) :
    (outputs_of ends node_id).getLast? = some outputs := by
  induction ends using List.reverseRecOn with
  | nil => cases h
  | append_singleton ends e ih =>
    obtain ⟨n, how⟩ := e
    rw [outputs_of_append]
    by_cases hn : n = node_id
    · subst hn
      simp only [last_end, List.filter_append, List.filter_cons_of_pos, decide_true, List.filter_nil,
        List.getLast?_append, List.getLast?_singleton, Option.some_or, Option.map_some, Option.some.injEq] at h
      subst h
      simp
    · have hsame : last_end (ends ++ [(n, how)]) node_id = last_end ends node_id := by
        simp [last_end, hn]
      have hnone : outputs_of [(n, how)] node_id = [] := by simp [outputs_of, hn]
      rw [hnone, List.append_nil]
      exact ih (hsame ▸ h)

end Outputs

section Case

variable {ctx : RunContext} {s : RunState} {c : Completion} {task : Task}
  (hfind : s.running.find? (fun task => task.id = c.task) = some task)
include hfind

theorem settled_end_plain_success {outputs : Value} {records : List LlmInvocationRecord}
    (hjoined : c.joined = .returned (.Success outputs) records) (hindex : task.fan_out_index = none) :
    settled_end ctx s c = some (task.node_id, .done outputs false) := by
  simp [settled_end, hfind, hjoined, settle_plain_success _ _ _ _ _ hindex]

theorem settled_end_plain_failure {error : String} {records : List LlmInvocationRecord}
    (hjoined : c.joined = .returned (.Failed error) records) (hindex : task.fan_out_index = none) :
    settled_end ctx s c = some (task.node_id, .failed) := by
  simp [settled_end, hfind, hjoined, settle_plain_failure _ _ _ _ _ hindex, hindex]

theorem settled_end_panic {error : String} (hjoined : c.joined = .panicked error) :
    settled_end ctx s c = if task.fan_out_index = none then some (task.node_id, .failed) else none := by
  simp [settled_end, hfind, hjoined, settle_panic]

variable {outcome : NodeOutcome} {records : List LlmInvocationRecord} {index : Nat}
  (hjoined : c.joined = .returned outcome records) (hindex : task.fan_out_index = some index)
include hjoined hindex

theorem settled_end_dropped (hstate : s.fan_out_states task.node_id = none) : settled_end ctx s c = none := by
  simp [settled_end, hfind, hjoined, settle_instance_dropped _ _ _ _ _ hindex, hstate, hindex]

variable {state : FanOutState} (hstate : s.fan_out_states task.node_id = some state)
  (hbound : index < state.results.length)
include hstate hbound

theorem settled_end_kept (hmore : state.completed + 1 ≠ state.expected) : settled_end ctx s c = none := by
  have hsettle := settle_instance_kept ctx (executor.joined ctx s c task) task records outcome hindex
    (hstate : (executor.joined ctx s c task).fan_out_states task.node_id = some state) hbound hmore
  simp [settled_end, hfind, hjoined, hsettle, hindex]

theorem settled_end_fan_in (hlast : state.completed + 1 = state.expected) :
    settled_end ctx s c = some (task.node_id, .done (merged_output (fill_slot state index outcome)) true) := by
  have hsettle := settle_fan_in ctx (executor.joined ctx s c task) task records outcome hindex
    (hstate : (executor.joined ctx s c task).fan_out_states task.node_id = some state) hbound hlast
  simp [settled_end, hfind, hjoined, hsettle]

end Case

/-- What a step means for the nodes: one completes and its edges are evaluated, the failure
path is taken for a node, or a fan-out goes on waiting. -/
inductive StepEffect (ctx : RunContext) (s : RunState) (c : Completion) (task : Task) : RunState → Prop
  | completes {settled : RunState} {outputs : Value} {from_fan_in : Bool}
      (hend : settled_end ctx s c = some (task.node_id, .done outputs from_fan_in))
      (houtputs : settled.node_outputs = Function.update s.node_outputs task.node_id (some outputs))
      (hcounts : settled.edge_traversal_counts = s.edge_traversal_counts)
      (hactivations : settled.activations = s.activations) (hlog : settled.log = (joined ctx s c task).log) :
      StepEffect ctx s c task (evaluate_downstream ctx settled task.node_id outputs from_fan_in)
  | fails {node_id : String} (hend : ∀ e ∈ settled_end ctx s c, e.2 = .failed) :
      StepEffect ctx s c task (proceed_after_failure ctx (joined ctx s c task) node_id)
  | waits {next : RunState} (hend : settled_end ctx s c = none) (houtputs : next.node_outputs = s.node_outputs)
      (hcounts : next.edge_traversal_counts = s.edge_traversal_counts)
      (hactivations : next.activations = s.activations) (hlog : next.log = (joined ctx s c task).log) :
      StepEffect ctx s c task next

theorem step_effect {ctx : RunContext} {s next : RunState} {c : Completion} (hstep : next_state ctx s c = some next) :
    ∃ task, s.running.find? (fun task => task.id = c.task) = some task ∧ StepEffect ctx s c task next := by
  obtain ⟨task, hfind, hcase⟩ := next_state_cases hstep
  refine ⟨task, hfind, ?_⟩
  cases hcase with
  | plain_success hjoined hindex =>
    exact .completes (settled_end_plain_success hfind hjoined hindex) rfl rfl rfl rfl
  | plain_failure hjoined hindex =>
    exact .fails (by simp [settled_end_plain_failure hfind hjoined hindex])
  | panic hjoined =>
    refine .fails ?_
    rw [settled_end_panic hfind hjoined]
    split <;> simp
  | instance_dropped hjoined hindex hstate =>
    exact .waits (settled_end_dropped hfind hjoined hindex hstate) rfl rfl rfl rfl
  | instance_kept hjoined hindex hstate hbound hmore =>
    exact .waits (settled_end_kept hfind hjoined hindex hstate hbound hmore) rfl rfl rfl rfl
  | fan_in hjoined hindex hstate hbound hlast =>
    exact .completes (settled_end_fan_in hfind hjoined hindex hstate hbound hlast) rfl rfl rfl rfl

theorem node_ends_snoc {ctx : RunContext} {allowed : RunState → Completion → Prop} {cs : List Completion} {s : RunState}
    (hrun : transition.Run (next_state ctx) allowed (initial_state ctx) cs s) (c : Completion) :
    node_ends ctx (cs ++ [c]) = node_ends ctx cs ++ (settled_end ctx s c).toList :=
  hrun.trace_snoc c

/-- A failure adds no output. -/
theorem outputs_of_snoc_failed {ctx : RunContext} {allowed : RunState → Completion → Prop} {cs : List Completion}
    {s : RunState} (hrun : transition.Run (next_state ctx) allowed (initial_state ctx) cs s) {c : Completion}
    (hend : ∀ e ∈ settled_end ctx s c, e.2 = .failed) (n : String) :
    outputs_of (node_ends ctx (cs ++ [c])) n = outputs_of (node_ends ctx cs) n := by
  rw [node_ends_snoc hrun, outputs_of_append]
  cases hcase : settled_end ctx s c with
  | none => simp
  | some e =>
    obtain ⟨m, how⟩ := e
    have hfailed : how = .failed := hend (m, how) (by simp [hcase])
    simp [hfailed]

/-- A completion adds its output to those of its node. -/
theorem outputs_of_snoc_done {ctx : RunContext} {allowed : RunState → Completion → Prop} {cs : List Completion}
    {s : RunState} (hrun : transition.Run (next_state ctx) allowed (initial_state ctx) cs s) {c : Completion}
    {m : String} {outputs : Value} {from_fan_in : Bool}
    (hend : settled_end ctx s c = some (m, .done outputs from_fan_in)) (n : String) :
    outputs_of (node_ends ctx (cs ++ [c])) n =
      outputs_of (node_ends ctx cs) n ++ if m = n then [outputs] else [] := by
  rw [node_ends_snoc hrun, outputs_of_append, hend]
  simp

@[simp] theorem spawn_ready_nodes_node_outputs (ctx : RunContext) (nodes : List ReadyNode) (s : RunState) :
    (spawn_ready_nodes ctx nodes s).node_outputs = s.node_outputs := by
  induction nodes generalizing s with
  | nil => rfl
  | cons ready rest ih => exact (ih _).trans (spawn_ready_node_node_outputs ctx s ready)

theorem evaluate_downstream_node_outputs {ctx : RunContext} {s : RunState}
    (hcounts : CountsBounded ctx s.edge_traversal_counts) (node_id : String) (outputs : Value) (from_fan_in : Bool) :
    (evaluate_downstream ctx s node_id outputs from_fan_in).node_outputs = s.node_outputs := by
  rw [evaluate_downstream_eq hcounts, spawn_ready_nodes_node_outputs]

theorem proceed_after_failure_node_outputs (ctx : RunContext) (s : RunState) (node_id : String) :
    (proceed_after_failure ctx s node_id).node_outputs = s.node_outputs := by
  rw [proceed_after_failure_eq, spawn_ready_nodes_node_outputs]
  rfl

/-- The outputs the loop keeps are those the nodes completed with last; an entry node that
has not completed shows the trigger inputs. -/
theorem run_node_outputs {ctx : RunContext} (haccepted : Accepted ctx) {allowed : RunState → Completion → Prop}
    {cs : List Completion} {s : RunState}
    (hrun : transition.Run (next_state ctx) allowed (initial_state ctx) cs s) (n : String) :
    s.node_outputs n = (outputs_of (node_ends ctx cs) n).getLast?.or (seeds ctx n) := by
  refine hrun.invariant
    (P := fun cs s => s.node_outputs n = (outputs_of (node_ends ctx cs) n).getLast?.or (seeds ctx n)) ?_ ?_
  · rw [initial_state_eq fun entry hentry => entry_nodes_spawnable haccepted hentry]
    rfl
  · intro cs s c next hreached h _ hstep
    have hcounts := run_countsBounded hreached
    obtain ⟨task, _, heffect⟩ := step_effect hstep
    cases heffect with
    | @completes settled outputs from_fan_in hend houtputs hsame hactivations hlog =>
      rw [evaluate_downstream_node_outputs (hsame ▸ hcounts), houtputs, outputs_of_snoc_done hreached hend]
      by_cases hn : task.node_id = n
      · subst hn
        simp
      · simp [hn, Function.update_of_ne (Ne.symm hn), h]
    | fails hend =>
      rw [proceed_after_failure_node_outputs, outputs_of_snoc_failed hreached hend]
      exact h
    | waits hend houtputs _ _ _ =>
      rw [houtputs, outputs_of_snoc_failed hreached (by simp [hend])]
      exact h

end flow_engine.executor
