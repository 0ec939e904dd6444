import FlowEngine.Executor.Step
import FlowEngine.Lib.Transition

namespace flow_engine.executor

/-- A task in flight returns with an outcome it may have. -/
def Finishes (may : Task → NodeOutcome → Prop) (s : RunState) (c : Completion) : Prop :=
  ∃ task, s.running.find? (fun task => task.id = c.task) = some task ∧
    ∃ outcome records, c.joined = .returned outcome records ∧ may task outcome

/-- The runs of the loop in which no task panics and every outcome is one the task
may have. The completions are in the order in which the loop joins them. -/
abbrev RunOf (ctx : RunContext) (may : Task → NodeOutcome → Prop) : List Completion → RunState → Prop :=
  transition.Run (next_state ctx) (Finishes may) (initial_state ctx)

/-- The task of an entry node. -/
def entry_task (ctx : RunContext) (entry : String × Nat) : Task where
  id := ⟨entry.2, 0⟩
  node_id := entry.1
  fan_out_index := none
  inputs := ctx.inputs

theorem mem_entry_nodes {ctx : RunContext} {node_id : String} : node_id ∈ entry_nodes ctx ↔
    node_id ∈ ctx.graph.nodes.map NodeInstance.instance_id ∧
      ∀ edge ∈ ctx.graph.edges, edge.id ∉ find_back_edges ctx.graph → edge.to_node ≠ node_id := by
  simp only [entry_nodes, find_entry_nodes, List.mem_filter, List.mem_map, decide_eq_true_eq, not_exists,
    not_and]
  constructor
  · rintro ⟨hnode, hnot⟩
    exact ⟨hnode, fun edge hedge hback => hnot edge ⟨hedge, hback⟩⟩
  · rintro ⟨hnode, hnot⟩
    exact ⟨hnode, fun edge hedge => hnot edge hedge.1 hedge.2⟩

theorem entry_nodes_nodup {ctx : RunContext} (haccepted : Accepted ctx) : (entry_nodes ctx).Nodup :=
  haccepted.valid.node_ids_nodup.filter _

theorem entry_nodes_spawnable {ctx : RunContext} (haccepted : Accepted ctx) {node_id : String}
    (hentry : node_id ∈ entry_nodes ctx) : spawnable ctx node_id = true :=
  haccepted.spawnable (mem_entry_nodes.mp hentry).1

/-- Spawning the entry nodes changes the tasks in flight and the activations only. -/
theorem spawn_entry_foldl {ctx : RunContext} {entries : List String}
    (hspawnable : ∀ entry ∈ entries, spawnable ctx entry = true) (s : RunState) :
    entries.foldl (spawn_entry ctx) s = { s with
      running := s.running ++ (entries.zipIdx s.activations.length).map (entry_task ctx)
      activations := s.activations ++ entries.map fun entry => ⟨entry, .plain ctx.inputs⟩ } := by
  induction entries generalizing s with
  | nil => simp
  | cons entry rest ih =>
    have hentry : spawn_entry ctx s entry = { s with
        running := s.running ++ [entry_task ctx (entry, s.activations.length)]
        activations := s.activations ++ [⟨entry, .plain ctx.inputs⟩] } := by
      unfold spawn_entry
      rw [spawn_node_eq, if_pos (hspawnable entry (by simp))]
      rfl
    rw [List.foldl_cons, hentry, ih fun e he => hspawnable e (List.mem_cons_of_mem _ he)]
    simp

/-- The outputs the entry nodes are seeded with. -/
def seeds (ctx : RunContext) (node_id : String) : Option Value :=
  if node_id ∈ entry_nodes ctx then some ctx.inputs else none

theorem seeds_eq_foldl (ctx : RunContext) :
    ((entry_nodes ctx).foldl (fun outputs entry => Function.update outputs entry (some ctx.inputs))
      fun _ => none) = seeds ctx := by
  have hfold : ∀ (entries : List String) (outputs : String → Option Value) (node_id : String),
      entries.foldl (fun outputs entry => Function.update outputs entry (some ctx.inputs)) outputs node_id =
        if node_id ∈ entries then some ctx.inputs else outputs node_id := by
    intro entries
    induction entries with
    | nil => simp
    | cons entry rest ih =>
      intro outputs node_id
      rw [List.foldl_cons, ih]
      by_cases hrest : node_id ∈ rest
      · simp [hrest]
      · by_cases heq : node_id = entry
        · simp [heq]
        · simp [hrest, heq]
  funext node_id
  exact hfold _ _ node_id

/-- The variables before the loop, when every entry node can be spawned. -/
theorem initial_state_eq {ctx : RunContext}
    (hspawnable : ∀ entry ∈ entry_nodes ctx, spawnable ctx entry = true) :
    initial_state ctx = {
      completed := ∅
      failed := ∅
      node_outputs := seeds ctx
      edge_traversal_counts := fun _ => 0
      llm_records := []
      fan_out_states := fun _ => none
      running := (entry_nodes ctx).zipIdx.map (entry_task ctx)
      running_set := (entry_nodes ctx).toFinset
      activations := (entry_nodes ctx).map fun entry => ⟨entry, .plain ctx.inputs⟩
      log := [] } := by
  unfold initial_state
  simp only [seeds_eq_foldl]
  rw [spawn_entry_foldl hspawnable]
  simp

/-- What spawning entry nodes never changes. -/
theorem spawn_entry_frame (ctx : RunContext) (entries : List String) (s : RunState) :
    (entries.foldl (spawn_entry ctx) s).completed = s.completed ∧
    (entries.foldl (spawn_entry ctx) s).failed = s.failed ∧
    (entries.foldl (spawn_entry ctx) s).fan_out_states = s.fan_out_states ∧
    (entries.foldl (spawn_entry ctx) s).edge_traversal_counts = s.edge_traversal_counts ∧
    (entries.foldl (spawn_entry ctx) s).log = s.log := by
  induction entries generalizing s with
  | nil => exact ⟨rfl, rfl, rfl, rfl, rfl⟩
  | cons entry rest ih =>
    rw [List.foldl_cons]
    obtain ⟨hcompleted, hfailed, hfan, hcounts, hlog⟩ := ih (spawn_entry ctx s entry)
    rw [hcompleted, hfailed, hfan, hcounts, hlog]
    unfold spawn_entry
    split <;> exact ⟨rfl, rfl, rfl, rfl, rfl⟩

theorem initial_state_counts (ctx : RunContext) : (initial_state ctx).edge_traversal_counts = fun _ => 0 :=
  (spawn_entry_frame ctx (entry_nodes ctx) _).2.2.2.1

@[simp] theorem spawn_ready_nodes_counts (ctx : RunContext) (nodes : List ReadyNode) (s : RunState) :
    (spawn_ready_nodes ctx nodes s).edge_traversal_counts = s.edge_traversal_counts := by
  induction nodes generalizing s with
  | nil => rfl
  | cons ready rest ih => exact (ih _).trans (spawn_ready_node_counts ctx s ready)

theorem evaluate_downstream_countsBounded {ctx : RunContext} {s : RunState}
    (hcounts : CountsBounded ctx s.edge_traversal_counts) (node_id : String) (outputs : Value)
    (from_fan_in : Bool) :
    CountsBounded ctx (evaluate_downstream ctx s node_id outputs from_fan_in).edge_traversal_counts := by
  rw [evaluate_downstream_eq hcounts, spawn_ready_nodes_counts]
  exact passed_edges_countsBounded _ hcounts

theorem proceed_after_failure_counts (ctx : RunContext) (s : RunState) (node_id : String) :
    (proceed_after_failure ctx s node_id).edge_traversal_counts = s.edge_traversal_counts := by
  rw [proceed_after_failure_eq, spawn_ready_nodes_counts]
  rfl

/-- A step keeps the traversal counts within the limit. -/
theorem next_state_countsBounded {ctx : RunContext} {s next : RunState} {c : Completion}
    (hcounts : CountsBounded ctx s.edge_traversal_counts) (hstep : next_state ctx s c = some next) :
    CountsBounded ctx next.edge_traversal_counts := by
  obtain ⟨task, _, hcase⟩ := next_state_cases hstep
  cases hcase with
  | plain_success hjoined hindex =>
    apply evaluate_downstream_countsBounded
    exact hcounts
  | fan_in hjoined hindex hstate hbound hlast =>
    apply evaluate_downstream_countsBounded
    exact hcounts
  | plain_failure hjoined hindex =>
    rw [proceed_after_failure_counts]
    exact hcounts
  | panic hjoined =>
    rw [proceed_after_failure_counts]
    exact hcounts
  | instance_dropped hjoined hindex hstate => exact hcounts
  | instance_kept hjoined hindex hstate hbound hmore => exact hcounts

/-- In every reached state no edge was passed more often than allowed. -/
theorem run_countsBounded {ctx : RunContext} {allowed : RunState → Completion → Prop} {cs : List Completion}
    {s : RunState} (hrun : transition.Run (next_state ctx) allowed (initial_state ctx) cs s) :
    CountsBounded ctx s.edge_traversal_counts := by
  refine hrun.invariant (P := fun _ s => CountsBounded ctx s.edge_traversal_counts) ?_ ?_
  · intro id
    rw [initial_state_counts]
    exact Nat.zero_le _
  · intro _ _ _ _ _ hcounts _ hstep
    exact next_state_countsBounded hcounts hstep

/-- The run in which the named tasks finish one after the other, each with the outcome
of its handler. -/
def replay (ctx : RunContext) (handler : Task → NodeOutcome) :
    RunState → List TaskId → Option (List Completion × RunState)
  | s, [] => some ([], s)
  | s, id :: rest =>
    match s.running.find? fun task => task.id = id with
    | none => none
    | some task =>
      match next_state ctx s ⟨id, .returned (handler task) []⟩ with
      | none => none
      | some next =>
        (replay ctx handler next rest).map fun run => (⟨id, .returned (handler task) []⟩ :: run.1, run.2)

theorem run_of_replay {ctx : RunContext} {handler : Task → NodeOutcome} {start s : RunState} {ids : List TaskId}
    {cs : List Completion} (h : replay ctx handler start ids = some (cs, s)) :
    transition.Run (next_state ctx) (Finishes fun task outcome => outcome = handler task) start cs s := by
  induction ids generalizing start cs with
  | nil =>
    cases h
    exact .nil
  | cons id rest ih =>
    rw [replay] at h
    split at h
    · cases h
    · rename_i task hfind
      split at h
      · cases h
      · rename_i next hstep
        obtain ⟨⟨cs', s'⟩, hrest, heq⟩ := Option.map_eq_some_iff.mp h
        cases heq
        have hone : transition.Run (next_state ctx) (Finishes fun task outcome => outcome = handler task) start
            ([] ++ [⟨id, .returned (handler task) []⟩]) next :=
          transition.Run.nil.snoc ⟨task, hfind, handler task, [], rfl, rfl⟩ hstep
        exact hone.append (ih hrest)

/-- Binary64 operations for contexts whose conditions compute with no numbers. -/
def no_f64 : expression.F64Ops where
  parse _ := none
  of_u64 n := n
  of_i64 _ := 0
  sub a _ := a
  abs a := a
  eq a b := a == b
  lt a b := a < b
  le a b := a ≤ b

def sample_edge (id from_node to_node : String) (condition : Option String) : Edge :=
  ⟨id, from_node, "out", to_node, "in", condition.map EdgeCondition.mk⟩

/-- A context over the given graph in which every node has the same type. -/
def sample_context (node_ids : List String) (edges : List Edge) (max_traversals : Nat) : RunContext where
  run_id := "run"
  graph := ⟨"flow", node_ids.map fun id => ⟨id, "task", .null⟩, edges⟩
  inputs := .null
  node_registry _ := some ⟨"task", [], []⟩
  max_traversals := max_traversals
  f64 := no_f64

theorem sample_accepted {node_ids : List String} {edges : List Edge} (max_traversals : Nat)
    (hvalid : validate.validation_errors (sample_context node_ids edges max_traversals).graph = []) :
    Accepted (sample_context node_ids edges max_traversals) := by
  constructor
  · unfold validate.validate_graph
    rw [hvalid]
    rfl
  · intro node _
    rfl

end flow_engine.executor
