import FlowEngine.Executor.Runs

namespace flow_engine.executor

/-- The single task of a plain activation of the node. -/
def is_plain_task_of (node_id : String) (task : Task) : Bool :=
  decide (task.node_id = node_id) && task.fan_out_index.isNone

/-- An instance of a fan-out of the node. -/
def is_instance_of (node_id : String) (task : Task) : Bool :=
  decide (task.node_id = node_id) && task.fan_out_index.isSome

/-- Every node is in one phase at most: done, running a plain task, or fanning
out. A running node has exactly one plain task in flight. -/
structure Phases (s : RunState) : Prop where
  failed_not_completed : ∀ n ∈ s.failed, n ∉ s.completed
  in_flight_not_done : ∀ n, in_flight s n = true → n ∉ s.completed ∧ n ∉ s.failed
  one_kind : ∀ n ∈ s.running_set, is_fan_out_running s n = false
  plain_count : ∀ n, s.running.countP (is_plain_task_of n) = if n ∈ s.running_set then 1 else 0

/-- A node the loop may start. -/
structure Idle (s : RunState) (ready : ReadyNode) : Prop where
  not_in_flight : in_flight s ready.node_id = false
  not_failed : ready.node_id ∉ s.failed
  cycle_of_completed : ready.node_id ∈ s.completed → ready.is_cycle = true

theorem in_flight_iff {s : RunState} {n : String} :
    in_flight s n = true ↔ is_fan_out_running s n = true ∨ n ∈ s.running_set := by
  simp [in_flight]

theorem in_flight_eq_false_iff {s : RunState} {n : String} :
    in_flight s n = false ↔ is_fan_out_running s n = false ∧ n ∉ s.running_set := by
  simp [in_flight]

/-- Whether a node is fanning out depends on its own entry only. -/
theorem is_fan_out_running_congr {s s' : RunState} {n : String}
    (h : s.fan_out_states n = s'.fan_out_states n) : is_fan_out_running s n = is_fan_out_running s' n := by
  unfold is_fan_out_running
  rw [h]

theorem in_flight_congr {s s' : RunState} {n : String} (hfan : s.fan_out_states n = s'.fan_out_states n)
    (hrunning : n ∈ s.running_set ↔ n ∈ s'.running_set) : in_flight s n = in_flight s' n := by
  unfold in_flight
  rw [is_fan_out_running_congr hfan, decide_eq_decide.mpr hrunning]

/-- The number of tasks of a kind drops by the joined one. -/
theorem countP_eraseP {s : RunState} {c : Completion} {task : Task}
    (hfind : s.running.find? (fun task => task.id = c.task) = some task) (kind : Task → Bool) :
    s.running.countP kind = (s.running.eraseP fun task => task.id = c.task).countP kind +
      if kind task then 1 else 0 := by
  rw [(running_perm hfind).countP_eq kind, List.countP_cons]

section InstanceTasks

variable (s : RunState) (node_id : String) (items : List Value)

/-- The tasks of a fan-out are instances of its node. -/
theorem countP_instance_tasks : (instance_tasks s node_id items).countP (is_instance_of node_id) = items.length := by
  rw [List.countP_eq_length.mpr]
  · simp [instance_tasks]
  · intro task htask
    obtain ⟨item, _, rfl⟩ := List.mem_map.mp htask
    simp [is_instance_of]

theorem countP_instance_tasks_other {n : String} (hn : n ≠ node_id) :
    (instance_tasks s node_id items).countP (is_instance_of n) = 0 := by
  rw [List.countP_eq_zero]
  intro task htask
  obtain ⟨item, _, rfl⟩ := List.mem_map.mp htask
  simp [is_instance_of, Ne.symm hn]

theorem countP_instance_tasks_plain (n : String) :
    (instance_tasks s node_id items).countP (is_plain_task_of n) = 0 := by
  rw [List.countP_eq_zero]
  intro task htask
  obtain ⟨item, _, rfl⟩ := List.mem_map.mp htask
  simp [is_plain_task_of]

theorem is_instance_of_plain_task (ctx : RunContext) (n : String) :
    is_instance_of n (plain_task ctx s node_id) = false := by
  simp [is_instance_of, plain_task]

end InstanceTasks

/-- Spawning a node leaves other nodes idle. -/
theorem Idle.spawn_other {ctx : RunContext} {s : RunState} {ready other : ReadyNode}
    (hne : other.node_id ≠ ready.node_id) (h : Idle s other) : Idle (spawn_ready_node ctx s ready) other := by
  obtain ⟨hcompleted, hrunning, hfan⟩ := spawn_ready_node_other ctx s ready hne
  constructor
  · rw [in_flight_congr hfan hrunning]
    exact h.not_in_flight
  · rw [spawn_ready_node_failed]
    exact h.not_failed
  · intro hmem
    exact h.cycle_of_completed (hcompleted.mp hmem)

/-- An idle node that is reopened is in no phase. -/
theorem Idle.reopen_not_completed {s : RunState} {ready : ReadyNode} (h : Idle s ready) :
    ready.node_id ∉ (reopen s ready).completed := by
  unfold reopen
  cases hcycle : ready.is_cycle with
  | true => simp
  | false =>
    intro hmem
    have hcompleted : ready.node_id ∈ s.completed := by simpa using hmem
    simp [h.cycle_of_completed hcompleted] at hcycle

theorem reopen_completed_subset (s : RunState) (ready : ReadyNode) : (reopen s ready).completed ⊆ s.completed := by
  unfold reopen
  by_cases hcycle : ready.is_cycle = true
  · simp [hcycle, Finset.erase_subset]
  · simp [hcycle]

theorem spawn_ready_node_completed (ctx : RunContext) (s : RunState) (ready : ReadyNode) :
    (spawn_ready_node ctx s ready).completed = (reopen s ready).completed := by
  cases hitems : ready.fan_out_items with
  | none => rw [spawn_ready_node_plain ctx s hitems, spawn_plain_completed]
  | some items => rw [spawn_ready_node_fan_out ctx s hitems, spawn_fan_out_eq]

/-- A spawned node that is running is not fanning out. -/
theorem Phases.one_kind_spawned {ctx : RunContext} {s : RunState} {ready : ReadyNode} (h : Phases s)
    (hidle : Idle s ready) (n : String) (hmem : n ∈ (spawn_ready_node ctx s ready).running_set) :
    is_fan_out_running (spawn_ready_node ctx s ready) n = false := by
  obtain ⟨hfan, hrunning⟩ := in_flight_eq_false_iff.mp hidle.not_in_flight
  by_cases hn : n = ready.node_id
  · subst hn
    cases hitems : ready.fan_out_items with
    | none =>
      rw [spawn_ready_node_plain ctx s hitems]
      have hstates : (spawn_plain ctx (reopen s ready) ready.node_id).fan_out_states = s.fan_out_states := by
        rw [spawn_plain_fan_out_states]
        rfl
      rw [is_fan_out_running_congr (congrFun hstates ready.node_id)]
      exact hfan
    | some items =>
      rw [spawn_ready_node_fan_out ctx s hitems, spawn_fan_out_eq] at hmem
      exact absurd hmem hrunning
  · obtain ⟨_, hrun, hstate⟩ := spawn_ready_node_other ctx s ready hn
    rw [is_fan_out_running_congr hstate]
    exact h.one_kind n (hrun.mp hmem)

/-- A spawned plain task is the only one of its node. -/
theorem Phases.plain_count_spawned {ctx : RunContext} {s : RunState} {ready : ReadyNode} (h : Phases s)
    (hidle : Idle s ready) (n : String) : (spawn_ready_node ctx s ready).running.countP (is_plain_task_of n) =
      if n ∈ (spawn_ready_node ctx s ready).running_set then 1 else 0 := by
  obtain ⟨_, hrunning⟩ := in_flight_eq_false_iff.mp hidle.not_in_flight
  have hcount := h.plain_count n
  cases hitems : ready.fan_out_items with
  | none =>
    rw [spawn_ready_node_plain ctx s hitems, spawn_plain_eq]
    by_cases hspawnable : spawnable ctx ready.node_id = true
    · rw [if_pos hspawnable]
      by_cases hn : n = ready.node_id
      · subst hn
        rw [if_neg hrunning] at hcount
        simp [hcount, is_plain_task_of, plain_task]
      · have hne : ¬ ready.node_id = n := fun heq => hn heq.symm
        simp [hcount, is_plain_task_of, plain_task, hn, hne]
    · rw [if_neg hspawnable]
      exact hcount
  | some items =>
    rw [spawn_ready_node_fan_out ctx s hitems, spawn_fan_out_eq]
    have hsame : (if spawnable ctx ready.node_id = true then
        instance_tasks (reopen s ready) ready.node_id items else []).countP (is_plain_task_of n) = 0 := by
      by_cases hspawnable : spawnable ctx ready.node_id = true
      · rw [if_pos hspawnable, countP_instance_tasks_plain]
      · rw [if_neg hspawnable, List.countP_nil]
    rw [List.countP_append, hsame, Nat.add_zero]
    exact hcount

/-- Spawning an idle node keeps the phases apart. -/
theorem Phases.spawned {ctx : RunContext} {s : RunState} {ready : ReadyNode} (h : Phases s)
    (hidle : Idle s ready) : Phases (spawn_ready_node ctx s ready) := by
  have hreopened := hidle.reopen_not_completed
  have hsubset := reopen_completed_subset s ready
  constructor
  · intro n hfailed hmem
    rw [spawn_ready_node_failed] at hfailed
    rw [spawn_ready_node_completed] at hmem
    exact h.failed_not_completed n hfailed (hsubset hmem)
  · intro n hflight
    rw [spawn_ready_node_failed, spawn_ready_node_completed]
    by_cases hn : n = ready.node_id
    · subst hn
      exact ⟨hreopened, hidle.not_failed⟩
    · obtain ⟨_, hrun, hstate⟩ := spawn_ready_node_other ctx s ready hn
      rw [in_flight_congr hstate hrun] at hflight
      obtain ⟨hnot, hfailed⟩ := h.in_flight_not_done n hflight
      exact ⟨fun hmem => hnot (hsubset hmem), hfailed⟩
  · exact h.one_kind_spawned hidle
  · exact h.plain_count_spawned hidle

theorem Phases.spawned_all {ctx : RunContext} {s : RunState} {nodes : List ReadyNode} (h : Phases s)
    (hnodup : (nodes.map ReadyNode.node_id).Nodup) (hidle : ∀ ready ∈ nodes, Idle s ready) :
    Phases (spawn_ready_nodes ctx nodes s) :=
  spawn_ready_nodes_induction (fun _ _ hs hready => hs.spawned hready)
    (fun _ _ _ hne _ hother => hother.spawn_other hne) hnodup h hidle

/-- What the edges of a completed node start is idle. -/
theorem Phases.idle_of_starting {ctx : RunContext} {s : RunState} (h : Phases s) {node_id : String}
    {outputs : Value} {edge : Edge} (from_fan_in : Bool)
    (hedge : edge ∈ starting_edges ctx s node_id outputs) : Idle s (ready_node s outputs from_fan_in edge) := by
  obtain ⟨_, _, _, hstart⟩ := mem_starting_edges hedge
  simp only [startable, Bool.and_eq_true, Bool.or_eq_true, Bool.not_eq_true', decide_eq_true_eq] at hstart
  obtain ⟨hflight, hready⟩ := hstart
  constructor
  · exact hflight
  · intro hfailed
    cases hready with
    | inl hcompleted => exact h.failed_not_completed _ hfailed hcompleted
    | inr hfirst => exact hfirst.1 hfailed
  · intro hcompleted
    exact decide_eq_true hcompleted

theorem ready_nodes_nodup (ctx : RunContext) (s : RunState) (node_id : String) (outputs : Value)
    (from_fan_in : Bool) :
    (((starting_edges ctx s node_id outputs).map (ready_node s outputs from_fan_in)).map
      ReadyNode.node_id).Nodup := by
  rw [List.map_map]
  exact starting_edges_nodup ctx s node_id outputs

theorem Phases.evaluated_downstream {ctx : RunContext} {s : RunState} (h : Phases s)
    (hcounts : CountsBounded ctx s.edge_traversal_counts) (node_id : String) (outputs : Value)
    (from_fan_in : Bool) : Phases (evaluate_downstream ctx s node_id outputs from_fan_in) := by
  rw [evaluate_downstream_eq hcounts]
  apply Phases.spawned_all
  · exact ⟨h.failed_not_completed, h.in_flight_not_done, h.one_kind, h.plain_count⟩
  · exact ready_nodes_nodup ctx s node_id outputs from_fan_in
  · intro ready hready
    obtain ⟨edge, hedge, rfl⟩ := List.mem_map.mp hready
    obtain ⟨hflight, hfailed, hcycle⟩ := h.idle_of_starting from_fan_in hedge
    exact ⟨hflight, hfailed, hcycle⟩

/-- The node of a plain task in flight is running. -/
theorem Phases.running_of_plain_task {s : RunState} (h : Phases s) {task : Task} (hmem : task ∈ s.running)
    (hindex : task.fan_out_index = none) : task.node_id ∈ s.running_set := by
  by_contra hnot
  have hcount := h.plain_count task.node_id
  rw [if_neg hnot, List.countP_eq_zero] at hcount
  exact hcount task hmem (by simp [is_plain_task_of, hindex])

/-- A running node has a plain task in flight. -/
theorem Phases.exists_plain_task {s : RunState} (h : Phases s) {n : String} (hrunning : n ∈ s.running_set) :
    ∃ task ∈ s.running, task.node_id = n ∧ task.fan_out_index = none := by
  have hcount := h.plain_count n
  rw [if_pos hrunning] at hcount
  obtain ⟨task, hmem, hkind⟩ := List.countP_pos_iff.mp (hcount ▸ Nat.one_pos)
  simp only [is_plain_task_of, Bool.and_eq_true, decide_eq_true_eq, Option.isNone_iff_eq_none] at hkind
  exact ⟨task, hmem, hkind⟩

/-- What is in flight after a running node was taken out was so before, and is another node. -/
theorem Phases.in_flight_erase {s : RunState} (h : Phases s) {x n : String} (hrunning : x ∈ s.running_set)
    (hflight : in_flight { s with running_set := s.running_set.erase x } n = true) :
    n ≠ x ∧ in_flight s n = true := by
  cases in_flight_iff.mp hflight with
  | inl hstate =>
    refine ⟨?_, in_flight_iff.mpr (Or.inl hstate)⟩
    rintro rfl
    exact Bool.false_ne_true ((h.one_kind _ hrunning).symm.trans hstate)
  | inr hmem =>
    exact ⟨Finset.ne_of_mem_erase hmem, in_flight_iff.mpr (Or.inr (Finset.mem_of_mem_erase hmem))⟩

section Settle

variable {ctx : RunContext} {s : RunState} {c : Completion} {task : Task}

/-- When a plain task is joined its node leaves the running nodes, whatever its
outcome. -/
theorem Phases.plain_count_joined (h : Phases s)
    (hfind : s.running.find? (fun task => task.id = c.task) = some task) (hindex : task.fan_out_index = none)
    (n : String) :
    (s.running.eraseP fun task => task.id = c.task).countP (is_plain_task_of n) =
      if n ∈ s.running_set.erase task.node_id then 1 else 0 := by
  have hrunning := h.running_of_plain_task (List.mem_of_find?_eq_some hfind) hindex
  have hcount := h.plain_count n
  rw [countP_eraseP hfind] at hcount
  by_cases hn : n = task.node_id
  · subst hn
    simp only [is_plain_task_of, hindex, hrunning] at hcount ⊢
    simpa using hcount
  · have hne : ¬ task.node_id = n := fun heq => hn heq.symm
    simpa [is_plain_task_of, hne, hn] using hcount

/-- Joining an instance leaves the plain tasks alone. -/
theorem Phases.plain_count_instance (h : Phases s)
    (hfind : s.running.find? (fun task => task.id = c.task) = some task) {index : Nat}
    (hindex : task.fan_out_index = some index) (n : String) :
    (s.running.eraseP fun task => task.id = c.task).countP (is_plain_task_of n) =
      if n ∈ s.running_set then 1 else 0 := by
  have hcount := h.plain_count n
  rw [countP_eraseP hfind] at hcount
  simpa [is_plain_task_of, hindex] using hcount

theorem Phases.completed_plain (h : Phases s)
    (hfind : s.running.find? (fun task => task.id = c.task) = some task) (hindex : task.fan_out_index = none)
    (outputs : Value) : Phases (complete_plain (joined ctx s c task) task.node_id outputs) := by
  have hrunning := h.running_of_plain_task (List.mem_of_find?_eq_some hfind) hindex
  obtain ⟨_, hnot_failed⟩ := h.in_flight_not_done _ (in_flight_iff.mpr (Or.inr hrunning))
  constructor
  · intro n hfailed hmem
    cases Finset.mem_insert.mp hmem with
    | inl heq => exact hnot_failed (heq ▸ hfailed)
    | inr hcompleted => exact h.failed_not_completed n hfailed hcompleted
  · intro n hflight
    obtain ⟨hne, hbefore⟩ := h.in_flight_erase hrunning hflight
    obtain ⟨hcompleted, hfailed⟩ := h.in_flight_not_done n hbefore
    exact ⟨fun hmem => (Finset.mem_insert.mp hmem).elim hne hcompleted, hfailed⟩
  · exact fun n hmem => h.one_kind n (Finset.mem_of_mem_erase hmem)
  · exact h.plain_count_joined hfind hindex

theorem Phases.failed_node (h : Phases s)
    (hfind : s.running.find? (fun task => task.id = c.task) = some task) (hindex : task.fan_out_index = none) :
    Phases (fail_node (joined ctx s c task) task.node_id) := by
  have hrunning := h.running_of_plain_task (List.mem_of_find?_eq_some hfind) hindex
  obtain ⟨hnot_completed, _⟩ := h.in_flight_not_done _ (in_flight_iff.mpr (Or.inr hrunning))
  constructor
  · intro n hfailed hmem
    cases Finset.mem_insert.mp hfailed with
    | inl heq => exact hnot_completed (heq ▸ hmem)
    | inr hfailed => exact h.failed_not_completed n hfailed hmem
  · intro n hflight
    obtain ⟨hne, hbefore⟩ := h.in_flight_erase hrunning hflight
    obtain ⟨hcompleted, hfailed⟩ := h.in_flight_not_done n hbefore
    exact ⟨hcompleted, fun hmem => (Finset.mem_insert.mp hmem).elim hne hfailed⟩
  · exact fun n hmem => h.one_kind n (Finset.mem_of_mem_erase hmem)
  · exact h.plain_count_joined hfind hindex

variable {index : Nat} {state : FanOutState} (hstate : s.fan_out_states task.node_id = some state)
include hstate

/-- An instance that is not the last one leaves its node fanning out as before. -/
theorem is_fan_out_running_keep (hmore : state.completed + 1 ≠ state.expected) (outcome : NodeOutcome) (n : String) :
    is_fan_out_running (keep_fan_out (joined ctx s c task) task.node_id (fill_slot state index outcome)) n =
      is_fan_out_running s n := by
  by_cases hn : n = task.node_id
  · subst hn
    simp only [is_fan_out_running, keep_fan_out, Function.update_self, hstate, fill_slot, decide_eq_decide]
    omega
  · exact is_fan_out_running_congr (Function.update_of_ne hn _ _)

theorem Phases.kept_fan_out (h : Phases s)
    (hfind : s.running.find? (fun task => task.id = c.task) = some task) (hindex : task.fan_out_index = some index)
    (hmore : state.completed + 1 ≠ state.expected) (outcome : NodeOutcome) :
    Phases (keep_fan_out (joined ctx s c task) task.node_id (fill_slot state index outcome)) := by
  have hfan := @is_fan_out_running_keep ctx s c task index state hstate hmore outcome
  constructor
  · exact h.failed_not_completed
  · intro n hflight
    apply h.in_flight_not_done n
    rw [in_flight_iff, hfan n] at hflight
    exact in_flight_iff.mpr hflight
  · intro n hmem
    rw [hfan n]
    exact h.one_kind n hmem
  · exact h.plain_count_instance hfind hindex

theorem Phases.completed_fan_in (h : Phases s)
    (hfind : s.running.find? (fun task => task.id = c.task) = some task) (hindex : task.fan_out_index = some index)
    (hlast : state.completed + 1 = state.expected) (outcome : NodeOutcome) :
    Phases (complete_fan_in (joined ctx s c task) task.node_id (fill_slot state index outcome)) := by
  have hfan : is_fan_out_running s task.node_id = true := by
    simp only [is_fan_out_running, hstate, decide_eq_true_eq]
    omega
  obtain ⟨_, hnot_failed⟩ := h.in_flight_not_done _ (in_flight_iff.mpr (Or.inl hfan))
  have hnot_running : task.node_id ∉ s.running_set := by
    intro hmem
    rw [h.one_kind _ hmem] at hfan
    exact Bool.false_ne_true hfan
  have hother : ∀ n, n ≠ task.node_id → is_fan_out_running
      (complete_fan_in (joined ctx s c task) task.node_id (fill_slot state index outcome)) n =
        is_fan_out_running s n := fun n hn => is_fan_out_running_congr (Function.update_of_ne hn _ _)
  constructor
  · intro n hfailed hmem
    cases Finset.mem_insert.mp hmem with
    | inl heq => exact hnot_failed (heq ▸ hfailed)
    | inr hcompleted => exact h.failed_not_completed n hfailed hcompleted
  · intro n hflight
    have hne : n ≠ task.node_id := by
      rintro rfl
      cases in_flight_iff.mp hflight with
      | inl hrunning => simp [is_fan_out_running, complete_fan_in] at hrunning
      | inr hmem => exact hnot_running hmem
    rw [in_flight_iff, hother n hne] at hflight
    obtain ⟨hcompleted, hfailed⟩ := h.in_flight_not_done n (in_flight_iff.mpr hflight)
    exact ⟨fun hmem => (Finset.mem_insert.mp hmem).elim hne hcompleted, hfailed⟩
  · intro n hmem
    by_cases hn : n = task.node_id
    · exact absurd (hn ▸ hmem) hnot_running
    · rw [hother n hn]
      exact h.one_kind n hmem
  · exact h.plain_count_instance hfind hindex

end Settle

/-- The failure path spawns each node once, and none whose fan-out is still running:
it does not check either. -/
structure FailurePathQuiet (ctx : RunContext) (s : RunState) (node_id : String) : Prop where
  nodup : (find_ready_after_failure ctx s node_id).Nodup
  not_fanning_out : ∀ target ∈ find_ready_after_failure ctx s node_id, is_fan_out_running s target = false

theorem mem_find_ready_after_failure {ctx : RunContext} {s : RunState} {node_id target : String} :
    target ∈ find_ready_after_failure ctx s node_id ↔
      (∃ edge ∈ ctx.graph.edges, edge.from_node = node_id ∧ edge.to_node = target) ∧
      target ∉ s.completed ∧ target ∉ s.failed ∧ target ∉ s.running_set ∧
      (∀ edge ∈ ctx.graph.edges, edge.to_node = target →
        edge.from_node ∈ s.completed ∨ edge.from_node ∈ s.failed) ∧
      ∃ edge ∈ ctx.graph.edges, edge.to_node = target ∧ edge.from_node ∈ s.completed := by
  unfold find_ready_after_failure
  simp only [List.mem_map, List.mem_filter, mem_build_outgoing_edges]
  constructor
  · rintro ⟨edge, ⟨⟨hedge, hfrom⟩, hcond⟩, rfl⟩
    by_cases hdone : edge.to_node ∈ s.completed ∨ edge.to_node ∈ s.failed ∨ edge.to_node ∈ s.running_set
    · simp [hdone] at hcond
    · rw [if_neg hdone] at hcond
      simp only [Bool.and_eq_true, List.all_eq_true, List.any_eq_true, mem_build_incoming_edges,
        Bool.or_eq_true, decide_eq_true_eq] at hcond
      push Not at hdone
      obtain ⟨hall, e, ⟨he, hto⟩, hsource⟩ := hcond
      exact ⟨⟨edge, hedge, hfrom, rfl⟩, hdone.1, hdone.2.1, hdone.2.2,
        fun e he hto => hall e ⟨he, hto⟩, e, he, hto, hsource⟩
  · rintro ⟨⟨edge, hedge, hfrom, rfl⟩, hcompleted, hfailed, hrunning, hall, e, he, hto, hsource⟩
    refine ⟨edge, ⟨⟨hedge, hfrom⟩, ?_⟩, rfl⟩
    simp only [hcompleted, hfailed, hrunning, or_self, if_false, Bool.and_eq_true, List.all_eq_true,
      List.any_eq_true, mem_build_incoming_edges, Bool.or_eq_true, decide_eq_true_eq]
    exact ⟨fun e he => hall e he.1 he.2, e, ⟨he, hto⟩, hsource⟩

/-- The failure path finds a node twice where two edges lead to it from the failed one. -/
theorem find_ready_nodup_iff {ctx : RunContext} {s : RunState} {failed_node : String} (hedges : ctx.graph.edges.Nodup) :
    (find_ready_after_failure ctx s failed_node).Nodup ↔
    ∀ target ∈ find_ready_after_failure ctx s failed_node, ∀ first ∈ ctx.graph.edges, ∀ second ∈ ctx.graph.edges,
      first.from_node = failed_node ∧ first.to_node = target → second.from_node = failed_node ∧ second.to_node = target →
        first = second := by
  constructor
  · intro hnodup target htarget first hfirst second hsecond hedge hedge'
    unfold find_ready_after_failure at hnodup htarget
    obtain ⟨found, hfound, hto⟩ := List.mem_map.mp htarget
    have hkept := List.of_mem_filter hfound
    -- What the filter asks of an edge depends on its target alone.
    refine List.inj_on_of_nodup_map hnodup (List.mem_filter.mpr ⟨mem_build_outgoing_edges.mpr ⟨hfirst, hedge.1⟩, ?_⟩)
      (List.mem_filter.mpr ⟨mem_build_outgoing_edges.mpr ⟨hsecond, hedge'.1⟩, ?_⟩) (hedge.2.trans hedge'.2.symm)
    · rw [hedge.2, ← hto]
      exact hkept
    · rw [hedge'.2, ← hto]
      exact hkept
  · intro hone
    have hnodup : (build_outgoing_edges ctx.graph failed_node).Nodup := by
      rw [build_outgoing_edges, file_edges_apply]
      exact hedges.filter _
    unfold find_ready_after_failure at hone ⊢
    refine (hnodup.filter _).map_on fun first hfirst second hsecond hto => ?_
    obtain ⟨hmem, hfrom⟩ := mem_build_outgoing_edges.mp (List.mem_of_mem_filter hfirst)
    obtain ⟨hmem', hfrom'⟩ := mem_build_outgoing_edges.mp (List.mem_of_mem_filter hsecond)
    exact hone first.to_node (List.mem_map_of_mem hfirst) first hmem second hmem' ⟨hfrom, rfl⟩ ⟨hfrom', hto.symm⟩

theorem Phases.proceeded_after_failure {ctx : RunContext} {s : RunState} {node_id : String}
    (h : Phases (fail_node s node_id)) (hquiet : FailurePathQuiet ctx (fail_node s node_id) node_id) :
    Phases (proceed_after_failure ctx s node_id) := by
  rw [proceed_after_failure_eq]
  apply h.spawned_all
  · rw [List.map_map]
    exact (List.map_id' _).symm ▸ hquiet.nodup
  · intro ready hready
    obtain ⟨target, htarget, rfl⟩ := List.mem_map.mp hready
    obtain ⟨_, hcompleted, hfailed, hrunning, _⟩ := mem_find_ready_after_failure.mp htarget
    constructor
    · exact in_flight_eq_false_iff.mpr ⟨hquiet.not_fanning_out target htarget, hrunning⟩
    · exact hfailed
    · exact fun hmem => absurd hmem hcompleted

/-- A step without a panic keeps the phases apart, when the failure path is quiet. -/
theorem Phases.step {ctx : RunContext} {s next : RunState} {c : Completion} (h : Phases s)
    (hcounts : CountsBounded ctx s.edge_traversal_counts) (hstep : next_state ctx s c = some next)
    (hreturned : ∃ outcome records, c.joined = .returned outcome records)
    (hfailure : ∀ task error records, s.running.find? (fun task => task.id = c.task) = some task →
      c.joined = .returned (.Failed error) records → task.fan_out_index = none →
      FailurePathQuiet ctx (fail_node (joined ctx s c task) task.node_id) task.node_id) : Phases next := by
  obtain ⟨task, hfind, hcase⟩ := next_state_cases hstep
  cases hcase with
  | plain_success hjoined hindex =>
    apply (h.completed_plain hfind hindex _).evaluated_downstream
    exact hcounts
  | plain_failure hjoined hindex =>
    exact (h.failed_node hfind hindex).proceeded_after_failure (hfailure task _ _ hfind hjoined hindex)
  | panic hjoined =>
    obtain ⟨outcome, records, heq⟩ := hreturned
    rw [heq] at hjoined
    cases hjoined
  | instance_dropped hjoined hindex hstate =>
    exact ⟨h.failed_not_completed, h.in_flight_not_done, h.one_kind, h.plain_count_instance hfind hindex⟩
  | instance_kept hjoined hindex hstate hbound hmore => exact h.kept_fan_out hstate hfind hindex hmore _
  | fan_in hjoined hindex hstate hbound hlast =>
    apply (h.completed_fan_in hstate hfind hindex hlast _).evaluated_downstream
    exact hcounts

/-- Before the loop the entry nodes run and no node is in another phase. -/
theorem Phases.initial {ctx : RunContext} (haccepted : Accepted ctx) : Phases (initial_state ctx) := by
  have hnodup := entry_nodes_nodup haccepted
  rw [initial_state_eq fun entry hentry => entry_nodes_spawnable haccepted hentry]
  constructor
  · simp
  · simp
  · simp [is_fan_out_running]
  · intro n
    have hkind : (is_plain_task_of n ∘ entry_task ctx) = (fun m => m == n) ∘ Prod.fst := by
      funext entry
      exact (Bool.and_true _).trans (beq_eq_decide _ _).symm
    rw [List.countP_map, hkind, ← List.countP_map, List.zipIdx_map_fst]
    have hcount : List.count n (entry_nodes ctx) = if n ∈ entry_nodes ctx then 1 else 0 := hnodup.count
    simpa [List.count] using hcount

end flow_engine.executor
