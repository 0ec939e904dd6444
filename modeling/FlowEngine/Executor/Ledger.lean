import FlowEngine.Executor.Runs

namespace flow_engine.executor

/-- The number of tasks of an activation. -/
def Work.width : Work → Nat
  | .plain _ => 1
  | .fan_out items => items.length

/-- The ids of all tasks ever started. -/
def task_ids (activations : List Activation) : List TaskId :=
  activations.zipIdx.flatMap fun entry => (List.range entry.1.work.width).map (TaskId.mk entry.2)

/-- A task is one of the tasks of its activation: the single one, or the instance for
the item at its position. -/
inductive Work.HasTask : Work → Task → Prop
  | plain {inputs : Value} {task : Task} (hinputs : task.inputs = inputs) (hposition : task.id.position = 0)
      (hindex : task.fan_out_index = none) : HasTask (.plain inputs) task
  | fan_out {items : List Value} {task : Task} (hitem : items[task.id.position]? = some task.inputs)
      (hindex : task.fan_out_index = some (task.id.position % 2 ^ 32)) :
      HasTask (.fan_out items) task

/-- A task was started by the activation its id names. -/
def Recorded (activations : List Activation) (task : Task) : Prop :=
  ∃ work, activations[task.id.activation]? = some ⟨task.node_id, work⟩ ∧ work.HasTask task

/-- Every task ever started is in flight or was joined, once. -/
structure Ledger (joined_ids : List TaskId) (s : RunState) : Prop where
  recorded : ∀ task ∈ s.running, Recorded s.activations task
  ids : (s.running.map Task.id ++ joined_ids).Perm (task_ids s.activations)

@[simp] theorem task_ids_nil : task_ids [] = [] := rfl

theorem task_ids_snoc (activations : List Activation) (activation : Activation) :
    task_ids (activations ++ [activation]) =
      task_ids activations ++ (List.range activation.work.width).map (TaskId.mk activations.length) := by
  simp [task_ids, List.zipIdx_append]

theorem mem_task_ids {activations : List Activation} {id : TaskId} :
    id ∈ task_ids activations ↔
      ∃ activation, activations[id.activation]? = some activation ∧ id.position < activation.work.width := by
  simp only [task_ids, List.mem_flatMap, List.mem_map, List.mem_range]
  constructor
  · rintro ⟨⟨activation, a⟩, hentry, position, hposition, rfl⟩
    exact ⟨activation, List.mem_zipIdx_iff_getElem?.mp hentry, hposition⟩
  · rintro ⟨activation, hget, hposition⟩
    exact ⟨(activation, id.activation), List.mem_zipIdx_iff_getElem?.mpr hget, id.position, hposition, rfl⟩

theorem activation_lt_of_mem_task_ids {activations : List Activation} {id : TaskId}
    (h : id ∈ task_ids activations) : id.activation < activations.length := by
  obtain ⟨activation, hget, _⟩ := mem_task_ids.mp h
  exact (List.getElem?_eq_some_iff.mp hget).1

theorem task_ids_nodup (activations : List Activation) : (task_ids activations).Nodup := by
  induction activations using List.reverseRecOn with
  | nil => exact List.nodup_nil
  | append_singleton activations activation ih =>
    rw [task_ids_snoc, List.nodup_append]
    refine ⟨ih, ?_, ?_⟩
    · apply List.nodup_range.map
      intro i j hij
      exact congrArg TaskId.position hij
    · intro id hid other hother heq
      obtain ⟨position, _, rfl⟩ := List.mem_map.mp hother
      have hlt := activation_lt_of_mem_task_ids hid
      rw [heq] at hlt
      exact Nat.lt_irrefl _ hlt

/-- Later activations do not change what a task was started by. -/
theorem Recorded.append {activations : List Activation} {task : Task} (h : Recorded activations task)
    (more : List Activation) : Recorded (activations ++ more) task := by
  obtain ⟨work, hget, hwork⟩ := h
  refine ⟨work, ?_, hwork⟩
  rw [List.getElem?_append_left (List.getElem?_eq_some_iff.mp hget).1]
  exact hget

/-- Starting the tasks of one more activation. -/
theorem Ledger.start {joined_ids : List TaskId} {s next : RunState} (h : Ledger joined_ids s)
    {activation : Activation} {tasks : List Task} (hrunning : next.running = s.running ++ tasks)
    (hactivations : next.activations = s.activations ++ [activation])
    (hids : tasks.map Task.id = (List.range activation.work.width).map (TaskId.mk s.activations.length))
    (htasks : ∀ task ∈ tasks, task.id.activation = s.activations.length ∧ task.node_id = activation.node_id ∧
      activation.work.HasTask task) : Ledger joined_ids next := by
  constructor
  · intro task htask
    rw [hrunning] at htask
    rw [hactivations]
    cases List.mem_append.mp htask with
    | inl hold => exact (h.recorded task hold).append _
    | inr hnew =>
      obtain ⟨hactivation, hnode, hwork⟩ := htasks task hnew
      refine ⟨activation.work, ?_, hwork⟩
      rw [hactivation, hnode]
      simp
  · rw [hrunning, hactivations, task_ids_snoc, List.map_append, hids]
    generalize (List.range activation.work.width).map (TaskId.mk s.activations.length) = new
    calc (s.running.map Task.id ++ new) ++ joined_ids
        = s.running.map Task.id ++ (new ++ joined_ids) := List.append_assoc _ _ _
      _ |>.Perm (s.running.map Task.id ++ (joined_ids ++ new)) := List.perm_append_comm.append_left _
      _ = (s.running.map Task.id ++ joined_ids) ++ new := (List.append_assoc _ _ _).symm
      _ |>.Perm (task_ids s.activations ++ new) := h.ids.append_right _

theorem Ledger.spawned {ctx : RunContext} {joined_ids : List TaskId} {s : RunState} {ready : ReadyNode}
    (h : Ledger joined_ids s) (hspawnable : spawnable ctx ready.node_id = true) :
    Ledger joined_ids (spawn_ready_node ctx s ready) := by
  cases hitems : ready.fan_out_items with
  | none =>
    rw [spawn_ready_node_plain ctx s hitems, spawn_plain_eq, if_pos hspawnable]
    refine h.start rfl rfl rfl ?_
    intro task htask
    rw [List.mem_singleton.mp htask]
    exact ⟨rfl, rfl, .plain rfl rfl rfl⟩
  | some items =>
    rw [spawn_ready_node_fan_out ctx s hitems, spawn_fan_out_eq, if_pos hspawnable]
    refine h.start rfl rfl ?_ ?_
    · calc (instance_tasks (reopen s ready) ready.node_id items).map Task.id
          = (items.zipIdx.map Prod.snd).map (TaskId.mk s.activations.length) := by
            simp only [instance_tasks, List.map_map]
            rfl
        _ = (List.range items.length).map (TaskId.mk s.activations.length) := by
            rw [List.zipIdx_map_snd, List.range_eq_range']
    · intro task htask
      obtain ⟨⟨item, position⟩, hitem, rfl⟩ := List.mem_map.mp htask
      exact ⟨rfl, rfl, .fan_out (List.mem_zipIdx_iff_getElem?.mp hitem) rfl⟩

theorem Ledger.spawned_all {ctx : RunContext} {joined_ids : List TaskId} {s : RunState} {nodes : List ReadyNode}
    (h : Ledger joined_ids s) (hspawnable : ∀ ready ∈ nodes, spawnable ctx ready.node_id = true) :
    Ledger joined_ids (spawn_ready_nodes ctx nodes s) := by
  induction nodes generalizing s with
  | nil => exact h
  | cons ready rest ih =>
    exact ih (h.spawned (hspawnable ready (by simp))) fun r hr => hspawnable r (List.mem_cons_of_mem _ hr)

/-- A joined task moves from the tasks in flight to the joined ones. -/
theorem Ledger.joined {ctx : RunContext} {joined_ids : List TaskId} {s : RunState} {c : Completion} {task : Task}
    (h : Ledger joined_ids s) (hfind : s.running.find? (fun task => task.id = c.task) = some task) :
    Ledger (joined_ids ++ [c.task]) (joined ctx s c task) := by
  have hid : task.id = c.task := by simpa using List.find?_some hfind
  constructor
  · exact fun other hother => h.recorded other (List.mem_of_mem_eraseP hother)
  · have hperm := (running_perm hfind).map Task.id
    rw [List.map_cons, hid] at hperm
    rw [joined_running, joined_activations]
    generalize (s.running.eraseP fun task => task.id = c.task).map Task.id = left at hperm ⊢
    calc left ++ (joined_ids ++ [c.task])
        = (left ++ joined_ids) ++ [c.task] := (List.append_assoc _ _ _).symm
      _ |>.Perm (c.task :: (left ++ joined_ids)) := List.perm_append_singleton _ _
      _ |>.Perm (s.running.map Task.id ++ joined_ids) := hperm.symm.append_right _
      _ |>.Perm (task_ids s.activations) := h.ids

/-- The targets of edges can be spawned. -/
theorem Accepted.target_spawnable {ctx : RunContext} (haccepted : Accepted ctx) {edge : Edge}
    (hedge : edge ∈ ctx.graph.edges) : executor.spawnable ctx edge.to_node = true :=
  haccepted.spawnable (haccepted.valid.to_node_mem edge hedge)

theorem ready_nodes_spawnable {ctx : RunContext} (haccepted : Accepted ctx) (s : RunState) (node_id : String)
    (outputs : Value) (from_fan_in : Bool) :
    ∀ ready ∈ (starting_edges ctx s node_id outputs).map (ready_node s outputs from_fan_in),
      spawnable ctx ready.node_id = true := by
  intro ready hready
  obtain ⟨edge, hedge, rfl⟩ := List.mem_map.mp hready
  exact haccepted.target_spawnable (mem_starting_edges hedge).1

theorem failure_nodes_spawnable {ctx : RunContext} (haccepted : Accepted ctx) (s : RunState) (node_id : String) :
    ∀ ready ∈ (find_ready_after_failure ctx s node_id).map fun target => (⟨target, none, false⟩ : ReadyNode),
      spawnable ctx ready.node_id = true := by
  intro ready hready
  obtain ⟨target, htarget, rfl⟩ := List.mem_map.mp hready
  obtain ⟨edge, hedge, rfl⟩ := List.mem_map.mp htarget
  exact haccepted.target_spawnable (mem_build_outgoing_edges.mp (List.mem_of_mem_filter hedge)).1

/-- A step keeps the ledger, whatever the joined task did. -/
theorem Ledger.step {ctx : RunContext} (haccepted : Accepted ctx) {joined_ids : List TaskId} {s next : RunState}
    {c : Completion} (h : Ledger joined_ids s) (hcounts : CountsBounded ctx s.edge_traversal_counts)
    (hstep : next_state ctx s c = some next) : Ledger (joined_ids ++ [c.task]) next := by
  obtain ⟨task, hfind, hcase⟩ := next_state_cases hstep
  have hjoined : Ledger (joined_ids ++ [c.task]) (executor.joined ctx s c task) := h.joined hfind
  have hdownstream : ∀ s' : RunState, s'.running = (executor.joined ctx s c task).running →
      s'.activations = s.activations → s'.edge_traversal_counts = s.edge_traversal_counts →
      ∀ node_id outputs from_fan_in,
        Ledger (joined_ids ++ [c.task]) (evaluate_downstream ctx s' node_id outputs from_fan_in) := by
    intro s' hrunning hactivations hsame node_id outputs from_fan_in
    rw [evaluate_downstream_eq (hsame ▸ hcounts)]
    apply Ledger.spawned_all
    · exact ⟨by simpa [hrunning, hactivations] using hjoined.recorded,
        by simpa [hrunning, hactivations] using hjoined.ids⟩
    · exact ready_nodes_spawnable haccepted s' node_id outputs from_fan_in
  have hfailure : ∀ node_id,
      Ledger (joined_ids ++ [c.task]) (proceed_after_failure ctx (executor.joined ctx s c task) node_id) := by
    intro node_id
    rw [proceed_after_failure_eq]
    apply Ledger.spawned_all
    · exact ⟨hjoined.recorded, hjoined.ids⟩
    · exact failure_nodes_spawnable haccepted _ node_id
  cases hcase with
  | plain_success _ _ => apply hdownstream <;> rfl
  | plain_failure _ _ => exact hfailure _
  | panic _ => exact hfailure _
  | instance_dropped _ _ _ => exact hjoined
  | instance_kept _ _ _ _ _ => exact ⟨hjoined.recorded, hjoined.ids⟩
  | fan_in _ _ _ _ _ => apply hdownstream <;> rfl

/-- Before the loop the entry tasks are in flight. -/
theorem Ledger.initial {ctx : RunContext} (haccepted : Accepted ctx) : Ledger [] (initial_state ctx) := by
  rw [initial_state_eq fun entry hentry => entry_nodes_spawnable haccepted hentry]
  constructor
  · intro task htask
    obtain ⟨⟨entry, a⟩, hentry, rfl⟩ := List.mem_map.mp htask
    refine ⟨.plain ctx.inputs, ?_, .plain rfl rfl rfl⟩
    simp [entry_task, List.mem_zipIdx_iff_getElem?.mp hentry]
  · have hids : ((entry_nodes ctx).zipIdx.map (entry_task ctx)).map Task.id =
        task_ids ((entry_nodes ctx).map fun entry => ⟨entry, .plain ctx.inputs⟩) := by
      rw [List.map_map, task_ids, List.zipIdx_map, List.flatMap_map]
      exact List.map_eq_flatMap
    rw [List.append_nil, hids]

/-- In every reached state the tasks in flight and the joined ones are exactly those
started. -/
theorem run_ledger {ctx : RunContext} (haccepted : Accepted ctx) {allowed : RunState → Completion → Prop}
    {cs : List Completion} {s : RunState}
    (hrun : transition.Run (next_state ctx) allowed (initial_state ctx) cs s) :
    Ledger (cs.map Completion.task) s := by
  refine hrun.invariant (P := fun cs s => Ledger (cs.map Completion.task) s) (Ledger.initial haccepted) ?_
  intro cs s c next hreached hledger _ hstep
  rw [List.map_append]
  exact hledger.step haccepted (run_countsBounded hreached) hstep

theorem Ledger.joined_ids_nodup {joined_ids : List TaskId} {s : RunState} (h : Ledger joined_ids s) :
    (s.running.map Task.id ++ joined_ids).Nodup :=
  h.ids.nodup_iff.mpr (task_ids_nodup s.activations)

/-- A task in flight was not joined before. -/
theorem Ledger.not_joined {joined_ids : List TaskId} {s : RunState} (h : Ledger joined_ids s) {task : Task}
    (hmem : task ∈ s.running) : task.id ∉ joined_ids := by
  intro hjoined
  have hdisjoint := (List.nodup_append.mp h.joined_ids_nodup).2.2
  exact hdisjoint task.id (List.mem_map_of_mem hmem) task.id hjoined rfl

theorem Ledger.joined_lt {joined_ids : List TaskId} {s : RunState} (h : Ledger joined_ids s) {id : TaskId}
    (hmem : id ∈ joined_ids) : id.activation < s.activations.length :=
  activation_lt_of_mem_task_ids (h.ids.mem_iff.mp (List.mem_append_right _ hmem))

/-- The task with an id in flight is unique. -/
theorem Ledger.find_eq {joined_ids : List TaskId} {s : RunState} (h : Ledger joined_ids s) {task : Task}
    (hmem : task ∈ s.running) : s.running.find? (fun other => other.id = task.id) = some task := by
  have hnodup := (List.nodup_append.mp h.joined_ids_nodup).1
  cases hfind : s.running.find? fun other => other.id = task.id with
  | none =>
    have hnot := List.find?_eq_none.mp hfind task hmem
    simp at hnot
  | some found =>
    have hid : found.id = task.id := by simpa using List.find?_some hfind
    exact congrArg some (List.inj_on_of_nodup_map hnodup (List.mem_of_find?_eq_some hfind) hmem hid)

end flow_engine.executor
