import FlowEngine.Executor.Bookkeeping
import FlowEngine.Executor.Ends

namespace flow_engine.executor

/-- The task's handler succeeds. -/
def TaskSucceeds (_task : Task) (outcome : NodeOutcome) : Prop := ∃ outputs, outcome = .Success outputs

/-- The nodes started so far, in the order of their activations. -/
def started (s : RunState) : List String := s.activations.map Activation.node_id

/-- The fan-out waits for instances that are in flight. Its count of them is a `u32`: it
is zero for an array whose length is a multiple of 2^32, and no such fan-out ends. -/
structure AwaitsInstances (s : RunState) (node_id : String) (state : FanOutState) : Prop where
  slots : state.results.length = state.expected
  enough : state.expected ≤ s.running.countP (is_instance_of node_id) + state.completed
  unfinished : state.completed < state.expected ∨
    state.expected = 0 ∧ 0 < s.running.countP (is_instance_of node_id)

/-- Where no task fails, a started node has completed or waits for a task in flight. -/
structure Tracked (ctx : RunContext) (s : RunState) : Prop where
  failed_empty : s.failed = ∅
  started_nodes : ∀ n ∈ started s, n ∈ ctx.graph.nodes.map NodeInstance.instance_id
  completed_started : ∀ n ∈ s.completed, n ∈ started s
  started_tracked : ∀ n ∈ started s, n ∈ s.completed ∨ n ∈ s.running_set ∨ s.fan_out_states n ≠ none
  fan_outs : ∀ n state, s.fan_out_states n = some state → AwaitsInstances s n state

/-- The joined task did not panic, or it is the single task of a node with the id that the
loop puts in the place of a panicked task's. -/
def PanicsNamed (s : RunState) (c : Completion) : Prop :=
  ∀ error, c.joined = .panicked error → ∀ task, s.running.find? (fun task => task.id = c.task) = some task →
    task.fan_out_index = none ∧ task.node_id = "unknown"

/-- A started node has ended or waits for a task in flight, and a failed one is among the
nodes that ended so. -/
structure Settling (ctx : RunContext) (ends : List (String × NodeEnd)) (s : RunState) : Prop where
  started_nodes : ∀ n ∈ started s, n ∈ ctx.graph.nodes.map NodeInstance.instance_id
  completed_started : ∀ n ∈ s.completed, n ∈ started s
  failed_ended : ∀ n ∈ s.failed, n ∈ started s ∧ (n, .failed) ∈ ends
  plain_running : ∀ n ∈ s.running_set, ∃ task ∈ s.running, task.node_id = n ∧ task.fan_out_index = none
  started_settling : ∀ n ∈ started s, n ∈ s.completed ∨ n ∈ s.failed ∨ n ∈ s.running_set ∨ s.fan_out_states n ≠ none
  fan_outs : ∀ n state, s.fan_out_states n = some state → AwaitsInstances s n state

theorem spawnable_mem_nodes {ctx : RunContext} {node_id : String} (h : spawnable ctx node_id = true) :
    node_id ∈ ctx.graph.nodes.map NodeInstance.instance_id := by
  unfold spawnable at h
  split at h
  · cases h
  · rename_i node hfind
    have hid : node.instance_id = node_id := by simpa using List.find?_some hfind
    exact hid ▸ List.mem_map_of_mem (List.mem_of_find?_eq_some hfind)

theorem mem_started_of_recorded {s : RunState} {task : Task} (h : Recorded s.activations task) :
    task.node_id ∈ started s := by
  obtain ⟨work, hget, _⟩ := h
  exact List.mem_map.mpr ⟨_, List.mem_of_getElem? hget, rfl⟩

/-- What a fan-out waits for depends on the instances of its node only. -/
theorem AwaitsInstances.congr {s s' : RunState} {n : String} {state : FanOutState} (h : AwaitsInstances s n state)
    (hcount : s'.running.countP (is_instance_of n) = s.running.countP (is_instance_of n)) :
    AwaitsInstances s' n state := by
  constructor
  · exact h.slots
  · rw [hcount]
    exact h.enough
  · rw [hcount]
    exact h.unfinished

/-- A new fan-out waits for its instances. -/
theorem AwaitsInstances.fresh {s : RunState} {n : String} {items : List Value} (hne : items ≠ [])
    (hcount : items.length ≤ s.running.countP (is_instance_of n)) : AwaitsInstances s n (fresh_fan_out items) := by
  have hpositive : 0 < items.length := List.length_pos_of_ne_nil hne
  have hmod : items.length % 2 ^ 32 ≤ items.length := Nat.mod_le _ _
  constructor
  · simp [fresh_fan_out]
  · simp only [fresh_fan_out]
    omega
  · simp only [fresh_fan_out]
    omega

theorem started_spawn_ready_node {ctx : RunContext} {s : RunState} {ready : ReadyNode}
    (hspawnable : spawnable ctx ready.node_id = true) :
    started (spawn_ready_node ctx s ready) = started s ++ [ready.node_id] := by
  cases hitems : ready.fan_out_items with
  | none =>
    rw [spawn_ready_node_plain ctx s hitems, spawn_plain_eq, if_pos hspawnable]
    simp [started]
  | some items =>
    rw [spawn_ready_node_fan_out ctx s hitems, spawn_fan_out_eq]
    simp [started]

/-- A spawned node is running or fanning out. -/
theorem spawned_in_phase {ctx : RunContext} {s : RunState} {ready : ReadyNode}
    (hspawnable : spawnable ctx ready.node_id = true) :
    ready.node_id ∈ (spawn_ready_node ctx s ready).running_set ∨
      (spawn_ready_node ctx s ready).fan_out_states ready.node_id ≠ none := by
  cases hitems : ready.fan_out_items with
  | none =>
    rw [spawn_ready_node_plain ctx s hitems, spawn_plain_eq, if_pos hspawnable]
    simp
  | some items =>
    rw [spawn_ready_node_fan_out ctx s hitems, spawn_fan_out_eq]
    simp

/-- Spawning a node leaves every fan-out with instances to wait for. -/
theorem AwaitsInstances.spawned {ctx : RunContext} {s : RunState} {ready : ReadyNode}
    (h : ∀ n state, s.fan_out_states n = some state → AwaitsInstances s n state)
    (hspawnable : spawnable ctx ready.node_id = true) (hitems : ready.fan_out_items ≠ some [])
    (n : String) (state : FanOutState) (hstate : (spawn_ready_node ctx s ready).fan_out_states n = some state) :
    AwaitsInstances (spawn_ready_node ctx s ready) n state := by
  cases hready : ready.fan_out_items with
  | none =>
    rw [spawn_ready_node_plain ctx s hready, spawn_plain_fan_out_states, reopen_fan_out_states] at hstate
    apply (h n state hstate).congr
    rw [spawn_ready_node_plain ctx s hready, spawn_plain_eq, if_pos hspawnable]
    rw [List.countP_append, List.countP_singleton, is_instance_of_plain_task]
    rfl
  | some items =>
    have hne : items ≠ [] := fun heq => hitems (heq ▸ hready)
    rw [spawn_ready_node_fan_out ctx s hready, spawn_fan_out_eq, if_pos hspawnable] at hstate ⊢
    by_cases hn : n = ready.node_id
    · subst hn
      simp only [Function.update_self, Option.some.injEq] at hstate
      subst hstate
      apply AwaitsInstances.fresh hne
      rw [List.countP_append, countP_instance_tasks]
      omega
    · have hsame : s.fan_out_states n = some state := by simpa [hn] using hstate
      apply (h n state hsame).congr
      rw [List.countP_append, countP_instance_tasks_other _ _ _ hn]
      rfl

/-- Spawning a node marks it as running only with a task of its own. -/
theorem spawned_plain_running {ctx : RunContext} {s : RunState} {ready : ReadyNode}
    (hspawnable : spawnable ctx ready.node_id = true)
    (h : ∀ n ∈ s.running_set, ∃ task ∈ s.running, task.node_id = n ∧ task.fan_out_index = none) :
    ∀ n ∈ (spawn_ready_node ctx s ready).running_set,
      ∃ task ∈ (spawn_ready_node ctx s ready).running, task.node_id = n ∧ task.fan_out_index = none := by
  intro n hn
  cases hitems : ready.fan_out_items with
  | none =>
    rw [spawn_ready_node_plain ctx s hitems, spawn_plain_eq, if_pos hspawnable] at hn ⊢
    cases Finset.mem_insert.mp hn with
    | inl heq => exact ⟨_, List.mem_append_right _ (List.mem_singleton_self _), heq.symm, rfl⟩
    | inr hold =>
      obtain ⟨task, htask, hkind⟩ := h n hold
      exact ⟨task, List.mem_append_left _ htask, hkind⟩
  | some items =>
    rw [spawn_ready_node_fan_out ctx s hitems, spawn_fan_out_eq, if_pos hspawnable] at hn ⊢
    obtain ⟨task, htask, hkind⟩ := h n hn
    exact ⟨task, List.mem_append_left _ htask, hkind⟩

section Spawn

variable {ctx : RunContext} {ends : List (String × NodeEnd)} {s : RunState}

theorem Settling.spawned {ready : ReadyNode} (h : Settling ctx ends s)
    (hspawnable : spawnable ctx ready.node_id = true) (hitems : ready.fan_out_items ≠ some []) :
    Settling ctx ends (spawn_ready_node ctx s ready) := by
  have hstarted := started_spawn_ready_node (s := s) hspawnable
  constructor
  · intro n hn
    rw [hstarted, List.mem_append, List.mem_singleton] at hn
    rcases hn with hn | rfl
    · exact h.started_nodes n hn
    · exact spawnable_mem_nodes hspawnable
  · intro n hn
    rw [spawn_ready_node_completed] at hn
    rw [hstarted]
    exact List.mem_append_left _ (h.completed_started n (reopen_completed_subset s ready hn))
  · intro n hn
    rw [spawn_ready_node_failed] at hn
    obtain ⟨hbefore, hended⟩ := h.failed_ended n hn
    rw [hstarted]
    exact ⟨List.mem_append_left _ hbefore, hended⟩
  · exact spawned_plain_running hspawnable h.plain_running
  · intro n hn
    by_cases hready : n = ready.node_id
    · subst hready
      exact Or.inr (Or.inr (spawned_in_phase hspawnable))
    · rw [hstarted, List.mem_append, List.mem_singleton] at hn
      obtain ⟨hcompleted, hrunning, hfan⟩ := spawn_ready_node_other ctx s ready hready
      rw [hcompleted, hrunning, hfan, spawn_ready_node_failed]
      exact h.started_settling n (hn.resolve_right hready)
  · exact AwaitsInstances.spawned h.fan_outs hspawnable hitems

theorem Settling.spawned_all {nodes : List ReadyNode} (h : Settling ctx ends s)
    (hready : ∀ ready ∈ nodes, spawnable ctx ready.node_id = true ∧ ready.fan_out_items ≠ some []) :
    Settling ctx ends (spawn_ready_nodes ctx nodes s) := by
  induction nodes generalizing s with
  | nil => exact h
  | cons ready rest ih =>
    obtain ⟨hspawnable, hitems⟩ := hready ready List.mem_cons_self
    exact ih (h.spawned hspawnable hitems) fun r hr => hready r (List.mem_cons_of_mem _ hr)

theorem Settling.evaluated_downstream (haccepted : Accepted ctx) (h : Settling ctx ends s)
    (hcounts : CountsBounded ctx s.edge_traversal_counts) (node_id : String) (outputs : Value)
    (from_fan_in : Bool) : Settling ctx ends (evaluate_downstream ctx s node_id outputs from_fan_in) := by
  rw [evaluate_downstream_eq hcounts]
  apply Settling.spawned_all
  · exact ⟨h.started_nodes, h.completed_started, h.failed_ended, h.plain_running, h.started_settling,
      fun n state hstate => (h.fan_outs n state hstate).congr rfl⟩
  · intro ready hready
    refine ⟨ready_nodes_spawnable haccepted s node_id outputs from_fan_in ready hready, ?_⟩
    obtain ⟨edge, _, rfl⟩ := List.mem_map.mp hready
    intro hitems
    exact (fan_out_items_eq_some hitems).2.1 rfl

/-- Further ends change nothing. -/
theorem Settling.more_ends (h : Settling ctx ends s) (more : List (String × NodeEnd)) :
    Settling ctx (ends ++ more) s :=
  { h with failed_ended := fun n hn => ⟨(h.failed_ended n hn).1, List.mem_append_left _ (h.failed_ended n hn).2⟩ }

end Spawn

section Settle

variable {ctx : RunContext} {ends : List (String × NodeEnd)} {s : RunState} {c : Completion} {task : Task}
  (hfind : s.running.find? (fun task => task.id = c.task) = some task)
include hfind

/-- Joining a task takes no instance from other fan-outs. -/
theorem countP_joined_other {n : String} (hkind : is_instance_of n task = false) :
    (s.running.eraseP fun task => task.id = c.task).countP (is_instance_of n) =
      s.running.countP (is_instance_of n) := by
  have hcount := countP_eraseP hfind (is_instance_of n)
  rw [if_neg (by simp [hkind])] at hcount
  exact hcount.symm

/-- The other tasks stay in flight. -/
theorem plain_running_joined {n : String} (hkind : task.node_id = n → task.fan_out_index ≠ none)
    (h : ∃ task ∈ s.running, task.node_id = n ∧ task.fan_out_index = none) :
    ∃ task ∈ s.running.eraseP (fun task => task.id = c.task), task.node_id = n ∧ task.fan_out_index = none := by
  obtain ⟨other, hother, hnode, hplain⟩ := h
  refine ⟨other, ?_, hnode, hplain⟩
  cases List.mem_cons.mp ((running_perm hfind).subset hother) with
  | inl heq => exact absurd (heq ▸ hplain) (hkind (heq ▸ hnode))
  | inr hmem => exact hmem

omit hfind in
/-- One more node that has started has completed. -/
theorem Settling.insert_completed (h : Settling ctx ends s) (hrecorded : Recorded s.activations task) {n : String}
    (hn : n ∈ insert task.node_id s.completed) : n ∈ started s := by
  cases Finset.mem_insert.mp hn with
  | inl heq => exact heq ▸ mem_started_of_recorded hrecorded
  | inr hcompleted => exact h.completed_started n hcompleted

/-- The other plain nodes that run keep their tasks. -/
theorem Settling.erase_running (h : Settling ctx ends s) {n : String} (hn : n ∈ s.running_set.erase task.node_id) :
    ∃ task ∈ s.running.eraseP (fun task => task.id = c.task), task.node_id = n ∧ task.fan_out_index = none := by
  obtain ⟨hne, hrunning⟩ := Finset.mem_erase.mp hn
  exact plain_running_joined hfind (fun heq => absurd heq.symm hne) (h.plain_running n hrunning)

/-- No fan-out waits for a plain task. -/
theorem Settling.plain_fan_outs (h : Settling ctx ends s) (hindex : task.fan_out_index = none) {after : RunState}
    (hrunning : after.running = s.running.eraseP fun task => task.id = c.task) {n : String} {state : FanOutState}
    (hstate : s.fan_out_states n = some state) : AwaitsInstances after n state := by
  apply (h.fan_outs n state hstate).congr
  rw [hrunning]
  exact countP_joined_other hfind (by simp [is_instance_of, hindex])

theorem Settling.completed_plain (h : Settling ctx ends s) (hrecorded : Recorded s.activations task)
    (hindex : task.fan_out_index = none) (outputs : Value) :
    Settling ctx ends (complete_plain (joined ctx s c task) task.node_id outputs) := by
  constructor
  · exact h.started_nodes
  · exact fun n hn => h.insert_completed hrecorded hn
  · exact h.failed_ended
  · exact fun n hn => h.erase_running hfind hn
  · intro n hn
    by_cases heq : n = task.node_id
    · exact Or.inl (heq ▸ Finset.mem_insert_self _ _)
    · rcases h.started_settling n hn with hcompleted | hfailed | hrunning | hfan
      · exact Or.inl (Finset.mem_insert_of_mem hcompleted)
      · exact Or.inr (Or.inl hfailed)
      · exact Or.inr (Or.inr (Or.inl (Finset.mem_erase.mpr ⟨heq, hrunning⟩)))
      · exact Or.inr (Or.inr (Or.inr hfan))
  · exact fun n state hstate => h.plain_fan_outs hfind hindex rfl hstate

/-- A failed node is settled, and so are the targets that can still proceed. -/
theorem Settling.failed (haccepted : Accepted ctx) (h : Settling ctx ends s) (hrecorded : Recorded s.activations task)
    (hindex : task.fan_out_index = none) :
    Settling ctx (ends ++ [(task.node_id, .failed)]) (proceed_after_failure ctx (joined ctx s c task) task.node_id) := by
  rw [proceed_after_failure_eq]
  apply Settling.spawned_all
  · constructor
    · exact h.started_nodes
    · exact h.completed_started
    · intro n hn
      cases Finset.mem_insert.mp hn with
      | inl heq => exact ⟨heq ▸ mem_started_of_recorded hrecorded, by simp [heq]⟩
      | inr hfailed => exact (h.more_ends _).failed_ended n hfailed
    · exact fun n hn => h.erase_running hfind hn
    · intro n hn
      by_cases heq : n = task.node_id
      · exact Or.inr (Or.inl (heq ▸ Finset.mem_insert_self _ _))
      · rcases h.started_settling n hn with hcompleted | hfailed | hrunning | hfan
        · exact Or.inl hcompleted
        · exact Or.inr (Or.inl (Finset.mem_insert_of_mem hfailed))
        · exact Or.inr (Or.inr (Or.inl (Finset.mem_erase.mpr ⟨heq, hrunning⟩)))
        · exact Or.inr (Or.inr (Or.inr hfan))
    · exact fun n state hstate => h.plain_fan_outs hfind hindex rfl hstate
  · intro ready hready
    refine ⟨failure_nodes_spawnable haccepted _ _ ready hready, ?_⟩
    obtain ⟨target, _, rfl⟩ := List.mem_map.mp hready
    simp

theorem Settling.closed (h : Settling ctx ends s) (hrecorded : Recorded s.activations task)
    (hindex : task.fan_out_index ≠ none) (filled : FanOutState) :
    Settling ctx ends (complete_fan_in (joined ctx s c task) task.node_id filled) := by
  constructor
  · exact h.started_nodes
  · exact fun n hn => h.insert_completed hrecorded hn
  · exact h.failed_ended
  · exact fun n hn => plain_running_joined hfind (fun _ => hindex) (h.plain_running n hn)
  · intro n hn
    by_cases heq : n = task.node_id
    · exact Or.inl (heq ▸ Finset.mem_insert_self _ _)
    · rcases h.started_settling n hn with hcompleted | hfailed | hrunning | hfan
      · exact Or.inl (Finset.mem_insert_of_mem hcompleted)
      · exact Or.inr (Or.inl hfailed)
      · exact Or.inr (Or.inr (Or.inl hrunning))
      · exact Or.inr (Or.inr (Or.inr (by simpa [complete_fan_in, heq] using hfan)))
  · intro n other hother
    by_cases heq : n = task.node_id
    · subst heq
      simp [complete_fan_in] at hother
    · have hsame : s.fan_out_states n = some other := by simpa [complete_fan_in, heq] using hother
      apply (h.fan_outs n other hsame).congr
      exact countP_joined_other hfind (by simp [is_instance_of, Ne.symm heq])

/-- An instance of a fan-out that has ended is dropped. -/
theorem Settling.dropped (h : Settling ctx ends s) (hindex : task.fan_out_index ≠ none)
    (hstate : s.fan_out_states task.node_id = none) : Settling ctx ends (joined ctx s c task) := by
  refine ⟨h.started_nodes, h.completed_started, h.failed_ended,
    fun n hn => plain_running_joined hfind (fun _ => hindex) (h.plain_running n hn), h.started_settling, ?_⟩
  intro n state hsome
  apply (h.fan_outs n state hsome).congr
  apply countP_joined_other hfind
  have hne : ¬ task.node_id = n := by
    intro heq
    rw [joined_fan_out_states, ← heq, hstate] at hsome
    cases hsome
  simp [is_instance_of, hne]

variable {index : Nat} {state : FanOutState} (hindex : task.fan_out_index = some index)
  (hstate : s.fan_out_states task.node_id = some state)
include hindex hstate

theorem Settling.kept (h : Settling ctx ends s) (hbound : index < state.results.length)
    (hmore : state.completed + 1 ≠ state.expected) (outcome : NodeOutcome) :
    Settling ctx ends (keep_fan_out (joined ctx s c task) task.node_id (fill_slot state index outcome)) := by
  constructor
  · exact h.started_nodes
  · exact h.completed_started
  · exact h.failed_ended
  · exact fun n hn => plain_running_joined hfind (fun _ => by simp [hindex]) (h.plain_running n hn)
  · intro n hn
    by_cases heq : n = task.node_id
    · subst heq
      simp [keep_fan_out]
    · rcases h.started_settling n hn with hcompleted | hfailed | hrunning | hfan
      · exact Or.inl hcompleted
      · exact Or.inr (Or.inl hfailed)
      · exact Or.inr (Or.inr (Or.inl hrunning))
      · exact Or.inr (Or.inr (Or.inr (by simpa [keep_fan_out, heq] using hfan)))
  · intro n other hother
    by_cases heq : n = task.node_id
    · subst heq
      simp only [keep_fan_out, Function.update_self, Option.some.injEq] at hother
      subst hother
      obtain ⟨hslots, henough, hunfinished⟩ := h.fan_outs _ state hstate
      have hcount := countP_eraseP hfind (is_instance_of task.node_id)
      rw [if_pos (by simp [is_instance_of, hindex])] at hcount
      constructor
      · simpa [fill_slot] using hslots
      · simp only [fill_slot, keep_fan_out, joined_running]
        omega
      · simp only [fill_slot, keep_fan_out, joined_running]
        omega
    · have hsame : s.fan_out_states n = some other := by simpa [keep_fan_out, heq] using hother
      apply (h.fan_outs n other hsame).congr
      exact countP_joined_other hfind (by simp [is_instance_of, Ne.symm heq])

end Settle

theorem Settling.step {ctx : RunContext} (haccepted : Accepted ctx) {ends : List (String × NodeEnd)}
    {joined_ids : List TaskId} {s next : RunState} {c : Completion} (h : Settling ctx ends s)
    (hledger : Ledger joined_ids s) (hcounts : CountsBounded ctx s.edge_traversal_counts) (hallowed : PanicsNamed s c)
    (hstep : next_state ctx s c = some next) : Settling ctx (ends ++ (settled_end ctx s c).toList) next := by
  obtain ⟨task, hfind, hcase⟩ := next_state_cases hstep
  have hrecorded := hledger.recorded task (List.mem_of_find?_eq_some hfind)
  cases hcase with
  | plain_success hjoined hindex =>
    apply Settling.evaluated_downstream haccepted
    · exact (h.completed_plain hfind hrecorded hindex _).more_ends _
    · exact hcounts
  | plain_failure hjoined hindex =>
    rw [settled_end_plain_failure hfind hjoined hindex]
    exact h.failed hfind haccepted hrecorded hindex
  | panic hjoined =>
    obtain ⟨hindex, hnode⟩ := hallowed _ hjoined task hfind
    rw [settled_end_panic hfind hjoined, if_pos hindex]
    exact hnode ▸ h.failed hfind haccepted hrecorded hindex
  | instance_dropped hjoined hindex hstate => exact (h.dropped hfind (by simp [hindex]) hstate).more_ends _
  | instance_kept hjoined hindex hstate hbound hmore => exact (h.kept hfind hindex hstate hbound hmore _).more_ends _
  | fan_in hjoined hindex hstate hbound hlast =>
    apply Settling.evaluated_downstream haccepted
    · exact (h.closed hfind hrecorded (by simp [hindex]) _).more_ends _
    · exact hcounts

theorem Settling.initial {ctx : RunContext} (haccepted : Accepted ctx) : Settling ctx [] (initial_state ctx) := by
  rw [initial_state_eq fun entry hentry => entry_nodes_spawnable haccepted hentry]
  constructor
  · intro n hn
    have hentry : n ∈ entry_nodes ctx := by simpa [started] using hn
    exact (mem_entry_nodes.mp hentry).1
  · simp
  · simp
  · intro n hn
    obtain ⟨i, hi⟩ := List.mem_iff_getElem?.mp (List.mem_toFinset.mp hn)
    exact ⟨_, List.mem_map_of_mem (List.mk_mem_zipIdx_iff_getElem?.mpr hi), rfl, rfl⟩
  · intro n hn
    have hentry : n ∈ entry_nodes ctx := by simpa [started] using hn
    exact Or.inr (Or.inr (Or.inl (List.mem_toFinset.mpr hentry)))
  · intro n state hstate
    cases hstate

theorem run_settling {ctx : RunContext} (haccepted : Accepted ctx) {cs : List Completion} {s : RunState}
    (hrun : transition.Run (next_state ctx) PanicsNamed (initial_state ctx) cs s) :
    Settling ctx (node_ends ctx cs) s := by
  refine hrun.invariant (P := fun cs s => Settling ctx (node_ends ctx cs) s) (Settling.initial haccepted) ?_
  intro cs s c next hreached h hallowed hstep
  rw [node_ends_snoc hreached]
  exact h.step haccepted (run_ledger haccepted hreached) (run_countsBounded hreached) hallowed hstep

/-- Succeeding tasks do not panic. -/
theorem panicsNamed_of_success {s : RunState} {c : Completion} (h : Finishes TaskSucceeds s c) : PanicsNamed s c := by
  obtain ⟨_, _, _, _, hreturned, _⟩ := h
  intro error hjoined
  rw [hreturned] at hjoined
  cases hjoined

/-- Where every task succeeds no node ends failed. -/
theorem failed_not_mem_node_ends {ctx : RunContext} {cs : List Completion} {s : RunState}
    (hrun : RunOf ctx TaskSucceeds cs s) (n : String) : (n, .failed) ∉ node_ends ctx cs := by
  refine hrun.invariant (P := fun cs _ => (n, .failed) ∉ node_ends ctx cs) (by simp [node_ends, transition.trace]) ?_
  intro cs s c next hreached h hallowed hstep
  obtain ⟨_, _, outcome, records, hreturned, outputs, rfl⟩ := hallowed
  rw [node_ends_snoc hreached, List.mem_append, not_or]
  refine ⟨h, ?_⟩
  obtain ⟨task, hfind, hcase⟩ := next_state_cases hstep
  cases hcase with
  | plain_success hjoined hindex => simp [settled_end_plain_success hfind hjoined hindex]
  | plain_failure hjoined hindex => cases hreturned.symm.trans hjoined
  | panic hjoined => cases hreturned.symm.trans hjoined
  | instance_dropped hjoined hindex hstate => simp [settled_end_dropped hfind hjoined hindex hstate]
  | instance_kept hjoined hindex hstate hbound hmore =>
    simp [settled_end_kept hfind hjoined hindex hstate hbound hmore]
  | fan_in hjoined hindex hstate hbound hlast => simp [settled_end_fan_in hfind hjoined hindex hstate hbound hlast]

theorem run_tracked {ctx : RunContext} (haccepted : Accepted ctx) {cs : List Completion} {s : RunState}
    (hrun : RunOf ctx TaskSucceeds cs s) : Tracked ctx s := by
  have h := run_settling haccepted (hrun.mono fun _ _ => panicsNamed_of_success)
  have hfailed : s.failed = ∅ := by
    rw [Finset.eq_empty_iff_forall_notMem]
    exact fun n hn => failed_not_mem_node_ends hrun n (h.failed_ended n hn).2
  refine ⟨hfailed, h.started_nodes, h.completed_started, ?_, h.fan_outs⟩
  intro n hn
  have hsettling := h.started_settling n hn
  rw [hfailed] at hsettling
  simpa using hsettling

/-- Succeeding tasks keep the phases apart. -/
theorem run_phases_of_success {ctx : RunContext} (haccepted : Accepted ctx) {cs : List Completion} {s : RunState}
    (hrun : RunOf ctx TaskSucceeds cs s) : Phases s := by
  apply run_phases haccepted ?_ hrun
  rintro task error ⟨outputs, heq⟩
  cases heq

section Ended

variable {s : RunState} (hended : s.running = [])
include hended

theorem Phases.running_set_empty (h : Phases s) : s.running_set = ∅ := by
  rw [Finset.eq_empty_iff_forall_notMem]
  intro n hmem
  have hcount := h.plain_count n
  rw [hended, if_pos hmem] at hcount
  cases hcount

/-- When no task is left no fan-out is open. -/
theorem no_open_fan_out (h : ∀ n state, s.fan_out_states n = some state → AwaitsInstances s n state) (n : String) :
    s.fan_out_states n = none := by
  cases hstate : s.fan_out_states n with
  | none => rfl
  | some state =>
    obtain ⟨_, henough, hunfinished⟩ := h n state hstate
    simp only [hended, List.countP_nil] at henough hunfinished
    omega

theorem Tracked.no_fan_out {ctx : RunContext} (h : Tracked ctx s) (n : String) : s.fan_out_states n = none :=
  no_open_fan_out hended h.fan_outs n

/-- When no task is left the nodes started are the nodes completed. -/
theorem Tracked.mem_started_iff {ctx : RunContext} (h : Tracked ctx s) (hphases : Phases s) (n : String) :
    n ∈ started s ↔ n ∈ s.completed := by
  constructor
  · intro hn
    rcases h.started_tracked n hn with hcompleted | hrunning | hfan
    · exact hcompleted
    · rw [hphases.running_set_empty hended] at hrunning
      exact absurd hrunning (Finset.notMem_empty n)
    · exact absurd (h.no_fan_out hended n) hfan
  · exact h.completed_started n

end Ended

end flow_engine.executor
