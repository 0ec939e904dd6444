import FlowEngine.Executor.Phases
import FlowEngine.Executor.FanIn.Exact

namespace flow_engine.executor

/-- The number of instances a node's fan-out still waits for. -/
def waiting_for (s : RunState) (node_id : String) : Nat :=
  match s.fan_out_states node_id with
  | some state => state.expected - state.completed
  | none => 0

/-- The instances in flight are those the fan-out states wait for. -/
def InstanceCount (s : RunState) : Prop :=
  ∀ n, s.running.countP (is_instance_of n) = waiting_for s n

theorem InstanceCount.spawned {ctx : RunContext} {s : RunState} {ready : ReadyNode} (h : InstanceCount s)
    (hspawnable : spawnable ctx ready.node_id = true)
    (hready : ∀ items, ready.fan_out_items = some items →
      s.fan_out_states ready.node_id = none ∧ items ≠ [] ∧ items.length < 2 ^ 32) :
    InstanceCount (spawn_ready_node ctx s ready) := by
  intro n
  have hcount := h n
  cases hitems : ready.fan_out_items with
  | none =>
    rw [spawn_ready_node_plain ctx s hitems, spawn_plain_eq, if_pos hspawnable]
    rw [List.countP_append, List.countP_singleton, is_instance_of_plain_task]
    exact hcount
  | some items =>
    obtain ⟨hnone, hne, hsmall⟩ := hready items hitems
    have hmod : items.length % 2 ^ 32 = items.length := Nat.mod_eq_of_lt hsmall
    rw [spawn_ready_node_fan_out ctx s hitems, spawn_fan_out_eq, if_pos hspawnable, List.countP_append]
    by_cases hn : n = ready.node_id
    · subst hn
      have hzero : s.running.countP (is_instance_of ready.node_id) = 0 := by
        rw [hcount, waiting_for, hnone]
      simp only [reopen_running, hzero, countP_instance_tasks, waiting_for, Function.update_self, fresh_fan_out, hmod]
      omega
    · have hnot := countP_instance_tasks_other (reopen s ready) ready.node_id items hn
      have hsame : Function.update s.fan_out_states ready.node_id (some (fresh_fan_out items)) n =
          s.fan_out_states n := Function.update_of_ne hn _ _
      simp only [reopen_running, hnot, waiting_for, reopen_fan_out_states, hsame, Nat.add_zero]
      exact hcount

theorem InstanceCount.spawned_all {ctx : RunContext} {s : RunState} {nodes : List ReadyNode} (h : InstanceCount s)
    (hnodup : (nodes.map ReadyNode.node_id).Nodup)
    (hready : ∀ ready ∈ nodes, spawnable ctx ready.node_id = true ∧ ∀ items, ready.fan_out_items = some items →
      s.fan_out_states ready.node_id = none ∧ items ≠ [] ∧ items.length < 2 ^ 32) :
    InstanceCount (spawn_ready_nodes ctx nodes s) := by
  refine spawn_ready_nodes_induction (P := InstanceCount)
    (R := fun s ready => spawnable ctx ready.node_id = true ∧ ∀ items, ready.fan_out_items = some items →
      s.fan_out_states ready.node_id = none ∧ items ≠ [] ∧ items.length < 2 ^ 32)
    (fun s ready hs hready => hs.spawned hready.1 hready.2) ?_ hnodup h hready
  intro s ready other hne _ hother
  refine ⟨hother.1, fun items hitems => ?_⟩
  obtain ⟨_, _, hfan⟩ := spawn_ready_node_other ctx s ready hne
  rw [hfan]
  exact hother.2 items hitems

section Settle

variable {ctx : RunContext} {s : RunState} {c : Completion} {task : Task}
  (hfind : s.running.find? (fun task => task.id = c.task) = some task)
include hfind

theorem InstanceCount.joined_plain (h : InstanceCount s) (hindex : task.fan_out_index = none) :
    InstanceCount (joined ctx s c task) := by
  intro n
  have hcount := h n
  have hkind : ¬ is_instance_of n task = true := by simp [is_instance_of, hindex]
  rw [countP_eraseP hfind, if_neg hkind] at hcount
  exact hcount

variable {index : Nat} (hindex : task.fan_out_index = some index)
include hindex

/-- Joining an instance takes one away from the instances of its node. -/
theorem InstanceCount.joined_instance (h : InstanceCount s) (n : String) :
    (s.running.eraseP fun task => task.id = c.task).countP (is_instance_of n) =
      waiting_for s n - if n = task.node_id then 1 else 0 := by
  have hcount := h n
  rw [countP_eraseP hfind] at hcount
  by_cases hn : n = task.node_id
  · subst hn
    have hkind : is_instance_of task.node_id task = true := by simp [is_instance_of, hindex]
    rw [if_pos hkind] at hcount
    rw [if_pos rfl]
    omega
  · have hkind : ¬ is_instance_of n task = true := by
      simpa [is_instance_of, hindex] using fun heq => hn heq.symm
    rw [if_neg hkind] at hcount
    rw [if_neg hn]
    omega

variable {state : FanOutState} (hstate : s.fan_out_states task.node_id = some state)
include hstate

theorem InstanceCount.kept (h : InstanceCount s) (outcome : NodeOutcome) :
    InstanceCount (keep_fan_out (joined ctx s c task) task.node_id (fill_slot state index outcome)) := by
  intro n
  refine (h.joined_instance hfind hindex n).trans ?_
  by_cases hn : n = task.node_id
  · subst hn
    simp only [waiting_for, hstate, keep_fan_out, Function.update_self, fill_slot, if_true]
    omega
  · have hsame : Function.update s.fan_out_states task.node_id (some (fill_slot state index outcome)) n =
        s.fan_out_states n := Function.update_of_ne hn _ _
    simp only [waiting_for, keep_fan_out, joined_fan_out_states, hsame, if_neg hn, Nat.sub_zero]

theorem InstanceCount.closed (h : InstanceCount s) (hlast : state.completed + 1 = state.expected)
    (outcome : NodeOutcome) :
    InstanceCount (complete_fan_in (joined ctx s c task) task.node_id (fill_slot state index outcome)) := by
  intro n
  refine (h.joined_instance hfind hindex n).trans ?_
  by_cases hn : n = task.node_id
  · subst hn
    simp only [waiting_for, hstate, complete_fan_in, Function.update_self, if_true]
    omega
  · have hsame : Function.update s.fan_out_states task.node_id none n = s.fan_out_states n :=
      Function.update_of_ne hn _ _
    simp only [waiting_for, complete_fan_in, joined_fan_out_states, hsame, if_neg hn, Nat.sub_zero]

end Settle

theorem InstanceCount.evaluated_downstream {ctx : RunContext} (haccepted : Accepted ctx) {cs : List Completion}
    {rs : List Report} {s : RunState} (h : InstanceCount s) (hfan : FanIn cs rs s)
    (hcounts : CountsBounded ctx s.edge_traversal_counts) {node_id : String} {outputs : Value} {from_fan_in : Bool}
    (hsmall : from_fan_in = false → SmallArrays ctx node_id outputs) :
    InstanceCount (evaluate_downstream ctx s node_id outputs from_fan_in) := by
  rw [evaluate_downstream_eq hcounts]
  apply InstanceCount.spawned_all
  · exact h
  · exact ready_nodes_nodup ctx s node_id outputs from_fan_in
  · intro ready hready
    exact ⟨ready_nodes_spawnable haccepted s node_id outputs from_fan_in ready hready,
      hfan.fan_out_of_starting hsmall hready⟩

/-- The failure path spawns plain tasks only. -/
theorem InstanceCount.failure {ctx : RunContext} (haccepted : Accepted ctx) {s : RunState} (node_id : String)
    (h : InstanceCount s) : InstanceCount (proceed_after_failure ctx s node_id) := by
  have hfailed : InstanceCount (fail_node s node_id) := h
  have hspawnable := failure_nodes_spawnable haccepted (fail_node s node_id) node_id
  rw [proceed_after_failure_eq]
  generalize find_ready_after_failure ctx (fail_node s node_id) node_id = targets at hspawnable
  generalize fail_node s node_id = s' at hfailed
  induction targets generalizing s' with
  | nil => exact hfailed
  | cons target rest ih =>
    apply ih
    · exact fun ready hready => hspawnable ready (List.mem_cons_of_mem _ hready)
    · exact hfailed.spawned (hspawnable ⟨target, none, false⟩ (by simp)) (by simp)

theorem InstanceCount.step {ctx : RunContext} (haccepted : Accepted ctx) {cs : List Completion} {rs : List Report}
    {s next : RunState} {c : Completion} (h : InstanceCount s) (hfan : FanIn cs rs s)
    (hledger : Ledger (cs.map Completion.task) s) (hcounts : CountsBounded ctx s.edge_traversal_counts)
    (hstep : next_state ctx s c = some next) {may : Task → NodeOutcome → Prop} (hallowed : Finishes may s c)
    (hsmall : ∀ task outputs, may task (.Success outputs) → SmallArrays ctx task.node_id outputs) :
    InstanceCount next := by
  obtain ⟨task, hfind, hcase⟩ := next_state_cases hstep
  obtain ⟨found, hfound, outcome, records, hreturned, hmay⟩ := hallowed
  rw [hfind] at hfound
  cases hfound
  cases hcase with
  | plain_success hjoined hindex =>
    rw [hreturned] at hjoined
    cases hjoined
    have hplain : InstanceCount (joined ctx s c task) := h.joined_plain hfind hindex
    apply InstanceCount.evaluated_downstream haccepted
    · exact hplain
    · exact hfan.joined_plain hledger hfind hindex rfl rfl
    · exact hcounts
    · exact fun _ => hsmall task _ hmay
  | plain_failure hjoined hindex =>
    apply InstanceCount.failure haccepted
    exact h.joined_plain hfind hindex
  | panic hjoined =>
    rw [hreturned] at hjoined
    cases hjoined
  | instance_dropped hjoined hindex hstate =>
    obtain ⟨items, state, hinst⟩ := hfan.open_instance hledger (List.mem_of_find?_eq_some hfind) hindex
    rw [hinst.state_eq] at hstate
    cases hstate
  | instance_kept hjoined hindex hstate hbound hmore => exact h.kept hfind hindex hstate _
  | fan_in hjoined hindex hstate hbound hlast =>
    obtain ⟨items, state, hinst⟩ := hfan.open_instance hledger (List.mem_of_find?_eq_some hfind) hindex
    have hid : task.id = c.task := by simpa using List.find?_some hfind
    rw [hinst.state_eq] at hstate
    cases hstate
    rw [hinst.index] at hindex
    cases hindex
    apply InstanceCount.evaluated_downstream haccepted
    · exact h.closed hfind hinst.index hinst.state_eq hlast _
    · exact hfan.instance_last hinst hid hjoined hlast
    · exact hcounts
    · exact fun hdirect => absurd hdirect (by simp)

theorem InstanceCount.initial {ctx : RunContext} (haccepted : Accepted ctx) : InstanceCount (initial_state ctx) := by
  intro n
  rw [initial_state_eq fun entry hentry => entry_nodes_spawnable haccepted hentry]
  refine List.countP_eq_zero.mpr ?_
  intro task htask
  obtain ⟨entry, _, rfl⟩ := List.mem_map.mp htask
  simp [is_instance_of, entry_task]

theorem run_instanceCount {ctx : RunContext} (haccepted : Accepted ctx) {may : Task → NodeOutcome → Prop}
    (hsmall : ∀ task outputs, may task (.Success outputs) → SmallArrays ctx task.node_id outputs)
    {cs : List Completion} {s : RunState} (hrun : RunOf ctx may cs s) : InstanceCount s := by
  refine hrun.invariant (P := fun _ s => InstanceCount s) (InstanceCount.initial haccepted) ?_
  intro cs s c next hreached h hallowed hstep
  exact h.step haccepted (run_fanIn haccepted hsmall hreached) (run_ledger haccepted hreached)
    (run_countsBounded hreached) hstep hallowed hsmall

/-- The phases are kept apart where no plain task fails: the failure path, which does
not look for fan-outs, is never taken. -/
theorem run_phases {ctx : RunContext} (haccepted : Accepted ctx) {may : Task → NodeOutcome → Prop}
    (hsucceed : ∀ task error, may task (.Failed error) → task.fan_out_index ≠ none)
    {cs : List Completion} {s : RunState} (hrun : RunOf ctx may cs s) : Phases s := by
  refine hrun.invariant (P := fun _ s => Phases s) (Phases.initial haccepted) ?_
  rintro cs s c next hreached h ⟨task, hfind, outcome, records, hjoined, hmay⟩ hstep
  apply h.step (run_countsBounded hreached) hstep ⟨outcome, records, hjoined⟩
  intro found error records' hfound hfailed hindex
  rw [hfind] at hfound
  cases hfound
  rw [hjoined] at hfailed
  cases hfailed
  exact absurd hindex (hsucceed task error hmay)

/-- Every node is in one phase at most, its tasks in flight are those of its phase, and
they belong to one activation. -/
structure ExactBooks (s : RunState) : Prop where
  completed_not_running : ∀ n ∈ s.completed, n ∉ s.running_set
  completed_not_fanning : ∀ n ∈ s.completed, s.fan_out_states n = none
  running_not_fanning : ∀ n ∈ s.running_set, s.fan_out_states n = none
  running_count : ∀ n, s.running.countP (is_plain_task_of n) = if n ∈ s.running_set then 1 else 0
  fanning_iff : ∀ n, s.fan_out_states n ≠ none ↔ ∃ task ∈ s.running, is_instance_of n task = true
  fanning_count : ∀ n state, s.fan_out_states n = some state → state.completed < state.expected ∧
    s.running.countP (is_instance_of n) = state.expected - state.completed
  one_activation : ∀ task ∈ s.running, ∀ other ∈ s.running, task.node_id = other.node_id →
    task.id.activation = other.id.activation

/-- A node with a fan-out state is fanning out. -/
theorem FanIn.fan_out_running {cs : List Completion} {rs : List Report} {s : RunState} (h : FanIn cs rs s)
    {n : String} {state : FanOutState} (hstate : s.fan_out_states n = some state) :
    is_fan_out_running s n = true := by
  obtain ⟨_, _, _, hopen, _⟩ := h.busy n state hstate
  simpa [is_fan_out_running, hstate] using hopen.unfinished

/-- Two instances in flight of one node belong to the same fan-out. -/
theorem FanIn.same_activation {cs : List Completion} {rs : List Report} {s : RunState} (h : FanIn cs rs s)
    (hledger : Ledger (cs.map Completion.task) s) {task other : Task} (htask : task ∈ s.running)
    (hother : other ∈ s.running) (hnode : task.node_id = other.node_id) {index index' : Nat}
    (hindex : task.fan_out_index = some index) (hindex' : other.fan_out_index = some index') :
    task.id.activation = other.id.activation := by
  obtain ⟨items, state, hinst⟩ := h.open_instance hledger htask hindex
  obtain ⟨items', state', hinst'⟩ := h.open_instance hledger hother hindex'
  by_contra hne
  have hclosed := hinst.others other.id.activation items' (Ne.symm hne) (hnode ▸ hinst'.activation)
  have hsome := hclosed.joined other.id.position hinst'.position_lt
  rw [outcome_of_eq_none hinst'.fresh] at hsome
  cases hsome

/-- A node has one plain task in flight at most. -/
theorem Phases.same_task {joined_ids : List TaskId} {s : RunState} (h : Phases s) (hledger : Ledger joined_ids s)
    {task other : Task} (htask : task ∈ s.running) (hother : other ∈ s.running)
    (hnode : task.node_id = other.node_id) (hindex : task.fan_out_index = none)
    (hindex' : other.fan_out_index = none) : task = other := by
  have hrunning := h.running_of_plain_task htask hindex
  have hfind := hledger.find_eq htask
  have hcount := h.plain_count task.node_id
  have hkind : is_plain_task_of task.node_id task = true := by simp [is_plain_task_of, hindex]
  rw [countP_eraseP (c := ⟨task.id, .panicked ""⟩) hfind, if_pos hrunning, if_pos hkind] at hcount
  have hnone := List.countP_eq_zero.mp (Nat.succ.inj hcount)
  have hmem := (running_perm (c := ⟨task.id, .panicked ""⟩) hfind).mem_iff.mp hother
  cases List.mem_cons.mp hmem with
  | inl heq => exact heq.symm
  | inr hleft => exact absurd (by simp [is_plain_task_of, hnode, hindex']) (hnone other hleft)

theorem ExactBooks.of_phases {cs : List Completion} {rs : List Report} {s : RunState} (hphases : Phases s)
    (hfan : FanIn cs rs s) (hinstances : InstanceCount s) (hledger : Ledger (cs.map Completion.task) s) :
    ExactBooks s := by
  have hrunning_not_fanning : ∀ n ∈ s.running_set, s.fan_out_states n = none := fun n hn =>
    hfan.none_of_not_running (hphases.one_kind n hn)
  constructor
  · intro n hcompleted hrunning
    exact (hphases.in_flight_not_done n (in_flight_iff.mpr (Or.inr hrunning))).1 hcompleted
  · intro n hcompleted
    by_contra hne
    obtain ⟨state, hstate⟩ := Option.ne_none_iff_exists'.mp hne
    have hflight := in_flight_iff.mpr (Or.inl (hfan.fan_out_running hstate))
    exact (hphases.in_flight_not_done n hflight).1 hcompleted
  · exact hrunning_not_fanning
  · exact hphases.plain_count
  · intro n
    constructor
    · intro hne
      obtain ⟨state, hstate⟩ := Option.ne_none_iff_exists'.mp hne
      obtain ⟨_, _, _, hopen, _⟩ := hfan.busy n state hstate
      have hunfinished := hopen.unfinished
      have hcount := hinstances n
      simp only [waiting_for, hstate] at hcount
      have hpositive : 0 < s.running.countP (is_instance_of n) := by omega
      exact List.countP_pos_iff.mp hpositive
    · rintro ⟨task, htask, hkind⟩ hnone
      have hcount := hinstances n
      rw [waiting_for, hnone, List.countP_eq_zero] at hcount
      exact hcount task htask hkind
  · intro n state hstate
    obtain ⟨_, _, _, hopen, _⟩ := hfan.busy n state hstate
    have hcount := hinstances n
    rw [waiting_for, hstate] at hcount
    exact ⟨hopen.unfinished, hcount⟩
  · intro task htask other hother hnode
    cases hindex : task.fan_out_index with
    | none =>
      cases hindex' : other.fan_out_index with
      | none => rw [hphases.same_task hledger htask hother hnode hindex hindex']
      | some index' =>
        obtain ⟨items, state, hinst⟩ := hfan.open_instance hledger hother hindex'
        have hnone := hrunning_not_fanning _ (hphases.running_of_plain_task htask hindex)
        rw [hnode, hinst.state_eq] at hnone
        cases hnone
    | some index =>
      cases hindex' : other.fan_out_index with
      | none =>
        obtain ⟨items, state, hinst⟩ := hfan.open_instance hledger htask hindex
        have hnone := hrunning_not_fanning _ (hphases.running_of_plain_task hother hindex')
        rw [← hnode, hinst.state_eq] at hnone
        cases hnone
      | some index' => exact hfan.same_activation hledger htask hother hnode hindex hindex'

/-- The scheduler's books are exact in every reached state, on any graph, when no
plain task fails. -/
theorem scheduler_books_exact {ctx : RunContext} (haccepted : Accepted ctx) {may : Task → NodeOutcome → Prop}
    (hsmall : ∀ task outputs, may task (.Success outputs) → SmallArrays ctx task.node_id outputs)
    (hsucceed : ∀ task error, may task (.Failed error) → task.fan_out_index ≠ none)
    {cs : List Completion} {s : RunState} (hrun : RunOf ctx may cs s) : ExactBooks s :=
  ExactBooks.of_phases (run_phases haccepted hsucceed hrun) (run_fanIn haccepted hsmall hrun)
    (run_instanceCount haccepted hsmall hrun) (run_ledger haccepted hrun)

/-- A loop of two nodes, the second of which is fanned out. -/
def loop_sample : RunContext :=
  sample_context ["A", "B"] [sample_edge "ab" "A" "B" none, sample_edge "ba" "B" "A" none] 2

theorem scheduler_books_exact_sample : ∃ cs s,
    RunOf loop_sample (fun task outcome => outcome = fan_out_handler task) cs s ∧
      s.activations.map Activation.node_id = ["A", "B", "A"] ∧ ExactBooks s := by
  have haccepted : Accepted loop_sample := sample_accepted 2 (by decide +kernel)
  have hsucceed : ∀ task error, .Failed error = fan_out_handler task → task.fan_out_index ≠ none := by
    intro task error herror
    cases herror
  have hreplay : ((replay loop_sample fan_out_handler (initial_state loop_sample)
      [⟨0, 0⟩, ⟨1, 1⟩, ⟨1, 0⟩]).map fun run => run.2.activations.map Activation.node_id) =
        some ["A", "B", "A"] := by decide +kernel
  obtain ⟨⟨cs, s⟩, hrun, hnodes⟩ := Option.map_eq_some_iff.mp hreplay
  have hrun := run_of_replay hrun
  exact ⟨cs, s, hrun, hnodes, scheduler_books_exact haccepted fan_out_handler_small hsucceed hrun⟩

end flow_engine.executor
