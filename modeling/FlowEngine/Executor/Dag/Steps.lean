import FlowEngine.Executor.Dag.Start

namespace flow_engine.executor

open dataflow (Activated Legal found keys)

theorem spawn_ready_nodes_activations (ctx : RunContext) (nodes : List ReadyNode) (s : RunState) :
    ∃ more, (spawn_ready_nodes ctx nodes s).activations = s.activations ++ more := by
  induction nodes generalizing s with
  | nil => exact ⟨[], (List.append_nil _).symm⟩
  | cons ready rest ih =>
    obtain ⟨first, hfirst⟩ := spawn_ready_node_activations ctx s ready
    obtain ⟨more, hmore⟩ := ih (spawn_ready_node ctx s ready)
    exact ⟨first ++ more, hmore.trans (by rw [hfirst, List.append_assoc])⟩

/-- A step only adds activations. -/
theorem next_state_activations {ctx : RunContext} {s next : RunState} {c : Completion}
    (hcounts : CountsBounded ctx s.edge_traversal_counts) (hstep : next_state ctx s c = some next) :
    ∃ more, next.activations = s.activations ++ more := by
  obtain ⟨task, _, hcase⟩ := next_state_cases hstep
  have hdownstream : ∀ s' : RunState, s'.activations = s.activations →
      s'.edge_traversal_counts = s.edge_traversal_counts → ∀ node_id outputs from_fan_in,
        ∃ more, (evaluate_downstream ctx s' node_id outputs from_fan_in).activations = s.activations ++ more := by
    intro s' hactivations hsame node_id outputs from_fan_in
    rw [evaluate_downstream_eq (hsame ▸ hcounts), ← hactivations]
    exact spawn_ready_nodes_activations ctx _ _
  have hfailure : ∀ node_id,
      ∃ more, (proceed_after_failure ctx (joined ctx s c task) node_id).activations = s.activations ++ more := by
    intro node_id
    rw [proceed_after_failure_eq]
    exact spawn_ready_nodes_activations ctx _ _
  cases hcase with
  | plain_success _ _ => apply hdownstream <;> rfl
  | plain_failure _ _ => exact hfailure _
  | panic _ => exact hfailure _
  | instance_dropped _ _ _ => exact ⟨[], (List.append_nil _).symm⟩
  | instance_kept _ _ _ _ _ => exact ⟨[], (List.append_nil _).symm⟩
  | fan_in _ _ _ _ _ => apply hdownstream <;> rfl

/-- Every outcome so far is one a started task may have. -/
def Heard (may : Task → NodeOutcome → Prop) (cs : List Completion) (s : RunState) : Prop :=
  ∀ id outcome, outcome_of cs id = some outcome →
    ∃ task, task.id = id ∧ Recorded s.activations task ∧ may task outcome

theorem Heard.snoc {may : Task → NodeOutcome → Prop} {cs : List Completion} {s : RunState} (h : Heard may cs s)
    {c : Completion} {task : Task} {outcome : NodeOutcome} {records : List LlmInvocationRecord}
    (hid : task.id = c.task) (hfresh : task.id ∉ cs.map Completion.task) (hrecorded : Recorded s.activations task)
    (hjoined : c.joined = .returned outcome records) (hmay : may task outcome) : Heard may (cs ++ [c]) s := by
  intro id outcome' houtcome
  by_cases hsame : c.task = id
  · subst hsame
    rw [outcome_of_snoc_self (hid ▸ hfresh) hjoined] at houtcome
    cases houtcome
    exact ⟨task, hid, hrecorded, hmay⟩
  · rw [outcome_of_snoc_other hsame] at houtcome
    exact h id outcome' houtcome

theorem run_heard {ctx : RunContext} (haccepted : Accepted ctx) {may : Task → NodeOutcome → Prop}
    {cs : List Completion} {s : RunState} (hrun : RunOf ctx may cs s) : Heard may cs s := by
  refine hrun.invariant (P := fun cs s => Heard may cs s) ?_ ?_
  · intro id outcome houtcome
    cases houtcome
  · rintro cs s c next hreached h ⟨task, hfind, outcome, records, hjoined, hmay⟩ hstep
    have hledger := run_ledger haccepted hreached
    have hmem := List.mem_of_find?_eq_some hfind
    have hid : task.id = c.task := by simpa using List.find?_some hfind
    have hsnoc := h.snoc hid (hledger.not_joined hmem) (hledger.recorded task hmem) hjoined hmay
    obtain ⟨more, hmore⟩ := next_state_activations (run_countsBounded hreached) hstep
    intro id outcome' houtcome
    obtain ⟨other, hother, hrecorded, hmay'⟩ := hsnoc id outcome' houtcome
    exact ⟨other, hother, hmore ▸ hrecorded.append more, hmay'⟩

/-- The outcomes handlers allow to tasks. -/
def Handlers.of_task (may : Handlers) (task : Task) (outcome : NodeOutcome) : Prop :=
  may task.node_id task.inputs outcome

/-- What holds in every reached state whatever the graph. -/
structure Sound (ctx : RunContext) (may : Handlers) (cs : List Completion) (s : RunState) : Prop where
  ledger : Ledger (cs.map Completion.task) s
  fan_in : FanIn cs (reports ctx (initial_state ctx) cs) s
  heard : Heard may.of_task cs s
  counts : CountsBounded ctx s.edge_traversal_counts
  instances : InstanceCount s

theorem run_sound {ctx : RunContext} (haccepted : Accepted ctx) {may : Handlers}
    (hsmall : ∀ n inputs outputs, may n inputs (.Success outputs) → SmallArrays ctx n outputs)
    {cs : List Completion} {s : RunState} (hrun : RunOf ctx may.of_task cs s) : Sound ctx may cs s := by
  have hsmall_task : ∀ task outputs, may.of_task task (.Success outputs) → SmallArrays ctx task.node_id outputs :=
    fun task outputs hmay => hsmall _ _ _ hmay
  exact ⟨run_ledger haccepted hrun, run_fanIn haccepted hsmall_task hrun, run_heard haccepted hrun,
    run_countsBounded hrun, run_instanceCount haccepted hsmall_task hrun⟩

section Settle

variable {ctx : RunContext} {ends : WorkEnds} {may : Handlers} {order : List (String × NodeEnd)}
  {cs : List Completion} {s : RunState} {c : Completion} {task : Task}

/-- A node is not running and fanning out at once. -/
theorem Refines.not_fanning (h : Refines ctx ends order s) {n : String} (hrunning : n ∈ s.running_set) :
    s.fan_out_states n = none := by
  by_contra hne
  obtain ⟨_, inputs, hplain⟩ := (h.running n).mp hrunning
  obtain ⟨_, items, hfan⟩ := (h.fanning n).mp hne
  cases hplain.unique h.legal.nodup hfan

/-- A plain task in flight is the work of a node that has not ended. -/
theorem Refines.plain_active (h : Refines ctx ends order s) (hphases : Phases s)
    (hledger : Ledger (cs.map Completion.task) s) (hmem : task ∈ s.running) (hindex : task.fan_out_index = none) :
    task.node_id ∉ keys order ∧ Activated (net ctx) order task.node_id (.plain task.inputs) := by
  obtain ⟨hnot, _⟩ := (h.running _).mp (hphases.running_of_plain_task hmem hindex)
  obtain ⟨work, hactivation, hwork⟩ := hledger.recorded task hmem
  refine ⟨hnot, ?_⟩
  cases hwork with
  | plain hinputs _ _ => exact (h.activated _ _).mp (hinputs ▸ List.mem_of_getElem? hactivation)
  | fan_out _ hposition =>
    rw [hindex] at hposition
    cases hposition

theorem Refines.plain_done (h : Refines ctx ends order s) (hphases : Phases s)
    (hledger : Ledger (cs.map Completion.task) s)
    (hfind : s.running.find? (fun task => task.id = c.task) = some task) (hindex : task.fan_out_index = none)
    {outputs : Value} (hends : ends task.node_id (.plain task.inputs) (.done outputs false)) :
    Ended ctx ends order task.node_id (.done outputs false)
      (complete_plain (joined ctx s c task) task.node_id outputs) := by
  have hmem := List.mem_of_find?_eq_some hfind
  obtain ⟨hnot, hactive⟩ := h.plain_active hphases hledger hmem hindex
  have hfan := h.not_fanning (hphases.running_of_plain_task hmem hindex)
  apply h.ended hnot hactive hends
  · intro n
    simp [complete_plain, or_comm]
  · intro n
    simp [complete_plain]
  · exact fun n hn => Function.update_of_ne hn _ _
  · exact Function.update_self _ _ _
  · rfl
  · intro n
    simp [complete_plain, and_comm]
  · intro n
    constructor
    · intro hne
      exact ⟨hne, fun heq => hne (heq ▸ hfan)⟩
    · exact And.left

theorem Refines.plain_failed (h : Refines ctx ends order s) (hphases : Phases s)
    (hledger : Ledger (cs.map Completion.task) s)
    (hfind : s.running.find? (fun task => task.id = c.task) = some task) (hindex : task.fan_out_index = none)
    (hends : ends task.node_id (.plain task.inputs) .failed) :
    Ended ctx ends order task.node_id .failed (fail_node (joined ctx s c task) task.node_id) := by
  have hmem := List.mem_of_find?_eq_some hfind
  obtain ⟨hnot, hactive⟩ := h.plain_active hphases hledger hmem hindex
  have hfan := h.not_fanning (hphases.running_of_plain_task hmem hindex)
  apply h.ended hnot hactive hends
  · intro n
    simp [fail_node]
  · intro n
    simp [fail_node, or_comm]
  · exact fun n _ => rfl
  · rfl
  · rfl
  · intro n
    simp [fail_node, and_comm]
  · intro n
    constructor
    · intro hne
      exact ⟨hne, fun heq => hne (heq ▸ hfan)⟩
    · exact And.left

variable {state : FanOutState} {outcome : NodeOutcome} {index : Nat}

/-- A fan-out that stays open changes nothing about its node. -/
theorem Refines.kept (h : Refines ctx ends order s) (hstate : s.fan_out_states task.node_id = some state) :
    Refines ctx ends order (keep_fan_out (joined ctx s c task) task.node_id (fill_slot state index outcome)) := by
  refine ⟨h.legal, h.completed, h.failed, h.outputs, h.activated, h.once, h.running, ?_, h.counts⟩
  intro n
  rw [← h.fanning n]
  by_cases hn : n = task.node_id
  · subst hn
    simp [keep_fan_out, hstate]
  · have hsame : Function.update s.fan_out_states task.node_id (some (fill_slot state index outcome)) n =
        s.fan_out_states n := Function.update_of_ne hn _ _
    simp [keep_fan_out, hsame]

/-- The results of a fan-out whose last instance was joined are an end of its work. -/
theorem OpenInstance.fan_in_ends {rs : List Report} {items : List Value} (h : OpenInstance cs rs s task items state)
    (hheard : Heard may.of_task cs s) (hledger : Ledger (cs.map Completion.task) s) (hmem : task ∈ s.running)
    (hid : task.id = c.task) {records : List LlmInvocationRecord} (hjoined : c.joined = .returned outcome records)
    (hmay : may task.node_id task.inputs outcome) (hlast : state.completed + 1 = state.expected) :
    Ends may task.node_id (.fan_out items)
      (.done (merged_output (fill_slot state task.id.position outcome)) true) := by
  have hheard := hheard.snoc hid h.fresh (hledger.recorded task hmem) hjoined hmay
  have hall := h.all_joined hid hjoined hlast
  let outcomes : Nat → NodeOutcome := fun i =>
    (outcome_of (cs ++ [c]) ⟨task.id.activation, i⟩).getD (.Failed "")
  have houtcomes : ∀ i < items.length,
      outcome_of (cs ++ [c]) ⟨task.id.activation, i⟩ = some (outcomes i) := by
    intro i hi
    obtain ⟨outcome_i, heq⟩ := Option.isSome_iff_exists.mp (hall i hi)
    simp [outcomes, heq]
  have hvalues : (fill_slot state task.id.position outcome).results.map (fun r => r.getD .null) =
      (List.range items.length).map fun i => fan_out_result i (outcomes i) := by
    rw [h.results_snoc hid hjoined, slots, List.map_map]
    apply List.map_congr_left
    intro i hi
    simp [houtcomes i (List.mem_range.mp hi)]
  unfold merged_output
  rw [hvalues]
  apply Ends.fan_in
  intro i item hitem
  have hi : i < items.length := (List.getElem?_eq_some_iff.mp hitem).1
  obtain ⟨other, hother, ⟨work, hactivation, hwork⟩, hmay_i⟩ := hheard _ _ (houtcomes i hi)
  rw [hother, h.activation] at hactivation
  obtain ⟨hnode, rfl⟩ := Activation.mk.inj (Option.some.inj hactivation)
  cases hwork with
  | fan_out hitem' _ =>
    rw [hother, hitem] at hitem'
    cases hitem'
    exact hnode ▸ hmay_i

theorem Refines.fan_in_done {items : List Value} (h : Refines ctx ends order s) (c : Completion)
    (hstate : s.fan_out_states task.node_id = some state)
    (hactive : Activated (net ctx) order task.node_id (.fan_out items))
    (hends : ends task.node_id (.fan_out items) (.done (merged_output (fill_slot state index outcome)) true)) :
    Ended ctx ends order task.node_id (.done (merged_output (fill_slot state index outcome)) true)
      (complete_fan_in (joined ctx s c task) task.node_id (fill_slot state index outcome)) := by
  have hopen : s.fan_out_states task.node_id ≠ none := by simp [hstate]
  obtain ⟨hnot, _⟩ := (h.fanning _).mp hopen
  apply h.ended hnot hactive hends
  · intro n
    simp [complete_fan_in, or_comm]
  · intro n
    simp [complete_fan_in]
  · exact fun n hn => Function.update_of_ne hn _ _
  · exact Function.update_self _ _ _
  · rfl
  · intro n
    constructor
    · intro hrunning
      exact ⟨hrunning, fun heq => hopen (h.not_fanning (heq ▸ hrunning))⟩
    · exact And.left
  · intro n
    by_cases hn : n = task.node_id
    · subst hn
      simp [complete_fan_in]
    · simp [complete_fan_in, hn]

/-- The order after a task was joined: a plain task ends its node, an instance ends it
when it is the last one. -/
def extend (order : List (String × NodeEnd)) (s : RunState) (task : Task) (outcome : NodeOutcome) :
    List (String × NodeEnd) :=
  match task.fan_out_index, s.fan_out_states task.node_id, outcome with
  | none, _, .Success outputs => order ++ [(task.node_id, .done outputs false)]
  | none, _, .Failed _ => order ++ [(task.node_id, .failed)]
  | some index, some state, outcome =>
    if state.completed + 1 = state.expected then
      order ++ [(task.node_id, .done (merged_output (fill_slot state index outcome)) true)]
    else order
  | some _, none, _ => order

/-- The failure path of a plain task is not taken, or it spawns each target once. -/
def FailuresQuiet (ctx : RunContext) (may : Handlers) : Prop :=
  NoParallelEdges ctx.graph ∨ ∀ n inputs error, ¬ may n inputs (.Failed error)

/-- A step of the loop is a step of the network. -/
theorem Refines.step {next : RunState} (haccepted : Accepted ctx) (hacyclic : digraph.Acyclic (GraphEdge ctx.graph))
    (hquiet : FailuresQuiet ctx may) (h : Refines ctx (Ends may) order s) (hphases : Phases s) (hsound : Sound ctx may cs s)
    (hfind : s.running.find? (fun task => task.id = c.task) = some task) {records : List LlmInvocationRecord}
    (hreturned : c.joined = .returned outcome records) (hmay : may task.node_id task.inputs outcome)
    (hstep : next_state ctx s c = some next) :
    Refines ctx (Ends may) (extend order s task outcome) next ∧ Phases next := by
  obtain ⟨found, hfound, hcase⟩ := next_state_cases hstep
  rw [hfind] at hfound
  cases hfound
  have hmem := List.mem_of_find?_eq_some hfind
  have hid : task.id = c.task := by simpa using List.find?_some hfind
  cases hcase with
  | plain_success hjoined hindex =>
    rw [hreturned] at hjoined
    cases hjoined
    have hended := h.plain_done hphases hsound.ledger hfind hindex (.plain_done hmay)
    simp only [extend, hindex]
    exact ⟨hended.evaluated_downstream haccepted hacyclic hsound.counts h.counts,
      (hphases.completed_plain hfind hindex _).evaluated_downstream hsound.counts _ _ _⟩
  | plain_failure hjoined hindex =>
    rw [hreturned] at hjoined
    cases hjoined
    have hparallel : NoParallelEdges ctx.graph := hquiet.resolve_right fun hnever => hnever _ _ _ hmay
    have hended := h.plain_failed hphases hsound.ledger hfind hindex (.plain_failed hmay)
    simp only [extend, hindex]
    exact ⟨hended.proceeded haccepted hacyclic hparallel h.counts,
      (hphases.failed_node hfind hindex).proceeded_after_failure (hended.failure_path_quiet hacyclic hparallel)⟩
  | panic hjoined =>
    rw [hreturned] at hjoined
    cases hjoined
  | instance_dropped hjoined hindex hstate =>
    obtain ⟨items, state, hinst⟩ := hsound.fan_in.open_instance hsound.ledger hmem hindex
    rw [hinst.state_eq] at hstate
    cases hstate
  | instance_kept hjoined hindex hstate hbound hmore =>
    rw [hreturned] at hjoined
    cases hjoined
    simp only [extend, hindex, hstate, if_neg hmore]
    exact ⟨h.kept hstate, hphases.kept_fan_out hstate hfind hindex hmore _⟩
  | fan_in hjoined hindex hstate hbound hlast =>
    obtain ⟨items, state, hinst⟩ := hsound.fan_in.open_instance hsound.ledger hmem hindex
    have hfan := hinst.state_eq
    rw [hstate] at hfan
    cases hfan
    have hposition := hinst.index
    rw [hindex] at hposition
    cases hposition
    rw [hreturned] at hjoined
    cases hjoined
    have hended := h.fan_in_done c hstate ((h.activated _ _).mp (List.mem_of_getElem? hinst.activation))
      (hinst.fan_in_ends hsound.heard hsound.ledger hmem hid hreturned hmay hlast)
    simp only [extend, hindex, hstate, if_pos hlast]
    exact ⟨hended.evaluated_downstream haccepted hacyclic hsound.counts h.counts,
      (hphases.completed_fan_in hstate hfind hindex hlast _).evaluated_downstream hsound.counts _ _ _⟩

/-- The loop does not panic on a task in flight. -/
theorem Sound.exists_next (hsound : Sound ctx may cs s)
    (hfind : s.running.find? (fun task => task.id = c.task) = some task) : ∃ next, next_state ctx s c = some next := by
  apply exists_next_state hfind
  intro index state hindex hstate
  obtain ⟨items, state', hinst⟩ :=
    hsound.fan_in.open_instance hsound.ledger (List.mem_of_find?_eq_some hfind) hindex
  have hslot := hinst.slot_empty
  rw [hinst.index] at hindex
  cases hindex
  rw [hinst.state_eq] at hstate
  cases hstate
  exact (List.getElem?_eq_some_iff.mp hslot).1

/-- No task is left in flight when every node with work has ended. -/
theorem Refines.maximal_iff (h : Refines ctx (Ends may) order s) (hphases : Phases s) (hsound : Sound ctx may cs s) :
    dataflow.Maximal (net ctx) order ↔ s.running = [] := by
  constructor
  · intro hmax
    rw [List.eq_nil_iff_forall_not_mem]
    intro task hmem
    cases hindex : task.fan_out_index with
    | none =>
      obtain ⟨hnot, hactive⟩ := h.plain_active hphases hsound.ledger hmem hindex
      exact hnot (hmax _ _ hactive)
    | some index =>
      obtain ⟨items, state, hinst⟩ := hsound.fan_in.open_instance hsound.ledger hmem hindex
      have hopen : s.fan_out_states task.node_id ≠ none := by simp [hinst.state_eq]
      obtain ⟨hnot, items', hactive⟩ := (h.fanning _).mp hopen
      exact hnot (hmax _ _ hactive)
  · intro hempty v w hactive
    by_contra hnot
    cases w with
    | plain inputs =>
      have hcount := hphases.plain_count v
      rw [if_pos ((h.running v).mpr ⟨hnot, inputs, hactive⟩), hempty] at hcount
      cases hcount
    | fan_out items =>
      obtain ⟨state, hstate⟩ := Option.ne_none_iff_exists'.mp ((h.fanning v).mpr ⟨hnot, items, hactive⟩)
      obtain ⟨_, _, _, hopen, _⟩ := hsound.fan_in.busy v state hstate
      have hunfinished := hopen.unfinished
      have hcount : 0 = state.expected - state.completed := by
        simpa [hempty, waiting_for, hstate] using hsound.instances v
      omega

end Settle

/-- Before the loop the nodes without sources are activated. -/
theorem Refines.initial {ctx : RunContext} {ends : WorkEnds} (haccepted : Accepted ctx)
    (hacyclic : digraph.Acyclic (GraphEdge ctx.graph)) : Refines ctx ends [] (initial_state ctx) := by
  have hentry : ∀ n, n ∈ entry_nodes ctx ↔ n ∈ ctx.graph.nodes.map NodeInstance.instance_id ∧ sources ctx n = [] := by
    intro n
    rw [mem_entry_nodes_of_acyclic hacyclic rfl, sources_eq_nil_iff]
  have hactivated : ∀ v w, Activated (net ctx) [] v w ↔ v ∈ entry_nodes ctx ∧ w = .plain ctx.inputs := by
    intro v w
    rw [hentry]
    constructor
    · rintro (⟨hnil, hroot⟩ | ⟨x, ⟨_, before, r, after, hsplit, _⟩, _⟩)
      · simp only [net] at hroot
        split at hroot
        · rename_i hnode
          exact ⟨⟨hnode, hnil⟩, (Option.some.inj hroot).symm⟩
        · cases hroot
      · simp at hsplit
    · rintro ⟨⟨hnode, hnil⟩, rfl⟩
      exact Or.inl ⟨hnil, if_pos hnode⟩
  rw [initial_state_eq fun entry hentry => entry_nodes_spawnable haccepted hentry]
  constructor
  · exact .nil
  · simp [found]
  · simp [found]
  · funext n
    rfl
  · intro v w
    rw [hactivated, List.mem_map]
    constructor
    · rintro ⟨entry, hmem, heq⟩
      obtain ⟨rfl, rfl⟩ := Activation.mk.inj heq
      exact ⟨hmem, rfl⟩
    · rintro ⟨hmem, rfl⟩
      exact ⟨v, hmem, rfl⟩
  · rw [List.map_map]
    exact (List.map_id' _).symm ▸ entry_nodes_nodup haccepted
  · intro n
    simp [hactivated]
  · intro n
    simp [hactivated]
  · exact fun _ _ _ => rfl

/-- Every run on an acyclic graph is an order of the network. -/
theorem run_refines {ctx : RunContext} {may : Handlers} (haccepted : Accepted ctx)
    (hacyclic : digraph.Acyclic (GraphEdge ctx.graph)) (hquiet : FailuresQuiet ctx may)
    (hsmall : ∀ n inputs outputs, may n inputs (.Success outputs) → SmallArrays ctx n outputs)
    {cs : List Completion} {s : RunState} (hrun : RunOf ctx may.of_task cs s) :
    (∃ order, Refines ctx (Ends may) order s) ∧ Phases s := by
  refine hrun.invariant (P := fun _ s => (∃ order, Refines ctx (Ends may) order s) ∧ Phases s) ?_ ?_
  · exact ⟨⟨[], Refines.initial haccepted hacyclic⟩, Phases.initial haccepted⟩
  · rintro cs s c next hreached ⟨⟨order, h⟩, hphases⟩ ⟨task, hfind, outcome, records, hjoined, hmay⟩ hstep
    obtain ⟨hnext, hphases'⟩ := h.step haccepted hacyclic hquiet hphases
      (run_sound haccepted hsmall hreached) hfind hjoined hmay hstep
    exact ⟨⟨_, hnext⟩, hphases'⟩

end flow_engine.executor
