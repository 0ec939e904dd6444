import FlowEngine.Executor.Phases
import Mathlib.Algebra.BigOperators.Group.Finset.Basic
import Mathlib.Algebra.Order.BigOperators.Group.Finset

namespace flow_engine.executor

/-- How often a node was activated. -/
def activation_count (s : RunState) (node_id : String) : Nat :=
  s.activations.countP fun activation => activation.node_id = node_id

/-- A node the failure path may still start: it neither runs nor is it done. -/
def fresh (s : RunState) (node_id : String) : Bool :=
  decide (node_id ∉ s.completed) && decide (node_id ∉ s.failed) && decide (node_id ∉ s.running_set)

/-- How often edges of the graph were passed. -/
def passes (ctx : RunContext) (counts : String → Nat) : Nat :=
  ∑ id ∈ (ctx.graph.edges.map Edge.id).toFinset, counts id

/-- The activations of a node, and those the failure path could add at once. -/
def potential (ctx : RunContext) (s : RunState) (node_id : String) : Nat :=
  activation_count s node_id + if fresh s node_id then ctx.graph.edges.length else 0

/-- A bound on the activations of one node. -/
def activation_bound (graph : GraphDef) (max_traversals : Nat) : Nat :=
  graph.nodes.length + graph.edges.length +
    (graph.edges.length + 1) * (graph.edges.length * max_traversals)

theorem fresh_iff {s : RunState} {n : String} :
    fresh s n = true ↔ n ∉ s.completed ∧ n ∉ s.failed ∧ n ∉ s.running_set := by
  simp [fresh, and_assoc]

section Passes

theorem passes_le {ctx : RunContext} {counts : String → Nat} (h : CountsBounded ctx counts) :
    passes ctx counts ≤ ctx.graph.edges.length * ctx.max_traversals := by
  have hcard : (ctx.graph.edges.map Edge.id).toFinset.card ≤ ctx.graph.edges.length := by
    have hle := List.toFinset_card_le (ctx.graph.edges.map Edge.id)
    rwa [List.length_map] at hle
  calc passes ctx counts ≤ (ctx.graph.edges.map Edge.id).toFinset.card * ctx.max_traversals := by
        simpa [passes] using Finset.sum_le_card_nsmul _ _ _ fun id _ => h id
    _ ≤ ctx.graph.edges.length * ctx.max_traversals := Nat.mul_le_mul_right _ hcard

/-- Counting a pass of an edge of the graph adds one. -/
theorem passes_count_pass {ctx : RunContext} (counts : String → Nat) {edge : Edge} (hedge : edge ∈ ctx.graph.edges) :
    passes ctx (count_pass counts edge) = passes ctx counts + 1 := by
  have hmem : edge.id ∈ (ctx.graph.edges.map Edge.id).toFinset :=
    List.mem_toFinset.mpr (List.mem_map_of_mem hedge)
  unfold passes
  rw [← Finset.add_sum_erase _ _ hmem, ← Finset.add_sum_erase _ counts hmem]
  have hself : count_pass counts edge edge.id = counts edge.id + 1 := Function.update_self ..
  have hothers : ∑ id ∈ ((ctx.graph.edges.map Edge.id).toFinset).erase edge.id, count_pass counts edge id =
      ∑ id ∈ ((ctx.graph.edges.map Edge.id).toFinset).erase edge.id, counts id := by
    apply Finset.sum_congr rfl
    intro id hid
    exact Function.update_of_ne (Finset.ne_of_mem_erase hid) _ _
  rw [hself, hothers]
  omega

theorem passes_foldl {ctx : RunContext} {edges : List Edge} (hedges : ∀ edge ∈ edges, edge ∈ ctx.graph.edges)
    (counts : String → Nat) : passes ctx (edges.foldl count_pass counts) = passes ctx counts + edges.length := by
  induction edges generalizing counts with
  | nil => rfl
  | cons edge rest ih =>
    rw [List.foldl_cons, ih fun e he => hedges e (List.mem_cons_of_mem _ he),
      passes_count_pass counts (hedges edge (List.mem_cons_self ..)), List.length_cons]
    omega

end Passes

section Spawn

variable (ctx : RunContext) (s : RunState)

/-- The failure path activates each of its nodes as often as it lists it. -/
theorem foldl_spawn_plain (targets : List String) (n : String) :
    let next := targets.foldl (spawn_plain ctx) s
    activation_count next n =
      activation_count s n + (if spawnable ctx n then targets.count n else 0) ∧
    (n ∈ next.running_set ↔ n ∈ s.running_set ∨ n ∈ targets ∧ spawnable ctx n = true) ∧
    next.completed = s.completed ∧ next.failed = s.failed := by
  induction targets generalizing s with
  | nil => simp
  | cons target rest ih =>
    obtain ⟨hcount, hrunning, hcompleted, hfailed⟩ := ih (spawn_plain ctx s target)
    dsimp only at hcount hrunning hcompleted hfailed ⊢
    rw [List.foldl_cons, hcount, hrunning, hcompleted, hfailed]
    refine ⟨?_, ?_, spawn_plain_completed .., spawn_plain_failed ..⟩
    · rw [spawn_plain_eq]
      by_cases hspawnable : spawnable ctx target = true
      · by_cases hn : target = n
        · subst hn
          simp [hspawnable, activation_count]
          omega
        · simp [hspawnable, activation_count, hn]
      · by_cases hn : target = n
        · subst hn
          simp [hspawnable]
        · simp [hspawnable, hn]
    · rw [spawn_plain_eq]
      by_cases hspawnable : spawnable ctx target = true
      · simp only [hspawnable, if_true, Finset.mem_insert, List.mem_cons]
        constructor
        · rintro ((rfl | hold) | hrest)
          · exact Or.inr ⟨Or.inl rfl, hspawnable⟩
          · exact Or.inl hold
          · exact Or.inr ⟨Or.inr hrest.1, hrest.2⟩
        · rintro (hold | ⟨rfl | hrest, hn⟩)
          · exact Or.inl (Or.inr hold)
          · exact Or.inl (Or.inl rfl)
          · exact Or.inr ⟨hrest, hn⟩
      · simp only [hspawnable, Bool.false_eq_true, if_false, List.mem_cons]
        constructor
        · rintro (hold | hrest)
          · exact Or.inl hold
          · exact Or.inr ⟨Or.inr hrest.1, hrest.2⟩
        · rintro (hold | ⟨rfl | hrest, hn⟩)
          · exact Or.inl hold
          · exact absurd hn hspawnable
          · exact Or.inr ⟨hrest, hn⟩

/-- A spawn activates its own node once at most, and no other. -/
theorem activation_count_spawn (ready : ReadyNode) (n : String) :
    activation_count (spawn_ready_node ctx s ready) n ≤
      activation_count s n + if ready.node_id = n then 1 else 0 := by
  have hsnoc : ∀ activation : Activation, activation.node_id = ready.node_id →
      (s.activations ++ [activation]).countP (fun a => a.node_id = n) =
        s.activations.countP (fun a => a.node_id = n) + if ready.node_id = n then 1 else 0 := by
    intro activation hactivation
    rw [List.countP_append, List.countP_singleton]
    simp [hactivation]
  cases hitems : ready.fan_out_items with
  | none =>
    rw [spawn_ready_node_plain ctx s hitems, spawn_plain_eq]
    by_cases hspawnable : spawnable ctx ready.node_id = true
    · rw [if_pos hspawnable]
      exact (hsnoc ⟨ready.node_id, _⟩ rfl).le
    · rw [if_neg hspawnable]
      exact Nat.le_add_right _ _
  | some items =>
    rw [spawn_ready_node_fan_out ctx s hitems, spawn_fan_out_eq]
    exact (hsnoc ⟨ready.node_id, _⟩ rfl).le

theorem activation_count_spawn_all (nodes : List ReadyNode) (n : String) :
    activation_count (spawn_ready_nodes ctx nodes s) n ≤
      activation_count s n + (nodes.map ReadyNode.node_id).count n := by
  induction nodes generalizing s with
  | nil => simp [spawn_ready_nodes]
  | cons ready rest ih =>
    have hfirst := activation_count_spawn ctx s ready n
    have hrest := ih (spawn_ready_node ctx s ready)
    rw [List.map_cons, List.count_cons]
    change activation_count (spawn_ready_nodes ctx rest (spawn_ready_node ctx s ready)) n ≤ _
    by_cases hn : ready.node_id = n
    · simp only [hn, if_true, beq_self_eq_true] at hfirst ⊢
      omega
    · simp only [hn, if_false, beq_iff_eq, Nat.add_zero] at hfirst ⊢
      omega

/-- Spawning does not make other nodes fresh. -/
theorem fresh_spawn_all_other {nodes : List ReadyNode} {n : String} (hn : n ∉ nodes.map ReadyNode.node_id) :
    fresh (spawn_ready_nodes ctx nodes s) n = fresh s n := by
  induction nodes generalizing s with
  | nil => rfl
  | cons ready rest ih =>
    rw [List.map_cons, List.mem_cons, not_or] at hn
    change fresh (spawn_ready_nodes ctx rest (spawn_ready_node ctx s ready)) n = _
    rw [ih _ hn.2]
    obtain ⟨hcompleted, hrunning, _⟩ := spawn_ready_node_other ctx s ready hn.1
    simp only [fresh, spawn_ready_node_failed, hcompleted, hrunning]

end Spawn

section Potential

variable {ctx : RunContext} {s : RunState}

theorem passed_mem_graph {node_id : String} {outputs : Value} :
    ∀ edge ∈ passed ctx s node_id outputs, edge ∈ ctx.graph.edges := fun _ hedge =>
  (mem_build_outgoing_edges.mp (mem_passed_edges hedge).1).1

/-- Evaluating a completed node's edges pays for what it starts with passed edges. -/
theorem potential_evaluate_downstream (hcounts : CountsBounded ctx s.edge_traversal_counts) (node_id : String)
    (outputs : Value) (from_fan_in : Bool) (n : String) :
    potential ctx (evaluate_downstream ctx s node_id outputs from_fan_in) n +
        (ctx.graph.edges.length + 1) * passes ctx s.edge_traversal_counts ≤
      potential ctx s n + (ctx.graph.edges.length + 1) *
        passes ctx (evaluate_downstream ctx s node_id outputs from_fan_in).edge_traversal_counts := by
  have hnodup : ((starting_edges ctx s node_id outputs).map Edge.to_node).Nodup := starting_edges_nodup ..
  rw [evaluate_downstream_eq hcounts, spawn_ready_nodes_counts]
  dsimp only
  rw [passes_foldl passed_mem_graph]
  generalize hnodes : (starting_edges ctx s node_id outputs).map (ready_node s outputs from_fan_in) = nodes
  have hids : nodes.map ReadyNode.node_id = (starting_edges ctx s node_id outputs).map Edge.to_node := by
    rw [← hnodes, List.map_map]
    rfl
  generalize hbase : ({ s with
    edge_traversal_counts := (passed ctx s node_id outputs).foldl count_pass s.edge_traversal_counts
    log := s.log ++ edge_events ctx outputs s.edge_traversal_counts (build_outgoing_edges ctx.graph node_id) } :
      RunState) = base
  have hbase_count : activation_count base n = activation_count s n := by
    rw [← hbase]
    rfl
  have hbase_fresh : fresh base n = fresh s n := by
    rw [← hbase]
    rfl
  have hcount := activation_count_spawn_all ctx base nodes n
  rw [hids, hbase_count] at hcount
  unfold potential
  by_cases hn : n ∈ (starting_edges ctx s node_id outputs).map Edge.to_node
  · have hpassed : 1 ≤ (passed ctx s node_id outputs).length := by
      obtain ⟨edge, hedge, _⟩ := List.mem_map.mp hn
      have hfirst := (List.mem_filter.mp hedge).1
      exact List.length_pos_of_mem (List.mem_of_find?_eq_some (mem_first_targets.mp hfirst).2)
    have hone : ((starting_edges ctx s node_id outputs).map Edge.to_node).count n = 1 :=
      List.count_eq_one_of_mem hnodup hn
    rw [hone] at hcount
    have hpay : ctx.graph.edges.length + 1 ≤
        (ctx.graph.edges.length + 1) * (passed ctx s node_id outputs).length := Nat.le_mul_of_pos_right _ hpassed
    rw [Nat.mul_add]
    split <;> split <;> omega
  · have hzero : ((starting_edges ctx s node_id outputs).map Edge.to_node).count n = 0 :=
      List.count_eq_zero.mpr hn
    have hfresh := fresh_spawn_all_other ctx base (hids ▸ hn)
    rw [hzero] at hcount
    rw [hfresh, hbase_fresh, Nat.mul_add]
    omega

/-- The failure path pays for what it starts with the freshness of the started node. -/
theorem potential_proceed_after_failure (node_id n : String) :
    potential ctx (proceed_after_failure ctx s node_id) n ≤ potential ctx (fail_node s node_id) n := by
  unfold proceed_after_failure
  obtain ⟨hcount, hrunning, hcompleted, hfailed⟩ := foldl_spawn_plain ctx (fail_node s node_id)
    (find_ready_after_failure ctx (fail_node s node_id) node_id) n
  have hlength : (find_ready_after_failure ctx (fail_node s node_id) node_id).count n ≤
      ctx.graph.edges.length := by
    refine List.count_le_length.trans ?_
    unfold find_ready_after_failure
    rw [List.length_map]
    refine (List.length_filter_le _ _).trans ?_
    rw [build_outgoing_edges, file_edges_apply]
    exact List.length_filter_le _ _
  unfold potential
  rw [hcount]
  by_cases hspawned : n ∈ find_ready_after_failure ctx (fail_node s node_id) node_id ∧ spawnable ctx n = true
  · obtain ⟨hmem, hspawnable⟩ := hspawned
    obtain ⟨_, hnot_completed, hnot_failed, hnot_running, _⟩ := mem_find_ready_after_failure.mp hmem
    have hbefore : fresh (fail_node s node_id) n = true :=
      fresh_iff.mpr ⟨hnot_completed, hnot_failed, hnot_running⟩
    have hafter : ¬ fresh ((find_ready_after_failure ctx (fail_node s node_id) node_id).foldl
        (spawn_plain ctx) (fail_node s node_id)) n = true := by
      rw [fresh_iff, hrunning]
      exact fun hfresh => hfresh.2.2 (Or.inr ⟨hmem, hspawnable⟩)
    rw [if_pos hspawnable, if_pos hbefore, if_neg hafter]
    omega
  · have hsame : fresh ((find_ready_after_failure ctx (fail_node s node_id) node_id).foldl
        (spawn_plain ctx) (fail_node s node_id)) n = fresh (fail_node s node_id) n := by
      simp only [fresh, hcompleted, hfailed, hrunning, hspawned, or_false]
    have hzero : (if spawnable ctx n = true then
        (find_ready_after_failure ctx (fail_node s node_id) node_id).count n else 0) = 0 := by
      by_cases hspawnable : spawnable ctx n = true
      · rw [if_pos hspawnable]
        exact List.count_eq_zero.mpr fun hmem => hspawned ⟨hmem, hspawnable⟩
      · rw [if_neg hspawnable]
    rw [hsame, hzero, Nat.add_zero]

/-- A state with more completed, failed or running nodes and the same activations has
no more potential. -/
theorem potential_le_of_fresh {s' : RunState} (hactivations : s'.activations = s.activations) {n : String}
    (hfresh : fresh s' n = true → fresh s n = true) : potential ctx s' n ≤ potential ctx s n := by
  unfold potential activation_count
  rw [hactivations]
  by_cases hbefore : fresh s n = true
  · rw [if_pos hbefore]
    split <;> omega
  · have hafter : ¬ fresh s' n = true := fun h => hbefore (hfresh h)
    rw [if_neg hbefore, if_neg hafter]

/-- A node that leaves the running nodes is completed or failed, so it is not fresh. -/
theorem fresh_of_settled {s' : RunState} {m n : String} (hrunning : s'.running_set = s.running_set.erase m)
    (hcompleted : s.completed ⊆ s'.completed) (hfailed : s.failed ⊆ s'.failed)
    (hdone : m ∈ s'.completed ∨ m ∈ s'.failed) (hfresh : fresh s' n = true) : fresh s n = true := by
  obtain ⟨hnot_completed, hnot_failed, hnot_running⟩ := fresh_iff.mp hfresh
  have hne : n ≠ m := by
    rintro rfl
    exact hdone.elim hnot_completed hnot_failed
  refine fresh_iff.mpr ⟨fun hmem => hnot_completed (hcompleted hmem), fun hmem => hnot_failed (hfailed hmem), ?_⟩
  intro hmem
  rw [hrunning] at hnot_running
  exact hnot_running (Finset.mem_erase.mpr ⟨hne, hmem⟩)

theorem potential_fail_node {c : Completion} {task : Task} (node_id n : String) :
    potential ctx (fail_node (joined ctx s c task) node_id) n ≤ potential ctx s n := by
  apply potential_le_of_fresh
  · rfl
  · apply fresh_of_settled (m := node_id)
    · rfl
    · exact Finset.Subset.refl _
    · exact Finset.subset_insert _ _
    · exact Or.inr (Finset.mem_insert_self _ _)

/-- A step pays for the activations it makes. -/
theorem potential_step {next : RunState} {c : Completion} (hcounts : CountsBounded ctx s.edge_traversal_counts)
    (hstep : next_state ctx s c = some next) (n : String) :
    potential ctx next n + (ctx.graph.edges.length + 1) * passes ctx s.edge_traversal_counts ≤
      potential ctx s n + (ctx.graph.edges.length + 1) * passes ctx next.edge_traversal_counts := by
  obtain ⟨task, _, hcase⟩ := next_state_cases hstep
  cases hcase with
  | @plain_success outputs _ _ _ =>
    have hle : potential ctx (complete_plain (joined ctx s c task) task.node_id outputs) n ≤ potential ctx s n := by
      apply potential_le_of_fresh
      · rfl
      · apply fresh_of_settled (m := task.node_id)
        · rfl
        · exact Finset.subset_insert _ _
        · exact Finset.Subset.refl _
        · exact Or.inl (Finset.mem_insert_self _ _)
    have hdownstream := potential_evaluate_downstream (s := complete_plain (joined ctx s c task) task.node_id outputs)
      hcounts task.node_id outputs false n
    exact hdownstream.trans (Nat.add_le_add_right hle _)
  | plain_failure _ _ =>
    rw [proceed_after_failure_counts]
    exact Nat.add_le_add_right ((potential_proceed_after_failure _ n).trans (potential_fail_node _ n)) _
  | panic _ =>
    rw [proceed_after_failure_counts]
    exact Nat.add_le_add_right ((potential_proceed_after_failure _ n).trans (potential_fail_node _ n)) _
  | instance_dropped _ _ _ => exact Nat.le_refl _
  | instance_kept _ _ _ _ _ => exact Nat.le_refl _
  | @fan_in outcome _ index state _ _ _ _ _ =>
    have hle : potential ctx (complete_fan_in (joined ctx s c task) task.node_id (fill_slot state index outcome)) n ≤
        potential ctx s n := by
      apply potential_le_of_fresh
      · rfl
      intro hfresh
      obtain ⟨hcompleted, hfailed, hrunning⟩ := fresh_iff.mp hfresh
      exact fresh_iff.mpr ⟨fun hmem => hcompleted (Finset.mem_insert_of_mem hmem), hfailed, hrunning⟩
    have hdownstream := potential_evaluate_downstream
      (s := complete_fan_in (joined ctx s c task) task.node_id (fill_slot state index outcome)) hcounts task.node_id
      (merged_output (fill_slot state index outcome)) true n
    exact hdownstream.trans (Nat.add_le_add_right hle _)

theorem potential_initial (n : String) : potential ctx (initial_state ctx) n ≤
    ctx.graph.nodes.length + ctx.graph.edges.length := by
  have hcount : ∀ (entries : List String) (s : RunState),
      activation_count (entries.foldl (spawn_entry ctx) s) n ≤ activation_count s n + entries.length := by
    intro entries
    induction entries with
    | nil => exact fun s => Nat.le_refl _
    | cons entry rest ih =>
      intro s
      have hone : activation_count (spawn_entry ctx s entry) n ≤ activation_count s n + 1 := by
        unfold spawn_entry
        split
        · unfold activation_count
          rw [List.countP_append, List.countP_singleton]
          split <;> omega
        · exact Nat.le_add_right _ _
      have hrest := ih (spawn_entry ctx s entry)
      rw [List.foldl_cons, List.length_cons]
      omega
  have hentries : (entry_nodes ctx).length ≤ ctx.graph.nodes.length := by
    unfold entry_nodes find_entry_nodes
    refine (List.length_filter_le _ _).trans ?_
    rw [List.length_map]
  unfold potential
  have hstart : activation_count (initial_state ctx) n ≤ (entry_nodes ctx).length := by
    refine (hcount (entry_nodes ctx) _).trans ?_
    simp [activation_count]
  split <;> omega

end Potential

/-- In every reached state the activations of a node are paid for by the graph and the
passed edges. -/
theorem run_potential {ctx : RunContext} {allowed : RunState → Completion → Prop} {cs : List Completion}
    {s : RunState} (hrun : transition.Run (next_state ctx) allowed (initial_state ctx) cs s) (n : String) :
    potential ctx s n ≤ ctx.graph.nodes.length + ctx.graph.edges.length +
      (ctx.graph.edges.length + 1) * passes ctx s.edge_traversal_counts := by
  refine hrun.invariant (P := fun _ s => potential ctx s n ≤ ctx.graph.nodes.length + ctx.graph.edges.length +
    (ctx.graph.edges.length + 1) * passes ctx s.edge_traversal_counts) ?_ ?_
  · exact (potential_initial n).trans (Nat.le_add_right _ _)
  · intro cs s c next hreached h _ hstep
    have hpay := potential_step (run_countsBounded hreached) hstep n
    omega

theorem run_activation_count_le {ctx : RunContext} {allowed : RunState → Completion → Prop}
    {cs : List Completion} {s : RunState}
    (hrun : transition.Run (next_state ctx) allowed (initial_state ctx) cs s) (n : String) :
    activation_count s n ≤ activation_bound ctx.graph ctx.max_traversals := by
  have hpotential := run_potential hrun n
  have hpasses := Nat.mul_le_mul_left (ctx.graph.edges.length + 1) (passes_le (run_countsBounded hrun))
  unfold potential at hpotential
  unfold activation_bound
  omega

section Progress

/-- Tasks are only added together with an activation. -/
def Grown (s s' : RunState) : Prop :=
  s.activations.length < s'.activations.length ∨
    s'.activations.length = s.activations.length ∧ s'.running.length = s.running.length

theorem Grown.trans {s s' s'' : RunState} (h : Grown s s') (h' : Grown s' s'') : Grown s s'' := by
  unfold Grown at *
  omega

theorem grown_spawn (ctx : RunContext) (s : RunState) (ready : ReadyNode) :
    Grown s (spawn_ready_node ctx s ready) := by
  cases hitems : ready.fan_out_items with
  | none =>
    rw [spawn_ready_node_plain ctx s hitems, spawn_plain_eq]
    by_cases hspawnable : spawnable ctx ready.node_id = true
    · rw [if_pos hspawnable]
      exact Or.inl (by simp)
    · rw [if_neg hspawnable]
      exact Or.inr ⟨rfl, rfl⟩
  | some items =>
    rw [spawn_ready_node_fan_out ctx s hitems, spawn_fan_out_eq]
    exact Or.inl (by simp)

theorem grown_spawn_all (ctx : RunContext) (nodes : List ReadyNode) (s : RunState) :
    Grown s (spawn_ready_nodes ctx nodes s) := by
  induction nodes generalizing s with
  | nil => exact Or.inr ⟨rfl, rfl⟩
  | cons ready rest ih => exact (grown_spawn ctx s ready).trans (ih _)

theorem grown_evaluate_downstream {ctx : RunContext} {s : RunState}
    (hcounts : CountsBounded ctx s.edge_traversal_counts) (node_id : String) (outputs : Value)
    (from_fan_in : Bool) : Grown s (evaluate_downstream ctx s node_id outputs from_fan_in) := by
  rw [evaluate_downstream_eq hcounts]
  refine Grown.trans ?_ (grown_spawn_all ctx _ _)
  exact Or.inr ⟨rfl, rfl⟩

theorem grown_proceed_after_failure (ctx : RunContext) (s : RunState) (node_id : String) :
    Grown s (proceed_after_failure ctx s node_id) := by
  rw [proceed_after_failure_eq]
  refine Grown.trans ?_ (grown_spawn_all ctx _ _)
  exact Or.inr ⟨rfl, rfl⟩

/-- A step that makes no activation takes one task away. -/
theorem step_progress {ctx : RunContext} {s next : RunState} {c : Completion}
    (hcounts : CountsBounded ctx s.edge_traversal_counts) (hstep : next_state ctx s c = some next) :
    s.activations.length < next.activations.length ∨
      next.activations.length = s.activations.length ∧ next.running.length < s.running.length := by
  obtain ⟨task, hfind, hcase⟩ := next_state_cases hstep
  have hshorter : (s.running.eraseP fun task => task.id = c.task).length < s.running.length := by
    have hlength := (running_perm hfind).length_eq
    rw [List.length_cons] at hlength
    omega
  have hgrown : ∀ s' : RunState, s'.activations = s.activations →
      s'.running = s.running.eraseP (fun task => task.id = c.task) → Grown s' next →
      s.activations.length < next.activations.length ∨
        next.activations.length = s.activations.length ∧ next.running.length < s.running.length := by
    intro s' hactivations hrunning h
    unfold Grown at h
    rw [hactivations, hrunning] at h
    omega
  cases hcase with
  | @plain_success outputs _ _ _ =>
    apply hgrown (complete_plain (joined ctx s c task) task.node_id outputs) rfl rfl
    apply grown_evaluate_downstream
    exact hcounts
  | plain_failure _ _ => exact hgrown (joined ctx s c task) rfl rfl (grown_proceed_after_failure ctx (joined ctx s c task) _)
  | panic _ => exact hgrown (joined ctx s c task) rfl rfl (grown_proceed_after_failure ctx (joined ctx s c task) _)
  | instance_dropped _ _ _ => exact Or.inr ⟨rfl, hshorter⟩
  | instance_kept _ _ _ _ _ => exact Or.inr ⟨rfl, hshorter⟩
  | @fan_in outcome _ index state _ _ _ _ _ =>
    apply hgrown (complete_fan_in (joined ctx s c task) task.node_id (fill_slot state index outcome)) rfl rfl
    apply grown_evaluate_downstream
    exact hcounts

end Progress

section Names

/-- The nodes that can be activated. -/
def node_names (graph : GraphDef) : Finset String :=
  (graph.nodes.map NodeInstance.instance_id ++ graph.edges.map Edge.to_node).toFinset

theorem activation_count_eq_zero {s : RunState} {n : String} :
    activation_count s n = 0 ↔ ∀ activation ∈ s.activations, activation.node_id ≠ n := by
  simp [activation_count, List.countP_eq_zero]

/-- Starting other entry nodes activates a node no more. -/
theorem entries_activation_count {ctx : RunContext} {n : String} {entries : List String} {s : RunState}
    (hnot : n ∉ entries) (hzero : activation_count s n = 0) :
    activation_count (entries.foldl (spawn_entry ctx) s) n = 0 := by
  induction entries generalizing s with
  | nil => exact hzero
  | cons entry rest ih =>
    rw [List.mem_cons, not_or] at hnot
    apply ih hnot.2
    unfold spawn_entry
    split
    · simpa [activation_count, Ne.symm hnot.1] using hzero
    · exact hzero

section Unnamed

variable {ctx : RunContext} {s : RunState} {n : String} (htarget : ∀ edge ∈ ctx.graph.edges, edge.to_node ≠ n)
include htarget

/-- Nor does anything that follows edges, if none leads to the node. -/
theorem evaluate_downstream_unnamed (hzero : activation_count s n = 0) (hcounts : CountsBounded ctx s.edge_traversal_counts)
    (node_id : String) (outputs : Value) (from_fan_in : Bool) :
    activation_count (evaluate_downstream ctx s node_id outputs from_fan_in) n = 0 := by
  rw [evaluate_downstream_eq hcounts]
  refine Nat.le_zero.mp ((activation_count_spawn_all ctx _ _ n).trans ?_)
  have hnone : (((starting_edges ctx s node_id outputs).map (ready_node s outputs from_fan_in)).map
      ReadyNode.node_id).count n = 0 := by
    rw [List.count_eq_zero, List.map_map]
    intro hmem
    obtain ⟨edge, hedge, heq⟩ := List.mem_map.mp hmem
    exact htarget edge (mem_starting_edges hedge).1 heq
  rw [hnone]
  exact hzero.le

theorem proceed_after_failure_unnamed (hzero : activation_count s n = 0) (node_id : String) :
    activation_count (proceed_after_failure ctx s node_id) n = 0 := by
  unfold proceed_after_failure
  rw [(foldl_spawn_plain ctx _ _ n).1]
  have hnone : (find_ready_after_failure ctx (fail_node s node_id) node_id).count n = 0 := by
    rw [List.count_eq_zero]
    intro hmem
    obtain ⟨⟨edge, hedge, _, hto⟩, _⟩ := mem_find_ready_after_failure.mp hmem
    exact htarget edge hedge hto
  rw [hnone, ite_self, Nat.add_zero]
  exact hzero

end Unnamed

/-- Only named nodes are activated. -/
theorem run_activated_named {ctx : RunContext} {allowed : RunState → Completion → Prop} {cs : List Completion}
    {s : RunState} (hrun : transition.Run (next_state ctx) allowed (initial_state ctx) cs s) {n : String}
    (hn : n ∉ node_names ctx.graph) : activation_count s n = 0 := by
  have hnode : n ∉ ctx.graph.nodes.map NodeInstance.instance_id := fun hmem =>
    hn (List.mem_toFinset.mpr (List.mem_append_left _ hmem))
  have htarget : ∀ edge ∈ ctx.graph.edges, edge.to_node ≠ n := by
    rintro edge hedge rfl
    exact hn (List.mem_toFinset.mpr (List.mem_append_right _ (List.mem_map_of_mem hedge)))
  refine hrun.invariant (P := fun _ s => activation_count s n = 0) ?_ ?_
  · exact entries_activation_count (fun hmem => hnode (mem_entry_nodes.mp hmem).1) rfl
  · intro cs s c next hreached hzero _ hstep
    have hcounts := run_countsBounded hreached
    obtain ⟨task, _, hcase⟩ := next_state_cases hstep
    have hjoined : activation_count (joined ctx s c task) n = 0 := hzero
    cases hcase with
    | plain_success _ _ =>
      apply evaluate_downstream_unnamed htarget
      · exact hzero
      · exact hcounts
    | plain_failure _ _ => exact proceed_after_failure_unnamed htarget hjoined _
    | panic _ => exact proceed_after_failure_unnamed htarget hjoined _
    | instance_dropped _ _ _ => exact hzero
    | instance_kept _ _ _ _ _ => exact hzero
    | fan_in _ _ _ _ _ =>
      apply evaluate_downstream_unnamed htarget
      · exact hzero
      · exact hcounts

/-- The activations of a run are bounded by the graph and the limit. -/
theorem run_activations_length_le {ctx : RunContext} {allowed : RunState → Completion → Prop}
    {cs : List Completion} {s : RunState}
    (hrun : transition.Run (next_state ctx) allowed (initial_state ctx) cs s) :
    s.activations.length ≤
      (node_names ctx.graph).card * activation_bound ctx.graph ctx.max_traversals := by
  have hnamed : ∀ n ∈ (s.activations.map Activation.node_id).toFinset, n ∈ node_names ctx.graph := by
    intro n hn
    by_contra hnot
    obtain ⟨activation, hactivation, heq⟩ := List.mem_map.mp (List.mem_toFinset.mp hn)
    exact activation_count_eq_zero.mp (run_activated_named hrun hnot) activation hactivation heq
  have hcount : ∀ n, (s.activations.map Activation.node_id).count n = activation_count s n := by
    intro n
    rw [List.count, List.countP_map]
    unfold activation_count
    congr 1
  calc s.activations.length = (s.activations.map Activation.node_id).length := (List.length_map _).symm
    _ = ∑ n ∈ (s.activations.map Activation.node_id).toFinset, (s.activations.map Activation.node_id).count n :=
      (List.sum_toFinset_count_eq_length _).symm
    _ ≤ ∑ n ∈ node_names ctx.graph, (s.activations.map Activation.node_id).count n :=
      Finset.sum_le_sum_of_subset hnamed
    _ ≤ (node_names ctx.graph).card * activation_bound ctx.graph ctx.max_traversals := by
      have hle := Finset.sum_le_card_nsmul (node_names ctx.graph)
        (fun n => (s.activations.map Activation.node_id).count n)
        (activation_bound ctx.graph ctx.max_traversals)
        fun n _ => (hcount n).trans_le (run_activation_count_le hrun n)
      simpa using hle

end Names

section Log

/-- The event of an edge that was passed. -/
def is_pass (edge_id : String) : WriteEvent → Bool
  | .EdgeEvaluated _ _ id _ true _ => decide (id = edge_id)
  | _ => false

theorem countP_edge_events (ctx : RunContext) (outputs : Value) (counts : String → Nat) (edges : List Edge)
    (id : String) : (edge_events ctx outputs counts edges).countP (is_pass id) =
      (passed_edges ctx outputs counts edges).countP fun edge => edge.id = id := by
  induction edges generalizing counts with
  | nil => rfl
  | cons edge rest ih =>
    rw [edge_events, passed_edges]
    split
    · rw [List.countP_cons, List.countP_cons, ih]
      rfl
    · rw [List.countP_cons, ih]
      rfl

@[simp] theorem spawn_ready_nodes_log (ctx : RunContext) (nodes : List ReadyNode) (s : RunState) :
    (spawn_ready_nodes ctx nodes s).log = s.log := by
  induction nodes generalizing s with
  | nil => rfl
  | cons ready rest ih => exact (ih _).trans (spawn_ready_node_log ctx s ready)

/-- The log counts the passes of each edge. -/
theorem run_log_passes {ctx : RunContext} {allowed : RunState → Completion → Prop} {cs : List Completion}
    {s : RunState} (hrun : transition.Run (next_state ctx) allowed (initial_state ctx) cs s) (id : String) :
    s.log.countP (is_pass id) = s.edge_traversal_counts id := by
  refine hrun.invariant (P := fun _ s => s.log.countP (is_pass id) = s.edge_traversal_counts id) ?_ ?_
  · have hlog : (initial_state ctx).log = [] := (spawn_entry_frame ctx (entry_nodes ctx) _).2.2.2.2
    rw [initial_state_counts, hlog]
    rfl
  · intro cs s c next hreached hcount _ hstep
    have hcounts := run_countsBounded hreached
    obtain ⟨task, _, hcase⟩ := next_state_cases hstep
    have hjoined : (joined ctx s c task).log.countP (is_pass id) = s.edge_traversal_counts id := by
      have hrecords : ∀ records : List LlmInvocationRecord, (records.map fun record =>
          WriteEvent.LlmInvocation 0 ctx.run_id record.node_id record.request record.response).countP
            (is_pass id) = 0 := by
        intro records
        rw [List.countP_eq_zero]
        intro event hevent
        obtain ⟨record, _, rfl⟩ := List.mem_map.mp hevent
        simp [is_pass]
      unfold joined collect_llm_records
      rw [List.countP_append, hrecords, hcount]
      rfl
    have hdownstream : ∀ s' : RunState, s'.log = (joined ctx s c task).log →
        s'.edge_traversal_counts = s.edge_traversal_counts → ∀ node_id outputs from_fan_in,
        (evaluate_downstream ctx s' node_id outputs from_fan_in).log.countP (is_pass id) =
          (evaluate_downstream ctx s' node_id outputs from_fan_in).edge_traversal_counts id := by
      intro s' hlog hsame node_id outputs from_fan_in
      rw [evaluate_downstream_eq (hsame ▸ hcounts), spawn_ready_nodes_log, spawn_ready_nodes_counts]
      dsimp only
      rw [foldl_count_pass, List.countP_append, countP_edge_events, hlog, hjoined, passed, hsame]
    have hfailure : ∀ node_id,
        (proceed_after_failure ctx (joined ctx s c task) node_id).log.countP (is_pass id) =
          (proceed_after_failure ctx (joined ctx s c task) node_id).edge_traversal_counts id := by
      intro node_id
      rw [proceed_after_failure_counts, proceed_after_failure_eq, spawn_ready_nodes_log]
      exact hjoined
    cases hcase with
    | plain_success _ _ => apply hdownstream <;> rfl
    | plain_failure _ _ => exact hfailure _
    | panic _ => exact hfailure _
    | instance_dropped _ _ _ => exact hjoined
    | instance_kept _ _ _ _ _ => exact hjoined
    | fan_in _ _ _ _ _ => apply hdownstream <;> rfl

end Log

/-- Every run terminates, whatever the tasks do and in whatever order they finish. No
edge is passed more often than allowed, and the activations of a node are bounded by
the graph and the limit. -/
theorem run_terminates (ctx : RunContext) :
    (¬ ∃ (states : Nat → RunState) (cs : Nat → Completion), states 0 = initial_state ctx ∧
      ∀ i, next_state ctx (states i) (cs i) = some (states (i + 1))) ∧
    ∀ cs s, transition.Run (next_state ctx) (fun _ _ => True) (initial_state ctx) cs s →
      (∀ edge_id, s.log.countP (is_pass edge_id) = s.edge_traversal_counts edge_id ∧
        s.edge_traversal_counts edge_id ≤ ctx.max_traversals) ∧
      ∀ node_id, activation_count s node_id ≤ activation_bound ctx.graph ctx.max_traversals := by
  constructor
  · rintro ⟨states, cs, hstart, hsteps⟩
    refine @transition.Run.not_infinite _ _ (next_state ctx) (fun _ _ => True) (initial_state ctx) _ _
      (Nat.lt_wfRel.wf.prod_lex Nat.lt_wfRel.wf)
      (fun s => ((node_names ctx.graph).card * activation_bound ctx.graph ctx.max_traversals -
        s.activations.length, s.running.length)) ?_ ⟨states, cs, hstart, fun i => ⟨trivial, hsteps i⟩⟩
    intro cs s c next hreached _ hstep
    have hbound := run_activations_length_le (hreached.snoc trivial hstep)
    rw [Prod.lex_def]
    cases step_progress (run_countsBounded hreached) hstep with
    | inl hmore => exact Or.inl (Nat.sub_lt_sub_left (by omega) hmore)
    | inr hless => exact Or.inr ⟨by rw [hless.1], hless.2⟩
  · intro cs s hrun
    exact ⟨fun id => ⟨run_log_passes hrun id, run_countsBounded hrun id⟩, run_activation_count_le hrun⟩

end flow_engine.executor
