import FlowEngine.Executor.Dag.Once

namespace flow_engine.executor

open dataflow (Activated Legal found keys)

/-- The handlers that compute a function of the node and its inputs. -/
def functional (eval : String → Value → Value) : Handlers := fun node_id inputs outcome =>
  outcome = .Success (eval node_id inputs)

/-- The runs of functional handlers. -/
abbrev FunctionalRun (ctx : RunContext) (eval : String → Value → Value) : List Completion → RunState → Prop :=
  RunOf ctx (functional eval).of_task

/-- A task returning with what its handler computes. -/
def finish (eval : String → Value → Value) (task : Task) : Completion where
  task := task.id
  joined := .returned (.Success (eval task.node_id task.inputs)) []

/-- The state of a fan-out after the instances at some positions were joined, in this
order. The number of slots and the slot of a position are both cut to a `u32`. -/
def filled (eval : String → Value → Value) (node_id : String) (items : List Value) (positions : List Nat) :
    FanOutState where
  expected := items.length % 2 ^ 32
  results := positions.foldl (fun results position =>
      results.set (position % 2 ^ 32) (some (eval node_id (items[position]?.getD .null))))
    (List.replicate (items.length % 2 ^ 32) none)
  completed := positions.length

/-- The ends a node can come to when its handler computes a function. A fan-in is over
as soon as it has as many results as slots, whichever instances they are from. -/
inductive Computes (eval : String → Value → Value) (node_id : String) : Work → NodeEnd → Prop
  | plain {inputs : Value} : Computes eval node_id (.plain inputs) (.done (eval node_id inputs) false)
  | fan_in {items : List Value} {positions : List Nat} (hne : positions ≠ []) (hnodup : positions.Nodup)
      (hbound : ∀ position ∈ positions, position < items.length ∧ position % 2 ^ 32 < items.length % 2 ^ 32)
      (hall : positions.length = items.length % 2 ^ 32) :
      Computes eval node_id (.fan_out items) (.done (merged_output (filled eval node_id items positions)) true)

section Filled

variable {eval : String → Value → Value} {node_id : String} {items : List Value} {positions : List Nat}

theorem filled_nil : filled eval node_id items [] = fresh_fan_out items := rfl

theorem filled_snoc (position : Nat) : filled eval node_id items (positions ++ [position]) =
    fill_slot (filled eval node_id items positions) (position % 2 ^ 32)
      (.Success (eval node_id (items[position]?.getD .null))) := by
  simp [filled, fill_slot, fan_out_result, List.foldl_append]

/-- An instance fills the slot of its position with what it computes on its item. -/
theorem filled_snoc_item {position : Nat} {item : Value} (hitem : items[position]? = some item) :
    filled eval node_id items (positions ++ [position]) =
      fill_slot (filled eval node_id items positions) (position % 2 ^ 32) (.Success (eval node_id item)) := by
  rw [filled_snoc, hitem]
  rfl

theorem filled_results_length : (filled eval node_id items positions).results.length = items.length % 2 ^ 32 := by
  induction positions using List.reverseRecOn with
  | nil => exact List.length_replicate
  | append_singleton positions position ih =>
    rw [filled_snoc]
    exact List.length_set.trans ih

/-- Where an end of a node is computed the node is done. -/
theorem Computes.done {w : Work} {r : NodeEnd} (h : Computes eval node_id w r) :
    ∃ outputs from_fan_in, r = .done outputs from_fan_in := by
  cases h with
  | plain => exact ⟨_, _, rfl⟩
  | fan_in _ _ _ _ => exact ⟨_, _, rfl⟩

/-- A slot holds what the instance at its position computed once that instance was joined. -/
theorem filled_results_getElem? (hshort : items.length < 2 ^ 32) (hlt : ∀ position ∈ positions, position < items.length)
    {i : Nat} (hi : i < items.length) : (filled eval node_id items positions).results[i]? =
      some (if i ∈ positions then some (eval node_id (items[i]?.getD .null)) else none) := by
  have hcut : items.length % 2 ^ 32 = items.length := Nat.mod_eq_of_lt hshort
  induction positions using List.reverseRecOn with
  | nil =>
    rw [filled_nil, fresh_fan_out, hcut]
    simp [hi]
  | append_singleton positions position ih =>
    have hposition : position % 2 ^ 32 = position :=
      Nat.mod_eq_of_lt ((hlt position (by simp)).trans hshort)
    have hlength : i < (filled eval node_id items positions).results.length := by
      rw [filled_results_length, hcut]
      exact hi
    rw [filled_snoc, hposition, fill_slot, List.getElem?_set,
      ih fun p hp => hlt p (List.mem_append_left _ hp)]
    by_cases heq : position = i
    · simp [heq, hlength, fan_out_result]
    · have hne : ¬ i = position := fun h => heq h.symm
      simp [heq, hne]

/-- A fan-in over fewer than `2 ^ 32` items ends in one way, with the results of all of
them in order. -/
theorem Computes.short {r : NodeEnd} (hshort : items.length < 2 ^ 32) (h : Computes eval node_id (.fan_out items) r) :
    r = .done (.array (items.map (eval node_id))) true := by
  have hcut : items.length % 2 ^ 32 = items.length := Nat.mod_eq_of_lt hshort
  cases h with
  | @fan_in _ positions _ hnodup hbound hall =>
    have hlt : ∀ position ∈ positions, position < items.length := fun p hp => (hbound p hp).1
    have hfull : ∀ i < items.length, i ∈ positions := by
      have hsub : positions ⊆ List.range items.length := fun p hp => List.mem_range.mpr (hlt p hp)
      have hperm := (hnodup.subperm hsub).perm_of_length_le (by rw [hall, hcut, List.length_range])
      exact fun i hi => hperm.mem_iff.mpr (List.mem_range.mpr hi)
    have hresults : (filled eval node_id items positions).results.map (fun r => r.getD .null) =
        items.map (eval node_id) := by
      apply List.ext_getElem?
      intro i
      by_cases hi : i < items.length
      · rw [List.getElem?_map, filled_results_getElem? hshort hlt hi, if_pos (hfull i hi)]
        simp [hi]
      · have hlong : items.length ≤ i := Nat.le_of_not_lt hi
        have hnone : (filled eval node_id items positions).results.length ≤ i := by
          rw [filled_results_length, hcut]
          exact hlong
        rw [List.getElem?_eq_none (by simpa using hnone), List.getElem?_eq_none (by simpa using hlong)]
    rw [merged_output, hresults]

end Filled

/-- A fan-out that waits for instances: those at some positions were joined, all others
are in flight. -/
structure Filling (eval : String → Value → Value) (s : RunState) (node_id : String) (items : List Value)
    (positions : List Nat) : Prop where
  state_eq : s.fan_out_states node_id = some (filled eval node_id items positions)
  activation : ⟨node_id, .fan_out items⟩ ∈ s.activations
  nonempty : items ≠ []
  split : ((s.running.filter (is_instance_of node_id)).map (fun task => task.id.position) ++ positions).Perm
    (List.range items.length)
  slots : ∀ position ∈ positions, position % 2 ^ 32 < items.length % 2 ^ 32
  unfinished : positions = [] ∨ positions.length < items.length % 2 ^ 32

/-- Every fan-out state belongs to a fan-out that waits for instances. -/
def AllFilling (eval : String → Value → Value) (s : RunState) : Prop :=
  ∀ n, s.fan_out_states n ≠ none → ∃ items positions, Filling eval s n items positions

section Frame

variable {eval : String → Value → Value} {s next : RunState} {n : String} {items : List Value}
  {positions : List Nat}

/-- A fan-out is told by its state, its activation and its instances in flight. -/
theorem Filling.congr (h : Filling eval s n items positions) (hstate : next.fan_out_states n = s.fan_out_states n)
    (hactivations : ∀ activation ∈ s.activations, activation ∈ next.activations)
    (hrunning : (next.running.filter (is_instance_of n)).Perm (s.running.filter (is_instance_of n))) :
    Filling eval next n items positions := by
  refine ⟨hstate.trans h.state_eq, hactivations _ h.activation, h.nonempty, ?_, h.slots, h.unfinished⟩
  exact ((hrunning.map _).append_right _).trans h.split

/-- An instance of a waiting fan-out is left. -/
theorem Filling.running_ne_nil (h : Filling eval s n items positions) : s.running ≠ [] := by
  intro hempty
  have hlength := h.split.length_eq
  have hpositive : 0 < items.length := List.length_pos_iff.mpr h.nonempty
  have hcut : items.length % 2 ^ 32 ≤ items.length := Nat.mod_le _ _
  simp only [hempty, List.filter_nil, List.map_nil, List.nil_append, List.length_range] at hlength
  rcases h.unfinished with hnil | hlt
  · rw [hnil, List.length_nil] at hlength
    omega
  · omega

end Frame

section Spawned

variable {ctx : RunContext} {eval : String → Value → Value} {s : RunState}

/-- A ready node that was not started before. -/
structure Unstarted (ctx : RunContext) (s : RunState) (ready : ReadyNode) : Prop where
  spawnable : spawnable ctx ready.node_id = true
  no_state : s.fan_out_states ready.node_id = none
  no_task : ∀ task ∈ s.running, task.node_id ≠ ready.node_id
  items_ne_nil : ∀ items, ready.fan_out_items = some items → items ≠ []

/-- The tasks a spawn adds are those of its node. -/
theorem spawn_ready_node_running (ctx : RunContext) (s : RunState) (ready : ReadyNode) :
    ∃ tasks, (spawn_ready_node ctx s ready).running = s.running ++ tasks ∧
      ∀ task ∈ tasks, task.node_id = ready.node_id := by
  cases hitems : ready.fan_out_items with
  | none =>
    rw [spawn_ready_node_plain ctx s hitems, spawn_plain_eq]
    by_cases hspawnable : executor.spawnable ctx ready.node_id = true
    · rw [if_pos hspawnable]
      exact ⟨_, rfl, by simp [plain_task]⟩
    · rw [if_neg hspawnable]
      exact ⟨[], (List.append_nil _).symm, by simp⟩
  | some items =>
    rw [spawn_ready_node_fan_out ctx s hitems, spawn_fan_out_eq]
    refine ⟨_, rfl, ?_⟩
    intro task htask
    split at htask
    · obtain ⟨item, _, rfl⟩ := List.mem_map.mp htask
      rfl
    · cases htask

theorem Unstarted.spawn_other {ready other : ReadyNode} (hne : other.node_id ≠ ready.node_id)
    (h : Unstarted ctx s other) : Unstarted ctx (spawn_ready_node ctx s ready) other := by
  obtain ⟨_, _, hfan⟩ := spawn_ready_node_other ctx s ready hne
  obtain ⟨tasks, hrunning, htasks⟩ := spawn_ready_node_running ctx s ready
  refine ⟨h.spawnable, hfan.trans h.no_state, ?_, h.items_ne_nil⟩
  intro task htask
  rw [hrunning] at htask
  cases List.mem_append.mp htask with
  | inl hold => exact h.no_task task hold
  | inr hnew => exact (htasks task hnew).trans_ne hne.symm

/-- The fan-outs of other nodes do not notice a spawn. -/
theorem Filling.spawn_other {ready : ReadyNode} {n : String} {items : List Value} {positions : List Nat}
    (h : Filling eval s n items positions) (hne : n ≠ ready.node_id) :
    Filling eval (spawn_ready_node ctx s ready) n items positions := by
  obtain ⟨_, _, hfan⟩ := spawn_ready_node_other ctx s ready hne
  obtain ⟨tasks, hrunning, htasks⟩ := spawn_ready_node_running ctx s ready
  obtain ⟨more, hmore⟩ := spawn_ready_node_activations ctx s ready
  apply h.congr hfan
  · intro activation hmem
    rw [hmore]
    exact List.mem_append_left _ hmem
  · have hnone : tasks.filter (is_instance_of n) = [] := by
      rw [List.filter_eq_nil_iff]
      intro task htask
      simp [is_instance_of, htasks task htask, hne.symm]
    rw [hrunning, List.filter_append, hnone, List.append_nil]

/-- A fan-out waits for all its instances when it starts. -/
theorem Filling.spawned {ready : ReadyNode} (hready : Unstarted ctx s ready) {items : List Value}
    (hitems : ready.fan_out_items = some items) :
    Filling eval (spawn_ready_node ctx s ready) ready.node_id items [] := by
  rw [spawn_ready_node_fan_out ctx s hitems, spawn_fan_out_eq, if_pos hready.spawnable]
  constructor
  · exact Function.update_self _ _ _
  · simp
  · exact hready.items_ne_nil items hitems
  · have hnone : s.running.filter (is_instance_of ready.node_id) = [] := by
      rw [List.filter_eq_nil_iff]
      intro task htask
      simp [is_instance_of, hready.no_task task htask]
    have hall : (instance_tasks (reopen s ready) ready.node_id items).filter (is_instance_of ready.node_id) =
        instance_tasks (reopen s ready) ready.node_id items := by
      rw [List.filter_eq_self]
      intro task htask
      obtain ⟨item, _, rfl⟩ := List.mem_map.mp htask
      simp [is_instance_of]
    have hpositions : (instance_tasks (reopen s ready) ready.node_id items).map (fun task => task.id.position) =
        List.range items.length := by
      calc (instance_tasks (reopen s ready) ready.node_id items).map (fun task => task.id.position)
          = items.zipIdx.map Prod.snd := by
            simp only [instance_tasks, List.map_map]
            rfl
        _ = List.range items.length := by rw [List.zipIdx_map_snd, List.range_eq_range']
    rw [reopen_running, List.filter_append, hnone, hall, List.nil_append, List.append_nil, hpositions]
  · simp
  · exact Or.inl rfl

theorem AllFilling.spawned {ready : ReadyNode} (h : AllFilling eval s) (hready : Unstarted ctx s ready) :
    AllFilling eval (spawn_ready_node ctx s ready) := by
  intro n hne
  by_cases hn : n = ready.node_id
  · subst hn
    cases hitems : ready.fan_out_items with
    | none =>
      rw [spawn_ready_node_plain ctx s hitems, spawn_plain_fan_out_states] at hne
      exact absurd hready.no_state hne
    | some items => exact ⟨items, [], .spawned hready hitems⟩
  · obtain ⟨_, _, hfan⟩ := spawn_ready_node_other ctx s ready hn
    rw [hfan] at hne
    obtain ⟨items, positions, hfilling⟩ := h n hne
    exact ⟨items, positions, hfilling.spawn_other hn⟩

theorem AllFilling.spawned_all {nodes : List ReadyNode} (h : AllFilling eval s)
    (hnodup : (nodes.map ReadyNode.node_id).Nodup) (hready : ∀ ready ∈ nodes, Unstarted ctx s ready) :
    AllFilling eval (spawn_ready_nodes ctx nodes s) :=
  spawn_ready_nodes_induction (P := AllFilling eval) (R := Unstarted ctx) (fun _ _ hs hready => hs.spawned hready)
    (fun _ _ _ hne _ hother => hother.spawn_other hne) hnodup h hready

/-- What the end of a node starts was not started before, so the fan-outs stay waiting. -/
theorem Ended.filling_downstream {ends : WorkEnds} {order : List (String × NodeEnd)} {x : String} {value : Value}
    {from_fan_in : Bool} (h : Ended ctx ends order x (.done value from_fan_in) s) (haccepted : Accepted ctx)
    (hacyclic : digraph.Acyclic (GraphEdge ctx.graph)) (hcounts : CountsBounded ctx s.edge_traversal_counts)
    (hrecorded : ∀ task ∈ s.running, Recorded s.activations task) (hfilling : AllFilling eval s) :
    AllFilling eval (evaluate_downstream ctx s x value from_fan_in) := by
  rw [evaluate_downstream_eq hcounts]
  apply AllFilling.spawned_all
  · intro n hne
    obtain ⟨items, positions, hfilled⟩ := hfilling n hne
    exact ⟨items, positions, hfilled.congr rfl (fun _ hmem => hmem) (.refl _)⟩
  · exact ready_nodes_nodup ctx s x value from_fan_in
  · intro ready hready
    have hspawnable := ready_nodes_spawnable haccepted s x value from_fan_in ready hready
    obtain ⟨edge, hedge, rfl⟩ := List.mem_map.mp hready
    obtain ⟨hmem, hfrom, _⟩ := mem_starting_edges hedge
    have hsource : x ∈ sources ctx edge.to_node := mem_sources.mpr ⟨edge, hmem, hfrom, rfl⟩
    obtain ⟨_, _, _, hstate⟩ := h.target_untouched hacyclic hsource
    refine ⟨hspawnable, hstate, ?_, ?_⟩
    · intro task htask hnode
      obtain ⟨work, hactivation, _⟩ := hrecorded task htask
      rw [hnode] at hactivation
      exact h.target_not_activated hsource work ((h.activated _ _).mp (List.mem_of_getElem? hactivation))
    · intro items hitems
      exact (fan_out_items_eq_some hitems).2.1

end Spawned

section Join

variable {ctx : RunContext} {eval : String → Value → Value} {order : List (String × NodeEnd)} {s : RunState}
  {c : Completion} {task : Task}

/-- Joining a task leaves the instances of other nodes in flight. -/
theorem filter_eraseP_other (hfind : s.running.find? (fun task => task.id = c.task) = some task) {n : String}
    (hother : is_instance_of n task = false) :
    ((s.running.eraseP fun task => task.id = c.task).filter (is_instance_of n)).Perm
      (s.running.filter (is_instance_of n)) := by
  have hperm := (running_perm hfind).filter (is_instance_of n)
  rw [List.filter_cons, if_neg (by simp [hother])] at hperm
  exact hperm.symm

/-- The fan-outs the joined task is no instance of stay waiting where their states stand. -/
theorem AllFilling.joined_other (h : AllFilling eval s)
    (hfind : s.running.find? (fun task => task.id = c.task) = some task) {next : RunState} {n : String}
    (hne : next.fan_out_states n ≠ none) (hother : is_instance_of n task = false)
    (hstate : next.fan_out_states n = s.fan_out_states n) (hactivations : next.activations = s.activations)
    (hrunning : next.running = s.running.eraseP fun task => task.id = c.task) :
    ∃ items positions, Filling eval next n items positions := by
  rw [hstate] at hne
  obtain ⟨items, positions, hfilling⟩ := h n hne
  refine ⟨items, positions, hfilling.congr hstate ?_ ?_⟩
  · rw [hactivations]
    exact fun _ hmem => hmem
  · rw [hrunning]
    exact filter_eraseP_other hfind hother

/-- An instance of a waiting fan-out has the item and the slot of its position. -/
theorem Filling.input {ends : WorkEnds} (h : Refines ctx ends order s) {items : List Value} {positions : List Nat}
    (hfilling : Filling eval s task.node_id items positions) (hrecorded : Recorded s.activations task) {index : Nat}
    (hindex : task.fan_out_index = some index) :
    index = task.id.position % 2 ^ 32 ∧ items[task.id.position]? = some task.inputs := by
  obtain ⟨work, hactivation, hwork⟩ := hrecorded
  have hactive := (h.activated _ _).mp (List.mem_of_getElem? hactivation)
  have hsame := hactive.unique h.legal.nodup ((h.activated _ _).mp hfilling.activation)
  subst hsame
  cases hwork with
  | fan_out hitem hposition =>
    rw [hindex] at hposition
    exact ⟨Option.some.inj hposition, hitem⟩

variable {items : List Value} {positions : List Nat}

/-- The instance at a position that was not joined is in flight. -/
theorem Filling.exists_instance {ends : WorkEnds} {n : String} (hfilling : Filling eval s n items positions)
    (h : Refines ctx ends order s) (hrecorded : ∀ task ∈ s.running, Recorded s.activations task) {position : Nat}
    (hlt : position < items.length) (hfresh : position ∉ positions) : ∃ task ∈ s.running,
      task.node_id = n ∧ task.id.position = position ∧ task.fan_out_index = some (position % 2 ^ 32) ∧
        items[position]? = some task.inputs := by
  have hmem := (List.mem_append.mp (hfilling.split.mem_iff.mpr (List.mem_range.mpr hlt))).resolve_right hfresh
  obtain ⟨task, htask, rfl⟩ := List.mem_map.mp hmem
  obtain ⟨hrunning, hkind⟩ := List.mem_filter.mp htask
  simp only [is_instance_of, Bool.and_eq_true, decide_eq_true_eq] at hkind
  obtain ⟨rfl, hsome⟩ := hkind
  obtain ⟨index, hindex⟩ := Option.isSome_iff_exists.mp hsome
  obtain ⟨rfl, hinput⟩ := hfilling.input h (hrecorded task hrunning) hindex
  exact ⟨task, hrunning, rfl, rfl, hindex, hinput⟩

/-- The joined instance leaves the instances in flight. -/
theorem Filling.split_joined (h : Filling eval s task.node_id items positions)
    (hfind : s.running.find? (fun task => task.id = c.task) = some task) {index : Nat}
    (hindex : task.fan_out_index = some index) :
    (((s.running.eraseP fun task => task.id = c.task).filter (is_instance_of task.node_id)).map
      (fun task => task.id.position) ++ (positions ++ [task.id.position])).Perm (List.range items.length) := by
  have hkind : is_instance_of task.node_id task = true := by simp [is_instance_of, hindex]
  have hperm := ((running_perm hfind).filter (is_instance_of task.node_id)).map fun task => task.id.position
  rw [List.filter_cons, if_pos hkind, List.map_cons] at hperm
  have hsplit := (hperm.symm.append_right positions).trans h.split
  rw [← List.append_assoc]
  exact (List.perm_append_singleton _ _).trans hsplit

/-- An instance that is not the last one keeps its fan-out waiting. -/
theorem Filling.kept (h : Filling eval s task.node_id items positions)
    (hfind : s.running.find? (fun task => task.id = c.task) = some task)
    (hindex : task.fan_out_index = some (task.id.position % 2 ^ 32))
    (hinput : items[task.id.position]? = some task.inputs)
    (hslot : task.id.position % 2 ^ 32 < items.length % 2 ^ 32)
    (hmore : positions.length + 1 ≠ items.length % 2 ^ 32) :
    Filling eval (keep_fan_out (joined ctx s c task) task.node_id
      (fill_slot (filled eval task.node_id items positions) (task.id.position % 2 ^ 32)
        (.Success (eval task.node_id task.inputs)))) task.node_id items (positions ++ [task.id.position]) := by
  constructor
  · rw [filled_snoc_item hinput]
    exact Function.update_self _ _ _
  · exact h.activation
  · exact h.nonempty
  · exact h.split_joined hfind hindex
  · intro position hmem
    cases List.mem_append.mp hmem with
    | inl hold => exact h.slots position hold
    | inr hnew => exact List.mem_singleton.mp hnew ▸ hslot
  · right
    rw [List.length_append, List.length_singleton]
    rcases h.unfinished with hnil | hlt
    · rw [hnil, List.length_nil] at hmore ⊢
      omega
    · omega

/-- The last instance closes its fan-out with an end of its work. -/
theorem Filling.ends (h : Filling eval s task.node_id items positions)
    (hfind : s.running.find? (fun task => task.id = c.task) = some task)
    (hindex : task.fan_out_index = some (task.id.position % 2 ^ 32))
    (hinput : items[task.id.position]? = some task.inputs)
    (hslot : task.id.position % 2 ^ 32 < items.length % 2 ^ 32)
    (hlast : positions.length + 1 = items.length % 2 ^ 32) :
    Computes eval task.node_id (.fan_out items) (.done (merged_output
      (fill_slot (filled eval task.node_id items positions) (task.id.position % 2 ^ 32)
        (.Success (eval task.node_id task.inputs)))) true) := by
  have hsplit := h.split_joined hfind hindex
  rw [← filled_snoc_item hinput]
  apply Computes.fan_in
  · simp
  · exact (List.nodup_append.mp (hsplit.nodup_iff.mpr List.nodup_range)).2.1
  · intro position hmem
    refine ⟨List.mem_range.mp (hsplit.mem_iff.mp (List.mem_append_right _ hmem)), ?_⟩
    cases List.mem_append.mp hmem with
    | inl hold => exact h.slots position hold
    | inr hnew => exact List.mem_singleton.mp hnew ▸ hslot
  · simpa using hlast

end Join

end flow_engine.executor
