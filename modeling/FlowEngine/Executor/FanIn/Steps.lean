import FlowEngine.Executor.FanIn.Invariant

namespace flow_engine.executor

section Settle

variable {ctx : RunContext} {cs : List Completion} {rs : List Report} {s : RunState} {c : Completion} {task : Task}

/-- A joined plain task leaves the fan-outs as they are. -/
theorem FanIn.joined_plain (h : FanIn cs rs s) (hledger : Ledger (cs.map Completion.task) s)
    (hfind : s.running.find? (fun task => task.id = c.task) = some task) (hindex : task.fan_out_index = none)
    {next : RunState} (hfan : next.fan_out_states = s.fan_out_states) (hactivations : next.activations = s.activations) :
    FanIn (cs ++ [c]) rs next := by
  have hid : task.id = c.task := by simpa using List.find?_some hfind
  obtain ⟨work, hactivation, hwork⟩ := hledger.recorded task (List.mem_of_find?_eq_some hfind)
  have hne : ∀ n a (items : List Value), s.activations[a]? = some ⟨n, .fan_out items⟩ → c.task.activation ≠ a := by
    intro n a items ha heq
    rw [← heq, ← hid, hactivation] at ha
    cases ha
    cases hwork with
    | fan_out hitem hposition =>
      rw [hposition] at hindex
      cases hindex
  have hnil : rs ++ [] = rs := List.append_nil rs
  constructor
  · intro n hn a items ha
    rw [hfan] at hn
    rw [hactivations] at ha
    exact hnil ▸ (h.idle n hn a items ha).snoc (hne n a items ha) (by simp)
  · intro n state hn
    rw [hfan] at hn
    rw [hactivations]
    obtain ⟨a, items, ha, hopen, hothers⟩ := h.busy n state hn
    refine ⟨a, items, ha, hnil ▸ hopen.snoc (hne n a items ha) (by simp), ?_⟩
    intro a' items' hother ha'
    exact hnil ▸ (hothers a' items' hother ha').snoc (hne n a' items' ha') (by simp)
  · rw [hactivations]
    exact h.small
  · rw [hactivations]
    exact h.reported_lt

variable {items : List Value} {state : FanOutState} {outcome : NodeOutcome} {records : List LlmInvocationRecord}

/-- The slots after the joined instance. -/
theorem OpenInstance.results_snoc (h : OpenInstance cs rs s task items state) (hid : task.id = c.task)
    (hjoined : c.joined = .returned outcome records) :
    (fill_slot state task.id.position outcome).results = slots (cs ++ [c]) task.id.activation items := by
  have hfresh : c.task ∉ cs.map Completion.task := hid ▸ h.fresh
  rw [hid, slots_snoc_self hfresh hjoined, ← hid, ← h.is_open.results]
  rfl

theorem OpenInstance.completed_snoc (h : OpenInstance cs rs s task items state) (hid : task.id = c.task)
    (hjoined : c.joined = .returned outcome records) :
    state.completed + 1 = (slots (cs ++ [c]) task.id.activation items).countP Option.isSome := by
  have hfresh : c.task ∉ cs.map Completion.task := hid ▸ h.fresh
  have hposition : c.task.position < items.length := hid ▸ h.position_lt
  rw [hid, countP_slots_snoc hfresh hjoined hposition, ← hid, ← h.is_open.completed]

/-- With its last instance all of a fan-out's instances were joined. -/
theorem OpenInstance.all_joined (h : OpenInstance cs rs s task items state) (hid : task.id = c.task)
    (hjoined : c.joined = .returned outcome records) (hlast : state.completed + 1 = state.expected) :
    ∀ i < items.length, (outcome_of (cs ++ [c]) ⟨task.id.activation, i⟩).isSome := by
  have hfull : (slots (cs ++ [c]) task.id.activation items).countP Option.isSome =
      (slots (cs ++ [c]) task.id.activation items).length := by
    rw [← h.completed_snoc hid hjoined, hlast, h.is_open.expected, slots_length]
  intro i hi
  have hget := slots_getElem? (cs ++ [c]) task.id.activation hi
  have hsome := List.countP_eq_length.mp hfull _ (List.mem_of_getElem? hget)
  simpa using hsome

/-- Activations of other nodes are not the instance's. -/
theorem OpenInstance.activation_ne (h : OpenInstance cs rs s task items state) {n : String} {a : Nat}
    {items' : List Value} (hn : n ≠ task.node_id) (ha : s.activations[a]? = some ⟨n, .fan_out items'⟩) :
    a ≠ task.id.activation := by
  rintro rfl
  rw [h.activation] at ha
  cases ha
  exact hn rfl

/-- An instance that is not the last one keeps its fan-out open. -/
theorem FanIn.instance_kept (h : FanIn cs rs s) (hinst : OpenInstance cs rs s task items state)
    (hid : task.id = c.task) (hjoined : c.joined = .returned outcome records)
    (hmore : state.completed + 1 ≠ state.expected) :
    FanIn (cs ++ [c]) rs
      (keep_fan_out (joined ctx s c task) task.node_id (fill_slot state task.id.position outcome)) := by
  have hunfinished := hinst.is_open.unfinished
  have hnil : rs ++ [] = rs := List.append_nil rs
  have hother : ∀ n a (items' : List Value), a ≠ task.id.activation → FanOutClosed cs rs a n items' →
      FanOutClosed (cs ++ [c]) rs a n items' := fun n a items' hne hclosed =>
    hnil ▸ hclosed.snoc (hid ▸ hne.symm) (by simp)
  constructor
  · intro n hn a items' ha
    by_cases heq : n = task.node_id
    · subst heq
      simp [keep_fan_out] at hn
    · have hsame : s.fan_out_states n = none := (Function.update_of_ne heq _ _).symm.trans hn
      exact hother n a items' (hinst.activation_ne heq ha) (h.idle n hsame a items' ha)
  · intro n state' hn
    by_cases heq : n = task.node_id
    · subst heq
      have hstate : fill_slot state task.id.position outcome = state' := by simpa [keep_fan_out] using hn
      subst hstate
      refine ⟨task.id.activation, items, hinst.activation, ?_, ?_⟩
      · constructor
        · exact hinst.is_open.expected
        · exact hinst.results_snoc hid hjoined
        · exact hinst.completed_snoc hid hjoined
        · change state.completed + 1 < state.expected
          omega
        · exact hinst.is_open.unreported
      · intro a items' hne ha
        exact hother _ a items' hne (hinst.others a items' hne ha)
    · have hsame : s.fan_out_states n = some state' := (Function.update_of_ne heq _ _).symm.trans hn
      obtain ⟨a, its, ha, hopen, hothers⟩ := h.busy n state' hsame
      refine ⟨a, its, ha, hnil ▸ hopen.snoc (hid ▸ (hinst.activation_ne heq ha).symm) (by simp), ?_⟩
      intro a' its' hne ha'
      exact hother n a' its' (hinst.activation_ne heq ha') (hothers a' its' hne ha')
  · exact h.small
  · exact h.reported_lt

/-- The last instance closes its fan-out. -/
theorem FanIn.instance_last (h : FanIn cs rs s) (hinst : OpenInstance cs rs s task items state)
    (hid : task.id = c.task) (hjoined : c.joined = .returned outcome records)
    (hlast : state.completed + 1 = state.expected) :
    FanIn (cs ++ [c])
      (rs ++ [⟨task.id.activation, task.node_id, merged_output (fill_slot state task.id.position outcome)⟩])
      (complete_fan_in (joined ctx s c task) task.node_id (fill_slot state task.id.position outcome)) := by
  have hother : ∀ n a (items' : List Value), a ≠ task.id.activation → FanOutClosed cs rs a n items' →
      FanOutClosed (cs ++ [c])
        (rs ++ [⟨task.id.activation, task.node_id, merged_output (fill_slot state task.id.position outcome)⟩])
        a n items' := fun n a items' hne hclosed => hclosed.snoc (hid ▸ hne.symm) (by simpa using hne.symm)
  have hclosed : FanOutClosed (cs ++ [c])
      (rs ++ [⟨task.id.activation, task.node_id, merged_output (fill_slot state task.id.position outcome)⟩])
      task.id.activation task.node_id items := by
    constructor
    · exact hinst.all_joined hid hjoined hlast
    · rw [List.filter_append, hinst.is_open.unreported, ← hinst.results_snoc hid hjoined]
      simp [merged_output, gather]
  constructor
  · intro n hn a items' ha
    by_cases heq : n = task.node_id
    · subst heq
      by_cases hne : a = task.id.activation
      · subst hne
        have hitems := hinst.activation.symm.trans ha
        cases hitems
        exact hclosed
      · exact hother _ a items' hne (hinst.others a items' hne ha)
    · have hsame : s.fan_out_states n = none := (Function.update_of_ne heq _ _).symm.trans hn
      exact hother n a items' (hinst.activation_ne heq ha) (h.idle n hsame a items' ha)
  · intro n state' hn
    by_cases heq : n = task.node_id
    · subst heq
      simp [complete_fan_in] at hn
    · have hsame : s.fan_out_states n = some state' := (Function.update_of_ne heq _ _).symm.trans hn
      obtain ⟨a, its, ha, hopen, hothers⟩ := h.busy n state' hsame
      have hne := hinst.activation_ne heq ha
      refine ⟨a, its, ha, hopen.snoc (hid ▸ hne.symm) (by simpa using hne.symm), ?_⟩
      intro a' its' hne' ha'
      exact hother n a' its' (hinst.activation_ne heq ha') (hothers a' its' hne' ha')
  · exact h.small
  · intro r hr
    cases List.mem_append.mp hr with
    | inl hold => exact h.reported_lt r hold
    | inr hnew =>
      rw [List.mem_singleton.mp hnew]
      exact (List.getElem?_eq_some_iff.mp hinst.activation).1

end Settle

/-- Only a passed non-empty array is fanned out, and not one from a fan-in. -/
theorem fan_out_items_eq_some {outputs : Value} {edge : Edge} {from_fan_in : Bool} {items : List Value}
    (h : fan_out_items outputs edge from_fan_in = some items) :
    from_fan_in = false ∧ items ≠ [] ∧ resolve_edge_value outputs edge.from_port = .array items := by
  unfold fan_out_items at h
  cases from_fan_in with
  | true => simp at h
  | false =>
    simp only [Bool.false_eq_true, if_false] at h
    split at h
    · rename_i item rest hvalue
      cases h
      exact ⟨rfl, List.cons_ne_nil _ _, hvalue⟩
    · cases h

theorem spawn_ready_node_activations (ctx : RunContext) (s : RunState) (ready : ReadyNode) :
    ∃ more, (spawn_ready_node ctx s ready).activations = s.activations ++ more := by
  cases hitems : ready.fan_out_items with
  | none =>
    rw [spawn_ready_node_plain ctx s hitems, spawn_plain_eq]
    by_cases hspawnable : spawnable ctx ready.node_id = true
    · exact ⟨_, by rw [if_pos hspawnable]; rfl⟩
    · exact ⟨[], by rw [if_neg hspawnable]; simp⟩
  | some items =>
    rw [spawn_ready_node_fan_out ctx s hitems, spawn_fan_out_eq]
    exact ⟨_, rfl⟩

theorem FanIn.spawned_all {ctx : RunContext} {cs : List Completion} {rs : List Report} {s : RunState}
    {nodes : List ReadyNode} (h : FanIn cs rs s)
    (hlt : ∀ id ∈ cs.map Completion.task, id.activation < s.activations.length)
    (hnodup : (nodes.map ReadyNode.node_id).Nodup)
    (hready : ∀ ready ∈ nodes, ∀ items, ready.fan_out_items = some items →
      s.fan_out_states ready.node_id = none ∧ items ≠ [] ∧ items.length < 2 ^ 32) :
    FanIn cs rs (spawn_ready_nodes ctx nodes s) := by
  refine (spawn_ready_nodes_induction
    (P := fun s => FanIn cs rs s ∧ ∀ id ∈ cs.map Completion.task, id.activation < s.activations.length)
    (R := fun s ready => ∀ items, ready.fan_out_items = some items →
      s.fan_out_states ready.node_id = none ∧ items ≠ [] ∧ items.length < 2 ^ 32)
    ?_ ?_ hnodup ⟨h, hlt⟩ hready).1
  · intro s ready ⟨hs, hlt⟩ hready
    refine ⟨hs.spawned hlt hready, ?_⟩
    obtain ⟨more, hmore⟩ := spawn_ready_node_activations ctx s ready
    intro id hid
    have hid := hlt id hid
    rw [hmore, List.length_append]
    omega
  · intro s ready other hne _ hother items hitems
    obtain ⟨_, _, hfan⟩ := spawn_ready_node_other ctx s ready hne
    rw [hfan]
    exact hother items hitems

/-- The fan-outs a completed node starts are of nodes without a fan-out, over short
arrays. -/
theorem FanIn.fan_out_of_starting {ctx : RunContext} {cs : List Completion} {rs : List Report} {s : RunState}
    (h : FanIn cs rs s) {node_id : String} {outputs : Value} {from_fan_in : Bool}
    (hsmall : from_fan_in = false → SmallArrays ctx node_id outputs) {ready : ReadyNode}
    (hready : ready ∈ (starting_edges ctx s node_id outputs).map (ready_node s outputs from_fan_in))
    (items : List Value) (hitems : ready.fan_out_items = some items) :
    s.fan_out_states ready.node_id = none ∧ items ≠ [] ∧ items.length < 2 ^ 32 := by
  obtain ⟨edge, hedge, rfl⟩ := List.mem_map.mp hready
  obtain ⟨hmem, hfrom, _, hstart⟩ := mem_starting_edges hedge
  obtain ⟨hdirect, hne, hvalue⟩ := fan_out_items_eq_some hitems
  refine ⟨?_, hne, hsmall hdirect edge hmem hfrom items hvalue⟩
  apply h.none_of_not_running
  simp only [startable, in_flight, Bool.and_eq_true, Bool.not_eq_true', Bool.or_eq_false_iff] at hstart
  exact hstart.1.1

theorem FanIn.evaluated_downstream {ctx : RunContext} {cs : List Completion} {rs : List Report} {s : RunState}
    (h : FanIn cs rs s) (hlt : ∀ id ∈ cs.map Completion.task, id.activation < s.activations.length)
    (hcounts : CountsBounded ctx s.edge_traversal_counts) {node_id : String} {outputs : Value} {from_fan_in : Bool}
    (hsmall : from_fan_in = false → SmallArrays ctx node_id outputs) :
    FanIn cs rs (evaluate_downstream ctx s node_id outputs from_fan_in) := by
  rw [evaluate_downstream_eq hcounts]
  apply FanIn.spawned_all
  · exact ⟨h.idle, h.busy, h.small, h.reported_lt⟩
  · exact hlt
  · rw [List.map_map]
    exact starting_edges_nodup ctx s node_id outputs
  · exact fun ready hready => h.fan_out_of_starting hsmall hready

theorem FanIn.failure {ctx : RunContext} {cs : List Completion} {rs : List Report} {s : RunState}
    {node_id : String} (h : FanIn cs rs (fail_node s node_id))
    (hlt : ∀ id ∈ cs.map Completion.task, id.activation < s.activations.length) :
    FanIn cs rs (proceed_after_failure ctx s node_id) := by
  unfold proceed_after_failure
  generalize find_ready_after_failure ctx (fail_node s node_id) node_id = targets
  have hlt' : ∀ id ∈ cs.map Completion.task, id.activation < (fail_node s node_id).activations.length := hlt
  generalize fail_node s node_id = s' at h hlt'
  induction targets generalizing s' with
  | nil => exact h
  | cons target rest ih =>
    rw [List.foldl_cons]
    have hplain : spawn_ready_node ctx s' ⟨target, none, false⟩ = spawn_plain ctx s' target := rfl
    rw [← hplain]
    apply ih
    · exact h.spawned hlt' (by simp)
    · obtain ⟨more, hmore⟩ := spawn_ready_node_activations ctx s' ⟨target, none, false⟩
      intro id hid
      have hid := hlt' id hid
      rw [hmore, List.length_append]
      omega

/-- A step without a panic keeps every fan-out state with its one open fan-out. -/
theorem FanIn.step {ctx : RunContext} {cs : List Completion} {rs : List Report} {s next : RunState}
    {c : Completion} (h : FanIn cs rs s) (hledger : Ledger (cs.map Completion.task) s)
    (hcounts : CountsBounded ctx s.edge_traversal_counts) (hstep : next_state ctx s c = some next)
    {may : Task → NodeOutcome → Prop} (hallowed : Finishes may s c)
    (hsmall : ∀ task outputs, may task (.Success outputs) → SmallArrays ctx task.node_id outputs) :
    FanIn (cs ++ [c]) (rs ++ (report ctx s c).toList) next := by
  obtain ⟨task, hfind, hcase⟩ := next_state_cases hstep
  obtain ⟨found, hfound, outcome, records, hreturned, hmay⟩ := hallowed
  rw [hfind] at hfound
  cases hfound
  have hmem := List.mem_of_find?_eq_some hfind
  have hid : task.id = c.task := by simpa using List.find?_some hfind
  have hlt : ∀ id ∈ (cs ++ [c]).map Completion.task, id.activation < s.activations.length := by
    intro id hin
    rw [List.map_append, List.mem_append] at hin
    cases hin with
    | inl hold => exact hledger.joined_lt hold
    | inr hnew =>
      obtain ⟨work, hactivation, _⟩ := hledger.recorded task hmem
      have hsame : id = task.id := by simpa [hid] using hnew
      exact hsame ▸ (List.getElem?_eq_some_iff.mp hactivation).1
  cases hcase with
  | plain_success hjoined hindex =>
    rw [report_plain hfind hindex]
    rw [hreturned] at hjoined
    cases hjoined
    simp only [Option.toList_none, List.append_nil]
    apply FanIn.evaluated_downstream
    · exact h.joined_plain hledger hfind hindex rfl rfl
    · exact hlt
    · exact hcounts
    · exact fun _ => hsmall task _ hmay
  | plain_failure hjoined hindex =>
    rw [report_plain hfind hindex]
    simp only [Option.toList_none, List.append_nil]
    refine FanIn.failure ?_ hlt
    exact h.joined_plain hledger hfind hindex rfl rfl
  | panic hjoined =>
    rw [hreturned] at hjoined
    cases hjoined
  | instance_dropped hjoined hindex hstate =>
    obtain ⟨items, state, hinst⟩ := h.open_instance hledger hmem hindex
    rw [hinst.state_eq] at hstate
    cases hstate
  | instance_kept hjoined hindex hstate hbound hmore =>
    rw [report_kept hfind hjoined hindex hstate hbound hmore]
    simp only [Option.toList_none, List.append_nil]
    obtain ⟨items, state, hinst⟩ := h.open_instance hledger hmem hindex
    rw [hinst.state_eq] at hstate
    cases hstate
    rw [hinst.index] at hindex
    cases hindex
    exact h.instance_kept hinst hid hjoined hmore
  | fan_in hjoined hindex hstate hbound hlast =>
    rw [report_fan_in hfind hjoined hindex hstate hbound hlast]
    obtain ⟨items, state, hinst⟩ := h.open_instance hledger hmem hindex
    rw [hinst.state_eq] at hstate
    cases hstate
    rw [hinst.index] at hindex
    cases hindex
    apply FanIn.evaluated_downstream
    · exact h.instance_last hinst hid hjoined hlast
    · exact hlt
    · exact hcounts
    · exact fun hdirect => absurd hdirect (by simp)

theorem FanIn.initial {ctx : RunContext} (haccepted : Accepted ctx) : FanIn [] [] (initial_state ctx) := by
  rw [initial_state_eq fun entry hentry => entry_nodes_spawnable haccepted hentry]
  have hplain : ∀ n (a : Nat) (items : List Value),
      ((entry_nodes ctx).map fun entry => (⟨entry, .plain ctx.inputs⟩ : Activation))[a]? ≠
        some ⟨n, .fan_out items⟩ := by
    intro n a items ha
    obtain ⟨entry, _, heq⟩ := List.mem_map.mp (List.mem_of_getElem? ha)
    cases heq
  constructor
  · exact fun n _ a items ha => absurd ha (hplain n a items)
  · intro n state hn
    cases hn
  · exact fun n a items ha => absurd ha (hplain n a items)
  · simp

theorem run_fanIn {ctx : RunContext} (haccepted : Accepted ctx) {may : Task → NodeOutcome → Prop}
    (hsmall : ∀ task outputs, may task (.Success outputs) → SmallArrays ctx task.node_id outputs)
    {cs : List Completion} {s : RunState} (hrun : RunOf ctx may cs s) :
    FanIn cs (reports ctx (initial_state ctx) cs) s := by
  refine hrun.invariant (P := fun cs s => FanIn cs (reports ctx (initial_state ctx) cs) s)
    (FanIn.initial haccepted) ?_
  intro cs s c next hreached h hallowed hstep
  rw [reports_snoc hreached]
  exact h.step (run_ledger haccepted hreached) (run_countsBounded hreached) hstep hallowed hsmall

end flow_engine.executor
