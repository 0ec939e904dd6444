import FlowEngine.Executor.FanIn.Reports

namespace flow_engine.executor

/-- The arrays a node sends through its edges have fewer than `2 ^ 32` elements. -/
def SmallArrays (ctx : RunContext) (node_id : String) (outputs : Value) : Prop :=
  ∀ edge ∈ ctx.graph.edges, edge.from_node = node_id → ∀ items,
    resolve_edge_value outputs edge.from_port = .array items → items.length < 2 ^ 32

/-- A fan-out whose instances were all joined was reported once, with the array of
what they left. -/
structure FanOutClosed (cs : List Completion) (rs : List Report) (activation : Nat) (node_id : String)
    (items : List Value) : Prop where
  joined : ∀ i < items.length, (outcome_of cs ⟨activation, i⟩).isSome
  reported : rs.filter (fun r => r.activation = activation) =
    [⟨activation, node_id, gather (slots cs activation items)⟩]

/-- A fan-out that waits for instances: its state holds what the joined ones left. -/
structure FanOutOpen (cs : List Completion) (rs : List Report) (activation : Nat) (items : List Value)
    (state : FanOutState) : Prop where
  expected : state.expected = items.length
  results : state.results = slots cs activation items
  completed : state.completed = (slots cs activation items).countP Option.isSome
  unfinished : state.completed < state.expected
  unreported : rs.filter (fun r => r.activation = activation) = []

/-- The fan-out state of a node belongs to its one open fan-out; all its other
fan-outs are closed. -/
structure FanIn (cs : List Completion) (rs : List Report) (s : RunState) : Prop where
  idle : ∀ n, s.fan_out_states n = none → ∀ a items, s.activations[a]? = some ⟨n, .fan_out items⟩ →
    FanOutClosed cs rs a n items
  busy : ∀ n state, s.fan_out_states n = some state → ∃ a items,
    s.activations[a]? = some ⟨n, .fan_out items⟩ ∧ FanOutOpen cs rs a items state ∧
    ∀ a' items', a' ≠ a → s.activations[a']? = some ⟨n, .fan_out items'⟩ → FanOutClosed cs rs a' n items'
  small : ∀ n (a : Nat) (items : List Value), s.activations[a]? = some ⟨n, .fan_out items⟩ → items.length < 2 ^ 32
  reported_lt : ∀ r ∈ rs, r.activation < s.activations.length

section Snoc

variable {cs : List Completion} {rs more : List Report} {c : Completion} {a : Nat} {items : List Value}
  (hne : c.task.activation ≠ a) (hmore : ∀ r ∈ more, r.activation ≠ a)

include hmore in
theorem filter_reports_append :
    (rs ++ more).filter (fun r => r.activation = a) = rs.filter fun r => r.activation = a := by
  have hnil : more.filter (fun r => r.activation = a) = [] := by
    rw [List.filter_eq_nil_iff]
    intro r hr
    simpa using hmore r hr
  rw [List.filter_append, hnil, List.append_nil]

include hne hmore

/-- A completion leaves the fan-outs of other activations as they are. -/
theorem FanOutClosed.snoc {node_id : String} (h : FanOutClosed cs rs a node_id items) :
    FanOutClosed (cs ++ [c]) (rs ++ more) a node_id items := by
  constructor
  · intro i hi
    rw [outcome_of_snoc_other fun heq => hne (congrArg TaskId.activation heq)]
    exact h.joined i hi
  · rw [filter_reports_append hmore, slots_snoc_other hne]
    exact h.reported

theorem FanOutOpen.snoc {state : FanOutState} (h : FanOutOpen cs rs a items state) :
    FanOutOpen (cs ++ [c]) (rs ++ more) a items state := by
  constructor
  · exact h.expected
  · rw [slots_snoc_other hne]
    exact h.results
  · rw [slots_snoc_other hne]
    exact h.completed
  · exact h.unfinished
  · rw [filter_reports_append hmore]
    exact h.unreported

end Snoc

/-- A fan-out state whose node can be started is absent. -/
theorem FanIn.none_of_not_running {cs : List Completion} {rs : List Report} {s : RunState} (h : FanIn cs rs s)
    {n : String} (hfan : is_fan_out_running s n = false) : s.fan_out_states n = none := by
  cases hstate : s.fan_out_states n with
  | none => rfl
  | some state =>
    obtain ⟨a, items, _, hopen, _⟩ := h.busy n state hstate
    have hunfinished := hopen.unfinished
    simp [is_fan_out_running, hstate] at hfan
    omega

theorem getElem?_append_of_some {activations : List Activation} {activation : Activation} {a : Nat}
    (h : activations[a]? = some activation) (more : List Activation) :
    (activations ++ more)[a]? = some activation := by
  rw [List.getElem?_append_left (List.getElem?_eq_some_iff.mp h).1]
  exact h

/-- A fan-out activation is not the plain one at the end of the list. -/
theorem getElem?_append_plain {activations : List Activation} {node_id n : String} {inputs : Value} {a : Nat}
    {items : List Value}
    (h : (activations ++ [⟨node_id, .plain inputs⟩])[a]? = some ⟨n, .fan_out items⟩) :
    activations[a]? = some ⟨n, .fan_out items⟩ := by
  by_cases ha : a < activations.length
  · rwa [List.getElem?_append_left ha] at h
  · have hle : activations.length ≤ a := Nat.le_of_not_lt ha
    rw [List.getElem?_append_right hle] at h
    cases hsub : a - activations.length with
    | zero => simp [hsub] at h
    | succ m => simp [hsub] at h

/-- A fan-out activation is an old one or the one at the end of the list. -/
theorem getElem?_append_fan_out {activations : List Activation} {node_id n : String} {items its : List Value} {a : Nat}
    (h : (activations ++ [⟨node_id, .fan_out items⟩])[a]? = some ⟨n, .fan_out its⟩) :
    activations[a]? = some ⟨n, .fan_out its⟩ ∨ (a = activations.length ∧ n = node_id ∧ its = items) := by
  by_cases hlt : a < activations.length
  · rw [List.getElem?_append_left hlt] at h
    exact Or.inl h
  · rw [List.getElem?_append_right (Nat.le_of_not_lt hlt)] at h
    cases hsub : a - activations.length with
    | zero =>
      simp only [hsub, List.getElem?_cons_zero, Option.some.injEq, Activation.mk.injEq, Work.fan_out.injEq] at h
      exact Or.inr ⟨by omega, h.1.symm, h.2.symm⟩
    | succ m => simp [hsub] at h

/-- No slot of an activation is filled before it exists. -/
theorem slots_fresh {cs : List Completion} {activation : Nat}
    (hfresh : ∀ id ∈ cs.map Completion.task, id.activation < activation) (items : List Value) :
    slots cs activation items = List.replicate items.length none := by
  apply List.ext_getElem?
  intro i
  by_cases hi : i < items.length
  · have houtcome : outcome_of cs ⟨activation, i⟩ = none :=
      outcome_of_eq_none fun hmem => Nat.lt_irrefl _ (hfresh _ hmem)
    rw [slots_getElem? _ _ hi, houtcome]
    simp [hi]
  · have hlong : items.length ≤ i := Nat.le_of_not_lt hi
    rw [List.getElem?_eq_none (by simpa using hlong), List.getElem?_eq_none (by simpa using hlong)]

/-- A fan-out is open when it starts. -/
theorem FanOutOpen.fresh {cs : List Completion} {rs : List Report} {activation : Nat}
    (hfresh : ∀ id ∈ cs.map Completion.task, id.activation < activation)
    (hreported : ∀ r ∈ rs, r.activation < activation) {items : List Value} (hne : items ≠ [])
    (hsmall : items.length < 2 ^ 32) : FanOutOpen cs rs activation items (fresh_fan_out items) := by
  have hmod : items.length % 2 ^ 32 = items.length := Nat.mod_eq_of_lt hsmall
  constructor
  · exact hmod
  · rw [slots_fresh hfresh, fresh_fan_out, hmod]
  · rw [slots_fresh hfresh, List.countP_eq_zero.mpr (by simp)]
    rfl
  · change 0 < items.length % 2 ^ 32
    rw [hmod]
    exact List.length_pos_iff.mpr hne
  · rw [List.filter_eq_nil_iff]
    intro r hr
    have hlt := hreported r hr
    simp only [decide_eq_true_eq]
    omega

section Spawned

variable {ctx : RunContext} {cs : List Completion} {rs : List Report} {s : RunState} {ready : ReadyNode}

theorem FanIn.spawned_plain (h : FanIn cs rs s) (hplain : ready.fan_out_items = none) :
    FanIn cs rs (spawn_ready_node ctx s ready) := by
  rw [spawn_ready_node_plain ctx s hplain, spawn_plain_eq]
  by_cases hspawnable : spawnable ctx ready.node_id = true
  · rw [if_pos hspawnable]
    constructor
    · exact fun n hn a items ha => h.idle n hn a items (getElem?_append_plain ha)
    · intro n state hn
      obtain ⟨a, items, ha, hopen, hothers⟩ := h.busy n state hn
      exact ⟨a, items, getElem?_append_of_some ha _, hopen,
        fun a' items' hne ha' => hothers a' items' hne (getElem?_append_plain ha')⟩
    · exact fun n a items ha => h.small n a items (getElem?_append_plain ha)
    · intro r hr
      have hlt := h.reported_lt r hr
      simp only [List.length_append, reopen_activations]
      omega
  · rw [if_neg hspawnable]
    exact ⟨h.idle, h.busy, h.small, h.reported_lt⟩

theorem FanIn.spawned_fan_out (h : FanIn cs rs s)
    (hledger : ∀ id ∈ cs.map Completion.task, id.activation < s.activations.length) {items : List Value}
    (hitems : ready.fan_out_items = some items) (hnone : s.fan_out_states ready.node_id = none) (hne_nil : items ≠ [])
    (hsmall : items.length < 2 ^ 32) : FanIn cs rs (spawn_ready_node ctx s ready) := by
  rw [spawn_ready_node_fan_out ctx s hitems, spawn_fan_out_eq]
  constructor
  · intro n hn a its ha
    by_cases heq : n = ready.node_id
    · subst heq
      simp at hn
    · have hsame : s.fan_out_states n = none := (Function.update_of_ne heq _ _).symm.trans hn
      cases getElem?_append_fan_out ha with
      | inl ha => exact h.idle n hsame a its ha
      | inr hnew => exact absurd hnew.2.1 heq
  · intro n state hn
    by_cases heq : n = ready.node_id
    · subst heq
      have hstate : fresh_fan_out items = state := by simpa using hn
      subst hstate
      refine ⟨s.activations.length, items, by simp, .fresh hledger h.reported_lt hne_nil hsmall, ?_⟩
      intro a its hne ha
      cases getElem?_append_fan_out ha with
      | inl ha => exact h.idle _ hnone a its ha
      | inr hnew => exact absurd hnew.1 hne
    · have hsame : s.fan_out_states n = some state := (Function.update_of_ne heq _ _).symm.trans hn
      obtain ⟨a, its, ha, hits, hothers⟩ := h.busy n state hsame
      refine ⟨a, its, getElem?_append_of_some ha _, hits, ?_⟩
      intro a' its' hne ha'
      cases getElem?_append_fan_out ha' with
      | inl ha' => exact hothers a' its' hne ha'
      | inr hnew => exact absurd hnew.2.1 heq
  · intro n a its ha
    cases getElem?_append_fan_out ha with
    | inl ha => exact h.small n a its ha
    | inr hnew => exact hnew.2.2 ▸ hsmall
  · intro r hr
    have hlt := h.reported_lt r hr
    simp only [List.length_append, reopen_activations]
    omega

/-- The spawn of a node that is not fanning out opens at most its new fan-out. -/
theorem FanIn.spawned (h : FanIn cs rs s) (hledger : ∀ id ∈ cs.map Completion.task, id.activation < s.activations.length)
    (hready : ∀ items, ready.fan_out_items = some items →
      s.fan_out_states ready.node_id = none ∧ items ≠ [] ∧ items.length < 2 ^ 32) :
    FanIn cs rs (spawn_ready_node ctx s ready) := by
  cases hitems : ready.fan_out_items with
  | none => exact h.spawned_plain hitems
  | some items =>
    obtain ⟨hnone, hne_nil, hsmall⟩ := hready items hitems
    exact h.spawned_fan_out hledger hitems hnone hne_nil hsmall

end Spawned

/-- An instance in flight belongs to the open fan-out of its node, and the slot of its
position is still empty. -/
structure OpenInstance (cs : List Completion) (rs : List Report) (s : RunState) (task : Task)
    (items : List Value) (state : FanOutState) : Prop where
  activation : s.activations[task.id.activation]? = some ⟨task.node_id, .fan_out items⟩
  state_eq : s.fan_out_states task.node_id = some state
  is_open : FanOutOpen cs rs task.id.activation items state
  others : ∀ (a : Nat) (items' : List Value), a ≠ task.id.activation →
    s.activations[a]? = some ⟨task.node_id, .fan_out items'⟩ → FanOutClosed cs rs a task.node_id items'
  index : task.fan_out_index = some task.id.position
  input : items[task.id.position]? = some task.inputs
  fresh : task.id ∉ cs.map Completion.task

theorem OpenInstance.position_lt {cs : List Completion} {rs : List Report} {s : RunState} {task : Task}
    {items : List Value} {state : FanOutState} (h : OpenInstance cs rs s task items state) :
    task.id.position < items.length :=
  (List.getElem?_eq_some_iff.mp h.input).1

theorem OpenInstance.slot_empty {cs : List Completion} {rs : List Report} {s : RunState} {task : Task}
    {items : List Value} {state : FanOutState} (h : OpenInstance cs rs s task items state) :
    state.results[task.id.position]? = some none := by
  rw [h.is_open.results, slots_getElem? _ _ h.position_lt, outcome_of_eq_none h.fresh]
  rfl

/-- Every instance in flight has its fan-out state. -/
theorem FanIn.open_instance {cs : List Completion} {rs : List Report} {s : RunState} (h : FanIn cs rs s)
    (hledger : Ledger (cs.map Completion.task) s) {task : Task} (hmem : task ∈ s.running) {index : Nat}
    (hindex : task.fan_out_index = some index) : ∃ items state, OpenInstance cs rs s task items state := by
  have hfresh := hledger.not_joined hmem
  obtain ⟨work, hactivation, hwork⟩ := hledger.recorded task hmem
  cases hwork with
  | plain hinputs hposition hnone =>
    rw [hnone] at hindex
    cases hindex
  | @fan_out items _ hitem hposition =>
    have hlt : task.id.position < items.length := (List.getElem?_eq_some_iff.mp hitem).1
    have hnot_closed : ¬ FanOutClosed cs rs task.id.activation task.node_id items := by
      intro hclosed
      have hsome := hclosed.joined task.id.position hlt
      rw [outcome_of_eq_none hfresh] at hsome
      cases hsome
    cases hstate : s.fan_out_states task.node_id with
    | none => exact absurd (h.idle _ hstate _ _ hactivation) hnot_closed
    | some state =>
      obtain ⟨a, items', ha, hopen, hothers⟩ := h.busy _ state hstate
      have hsame : a = task.id.activation := by
        by_contra hne
        exact hnot_closed (hothers _ _ (Ne.symm hne) hactivation)
      subst hsame
      rw [hactivation] at ha
      cases ha
      refine ⟨items, state, hactivation, hstate, hopen, hothers, ?_, hitem, hfresh⟩
      rw [hposition, Nat.mod_eq_of_lt (hlt.trans (h.small _ _ _ hactivation))]

end flow_engine.executor
