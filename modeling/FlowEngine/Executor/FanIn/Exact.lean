import FlowEngine.Executor.FanIn.Steps

namespace flow_engine.executor

/-- What holds of one fan-out in every reached state. -/
structure FanOutExact (ctx : RunContext) (cs : List Completion) (s : RunState) (activation : Nat)
    (node_id : String) (items : List Value) : Prop where
  /-- The instance at a position was started with the item at that position. -/
  instances : ∀ task ∈ s.running, task.id.activation = activation →
    task.node_id = node_id ∧ task.fan_out_index = some task.id.position ∧ items[task.id.position]? = some task.inputs
  /-- Each instance is in flight or was joined, once. -/
  once : ∀ i < items.length,
    (s.running.map Task.id ++ cs.map Completion.task).count ⟨activation, i⟩ = 1
  /-- While an instance is missing the node is not reported. -/
  unreported : (∃ i < items.length, outcome_of cs ⟨activation, i⟩ = none) →
    (reports ctx (initial_state ctx) cs).filter (fun r => r.activation = activation) = []
  /-- When all were joined the node was reported once, with their outputs in order and a marker
  for an instance that failed. -/
  reported : (∀ i < items.length, (outcome_of cs ⟨activation, i⟩).isSome) → ∃ values,
    (reports ctx (initial_state ctx) cs).filter (fun r => r.activation = activation) =
      [⟨activation, node_id, .array values⟩] ∧ values.length = items.length ∧
    (∀ i outputs, i < items.length → outcome_of cs ⟨activation, i⟩ = some (.Success outputs) →
      values[i]? = some outputs) ∧
    ∀ i error, i < items.length → outcome_of cs ⟨activation, i⟩ = some (.Failed error) →
      values[i]? = some (.object [("error", .string error), ("fan_out_index", .number (.pos_int (UInt64.ofNat i)))])

theorem FanIn.exact {ctx : RunContext} {cs : List Completion} {s : RunState}
    (h : FanIn cs (reports ctx (initial_state ctx) cs) s) (hledger : Ledger (cs.map Completion.task) s)
    {a : Nat} {n : String} {items : List Value} (hactivation : s.activations[a]? = some ⟨n, .fan_out items⟩) :
    FanOutExact ctx cs s a n items := by
  have hcases : FanOutClosed cs (reports ctx (initial_state ctx) cs) a n items ∨
      ∃ state, FanOutOpen cs (reports ctx (initial_state ctx) cs) a items state := by
    cases hstate : s.fan_out_states n with
    | none => exact Or.inl (h.idle n hstate a items hactivation)
    | some state =>
      obtain ⟨a', items', ha', hopen, hothers⟩ := h.busy n state hstate
      by_cases hsame : a = a'
      · subst hsame
        rw [hactivation] at ha'
        cases ha'
        exact Or.inr ⟨state, hopen⟩
      · exact Or.inl (hothers a items hsame hactivation)
  constructor
  · rintro task hmem rfl
    obtain ⟨work, hrecorded, hwork⟩ := hledger.recorded task hmem
    rw [hactivation] at hrecorded
    cases hrecorded
    cases hwork with
    | fan_out hitem hindex =>
      have hlt : task.id.position < items.length := (List.getElem?_eq_some_iff.mp hitem).1
      rw [Nat.mod_eq_of_lt (hlt.trans (h.small _ _ _ hactivation))] at hindex
      exact ⟨rfl, hindex, hitem⟩
  · intro i hi
    apply List.count_eq_one_of_mem hledger.joined_ids_nodup
    exact hledger.ids.mem_iff.mpr (mem_task_ids.mpr ⟨_, hactivation, hi⟩)
  · rintro ⟨i, hi, hnone⟩
    cases hcases with
    | inl hclosed =>
      have hsome := hclosed.joined i hi
      rw [hnone] at hsome
      cases hsome
    | inr hopen => exact hopen.choose_spec.unreported
  · intro hall
    cases hcases with
    | inl hclosed =>
      have hvalue : ∀ i outcome, i < items.length → outcome_of cs ⟨a, i⟩ = some outcome →
          ((slots cs a items).map fun r => r.getD .null)[i]? = some (fan_out_result i outcome) := by
        intro i outcome hi houtcome
        rw [List.getElem?_map, slots_getElem? _ _ hi, houtcome]
        rfl
      refine ⟨_, hclosed.reported, by simp, ?_, ?_⟩
      · exact fun i outputs hi houtcome => hvalue i (.Success outputs) hi houtcome
      · exact fun i error hi houtcome => hvalue i (.Failed error) hi houtcome
    | inr hopen =>
      obtain ⟨state, hopen⟩ := hopen
      have hunfinished := hopen.unfinished
      have hfull : (slots cs a items).countP Option.isSome = (slots cs a items).length := by
        rw [List.countP_eq_length]
        intro slot hslot
        obtain ⟨i, hi, rfl⟩ := List.mem_map.mp hslot
        simpa using hall i (List.mem_range.mp hi)
      rw [hopen.completed, hfull, hopen.expected, slots_length] at hunfinished
      exact absurd hunfinished (Nat.lt_irrefl _)

/-- Fan-out and fan-in are exact: an instance in flight has its state and an empty
slot, the loop never panics, and each fan-out is reported once with the results of its
instances in order. -/
theorem fan_out_exact {ctx : RunContext} (haccepted : Accepted ctx) {may : Task → NodeOutcome → Prop}
    (hsmall : ∀ task outputs, may task (.Success outputs) → SmallArrays ctx task.node_id outputs)
    {cs : List Completion} {s : RunState} (hrun : RunOf ctx may cs s) :
    (∀ task ∈ s.running, ∀ index, task.fan_out_index = some index → ∃ state,
      s.fan_out_states task.node_id = some state ∧ index < state.results.length ∧
      state.results.length = state.expected ∧ state.results[index]? = some none) ∧
    (∀ c, Finishes may s c → ∃ next, next_state ctx s c = some next) ∧
    ∀ a n items, s.activations[a]? = some ⟨n, .fan_out items⟩ → FanOutExact ctx cs s a n items := by
  have hledger := run_ledger haccepted hrun
  have hfan := run_fanIn haccepted hsmall hrun
  have hheld : ∀ task ∈ s.running, ∀ index, task.fan_out_index = some index → ∃ state,
      s.fan_out_states task.node_id = some state ∧ index < state.results.length ∧
      state.results.length = state.expected ∧ state.results[index]? = some none := by
    intro task hmem index hindex
    obtain ⟨items, state, hinst⟩ := hfan.open_instance hledger hmem hindex
    have hslot := hinst.slot_empty
    rw [hinst.index] at hindex
    cases hindex
    refine ⟨state, hinst.state_eq, (List.getElem?_eq_some_iff.mp hslot).1, ?_, hslot⟩
    rw [hinst.is_open.results, hinst.is_open.expected, slots_length]
  refine ⟨hheld, ?_, fun a n items ha => hfan.exact hledger ha⟩
  rintro c ⟨task, hfind, _⟩
  apply exists_next_state hfind
  intro index state hindex hstate
  obtain ⟨state', hstate', hlt, _⟩ := hheld task (List.mem_of_find?_eq_some hfind) index hindex
  rw [hstate] at hstate'
  cases hstate'
  exact hlt

/-- A node that fans out over two items. -/
def fan_out_sample : RunContext := sample_context ["A", "B"] [sample_edge "e" "A" "B" none] 1

def fan_out_handler (task : Task) : NodeOutcome :=
  .Success (if task.node_id = "A" then .array [.null, .bool true] else .bool (task.fan_out_index = some 0))

theorem fan_out_handler_small {ctx : RunContext} (task : Task) (outputs : Value)
    (h : .Success outputs = fan_out_handler task) : SmallArrays ctx task.node_id outputs := by
  intro edge _ _ items hitems
  unfold fan_out_handler at h
  split at h
  · cases h
    cases hitems
    decide
  · cases h
    cases hitems

theorem fan_out_exact_sample : ∃ cs s,
    RunOf fan_out_sample (fun task outcome => outcome = fan_out_handler task) cs s ∧ s.activations.length = 2 ∧
    (∀ c, Finishes (fun task outcome => outcome = fan_out_handler task) s c →
      ∃ next, next_state fan_out_sample s c = some next) ∧
    ∀ a n items, s.activations[a]? = some ⟨n, .fan_out items⟩ → FanOutExact fan_out_sample cs s a n items := by
  have haccepted : Accepted fan_out_sample := sample_accepted 1 (by decide +kernel)
  have hreplay : ((replay fan_out_sample fan_out_handler (initial_state fan_out_sample)
      [⟨0, 0⟩, ⟨1, 1⟩]).map fun run => run.2.activations.length) = some 2 := by decide +kernel
  obtain ⟨⟨cs, s⟩, hrun, hlength⟩ := Option.map_eq_some_iff.mp hreplay
  have hrun := run_of_replay hrun
  obtain ⟨_, htotal, hexact⟩ := fan_out_exact haccepted fan_out_handler_small hrun
  exact ⟨cs, s, hrun, hlength, htotal, hexact⟩

end flow_engine.executor
