import FlowEngine.Executor.Dag.Functional

namespace flow_engine.executor

open dataflow (Activated Legal found keys)

/-- A run of functional handlers and the order it follows, whatever the length of the
arrays. -/
structure Tracks (ctx : RunContext) (eval : String → Value → Value) (order : List (String × NodeEnd))
    (cs : List Completion) (s : RunState) : Prop where
  run : FunctionalRun ctx eval cs s
  refines : Refines ctx (Computes eval) order s
  filling : AllFilling eval s

/-- A fan-out state in a run is that of the fan-out its node was activated with. -/
theorem Tracks.filling_of_state {ctx : RunContext} {eval : String → Value → Value} {order : List (String × NodeEnd)}
    {cs : List Completion} {s : RunState} (h : Tracks ctx eval order cs s) {n : String} {state : FanOutState}
    (hstate : s.fan_out_states n = some state) :
    ∃ items positions, Filling eval s n items positions ∧ state = filled eval n items positions := by
  obtain ⟨items, positions, hfilling⟩ := h.filling n (by simp [hstate])
  rw [hfilling.state_eq] at hstate
  exact ⟨items, positions, hfilling, (Option.some.inj hstate).symm⟩

section Step

variable {ctx : RunContext} {eval : String → Value → Value} {order : List (String × NodeEnd)}
  {cs : List Completion} {s : RunState} (haccepted : Accepted ctx)
include haccepted

theorem functional_phases (hrun : FunctionalRun ctx eval cs s) : Phases s := by
  apply run_phases haccepted ?_ hrun
  intro task error hmay
  cases hmay

theorem Tracks.initial (hacyclic : digraph.Acyclic (GraphEdge ctx.graph)) : Tracks ctx eval [] [] (initial_state ctx) := by
  refine ⟨.nil, Refines.initial haccepted hacyclic, ?_⟩
  intro n hne
  rw [initial_state_eq fun entry hentry => entry_nodes_spawnable haccepted hentry] at hne
  exact absurd rfl hne

/-- Every step keeps the run on its order. -/
theorem Tracks.step (hacyclic : digraph.Acyclic (GraphEdge ctx.graph)) (h : Tracks ctx eval order cs s) {c : Completion}
    {task : Task} {next : RunState} {records : List LlmInvocationRecord}
    (hfind : s.running.find? (fun task => task.id = c.task) = some task)
    (hreturned : c.joined = .returned (.Success (eval task.node_id task.inputs)) records)
    (hstep : next_state ctx s c = some next) :
    Tracks ctx eval (extend order s task (.Success (eval task.node_id task.inputs))) (cs ++ [c]) next := by
  have hphases := functional_phases haccepted h.run
  have hledger := run_ledger haccepted h.run
  have hcounts := run_countsBounded h.run
  have hrun : FunctionalRun ctx eval (cs ++ [c]) next :=
    h.run.snoc ⟨task, hfind, _, records, hreturned, rfl⟩ hstep
  have hrecorded : ∀ other ∈ s.running.eraseP (fun task => task.id = c.task), Recorded s.activations other :=
    fun other hother => hledger.recorded other (List.mem_of_mem_eraseP hother)
  have hown := hledger.recorded task (List.mem_of_find?_eq_some hfind)
  obtain ⟨found, hfound, hcase⟩ := next_state_cases hstep
  rw [hfind] at hfound
  cases hfound
  cases hcase with
  | plain_success hjoined hindex =>
    rw [hreturned] at hjoined
    cases hjoined
    have hended := h.refines.plain_done hphases hledger hfind hindex Computes.plain
    simp only [extend, hindex]
    refine ⟨hrun, hended.evaluated_downstream haccepted hacyclic hcounts h.refines.counts,
      hended.filling_downstream haccepted hacyclic hcounts hrecorded ?_⟩
    intro n hne
    exact h.filling.joined_other hfind hne (by simp [is_instance_of, hindex]) rfl rfl rfl
  | plain_failure hjoined hindex =>
    rw [hreturned] at hjoined
    cases hjoined
  | panic hjoined =>
    rw [hreturned] at hjoined
    cases hjoined
  | instance_dropped hjoined hindex hstate =>
    simp only [extend, hindex, hstate]
    refine ⟨hrun, ⟨h.refines.legal, h.refines.completed, h.refines.failed, h.refines.outputs, h.refines.activated,
      h.refines.once, h.refines.running, h.refines.fanning, h.refines.counts⟩, ?_⟩
    intro n hne
    have hn : ¬ task.node_id = n := fun heq => hne (heq ▸ hstate)
    exact h.filling.joined_other hfind hne (by simp [is_instance_of, hn]) rfl rfl rfl
  | @instance_kept _ _ index state hjoined hindex hstate hbound hmore =>
    rw [hreturned] at hjoined
    cases hjoined
    obtain ⟨items, positions, hfilling, rfl⟩ := h.filling_of_state hstate
    obtain ⟨rfl, hinput⟩ := hfilling.input h.refines hown hindex
    rw [filled_results_length] at hbound
    simp only [extend, hindex, hstate, if_neg hmore]
    refine ⟨hrun, h.refines.kept hstate, ?_⟩
    intro n hne
    by_cases hn : n = task.node_id
    · subst hn
      exact ⟨items, _, hfilling.kept hfind hindex hinput hbound hmore⟩
    · have hother : ¬ task.node_id = n := fun heq => hn heq.symm
      exact h.filling.joined_other hfind hne (by simp [is_instance_of, hother]) (Function.update_of_ne hn _ _) rfl rfl
  | @fan_in _ _ index state hjoined hindex hstate hbound hlast =>
    rw [hreturned] at hjoined
    cases hjoined
    obtain ⟨items, positions, hfilling, rfl⟩ := h.filling_of_state hstate
    obtain ⟨rfl, hinput⟩ := hfilling.input h.refines hown hindex
    rw [filled_results_length] at hbound
    have hended := h.refines.fan_in_done c hstate ((h.refines.activated _ _).mp hfilling.activation)
      (hfilling.ends hfind hindex hinput hbound hlast)
    simp only [extend, hindex, hstate, if_pos hlast]
    refine ⟨hrun, hended.evaluated_downstream haccepted hacyclic hcounts h.refines.counts,
      hended.filling_downstream haccepted hacyclic hcounts hrecorded ?_⟩
    intro n hne
    by_cases hn : n = task.node_id
    · subst hn
      simp [complete_fan_in] at hne
    · have hother : ¬ task.node_id = n := fun heq => hn heq.symm
      exact h.filling.joined_other hfind hne (by simp [is_instance_of, hother]) (Function.update_of_ne hn _ _) rfl rfl

/-- Every run of functional handlers on an acyclic graph is an order of the network. -/
theorem FunctionalRun.tracks (hacyclic : digraph.Acyclic (GraphEdge ctx.graph)) (hrun : FunctionalRun ctx eval cs s) :
    ∃ order, Tracks ctx eval order cs s := by
  refine hrun.invariant (P := fun cs s => ∃ order, Tracks ctx eval order cs s) ?_ ?_
  · exact ⟨[], .initial haccepted hacyclic⟩
  · rintro cs s c next _ ⟨order, h⟩ ⟨task, hfind, outcome, records, hjoined, hmay⟩ hstep
    cases hmay
    exact ⟨_, h.step haccepted hacyclic hfind hjoined hstep⟩

/-- When no task is left every node with work has ended. -/
theorem Tracks.maximal (h : Tracks ctx eval order cs s) (hempty : s.running = []) :
    dataflow.Maximal (net ctx) order := by
  intro v w hactive
  by_contra hnot
  cases w with
  | plain inputs =>
    have hcount := (functional_phases haccepted h.run).plain_count v
    rw [if_pos ((h.refines.running v).mpr ⟨hnot, inputs, hactive⟩), hempty] at hcount
    cases hcount
  | fan_out items =>
    obtain ⟨_, _, hfilling⟩ := h.filling v ((h.refines.fanning v).mpr ⟨hnot, items, hactive⟩)
    exact hfilling.running_ne_nil hempty

end Step

section Realise

variable {ctx : RunContext} {eval : String → Value → Value} {order : List (String × NodeEnd)}
  {cs : List Completion} {s : RunState}

/-- No instance of another node's fan-out was joined. -/
def OthersWait (s : RunState) (node_id : String) : Prop :=
  ∀ n state, n ≠ node_id → s.fan_out_states n = some state → state.completed = 0

/-- No instance of an open fan-out was joined. -/
def AllWait (s : RunState) : Prop := ∀ n state, s.fan_out_states n = some state → state.completed = 0

/-- Starting nodes opens fan-outs none of whose instances was joined. -/
theorem AllWait.spawned {ready : ReadyNode} (h : AllWait s) : AllWait (spawn_ready_node ctx s ready) := by
  intro n state hstate
  by_cases hn : n = ready.node_id
  · subst hn
    cases hitems : ready.fan_out_items with
    | none =>
      rw [spawn_ready_node_plain ctx s hitems, spawn_plain_fan_out_states] at hstate
      exact h _ state hstate
    | some items =>
      rw [spawn_ready_node_fan_out ctx s hitems, spawn_fan_out_eq] at hstate
      have hfresh : fresh_fan_out items = state := by simpa using hstate
      rw [← hfresh]
      rfl
  · obtain ⟨_, _, hfan⟩ := spawn_ready_node_other ctx s ready hn
    exact h n state (hfan ▸ hstate)

theorem AllWait.evaluated_downstream (h : AllWait s) (hcounts : CountsBounded ctx s.edge_traversal_counts)
    (node_id : String) (outputs : Value) (from_fan_in : Bool) :
    AllWait (evaluate_downstream ctx s node_id outputs from_fan_in) := by
  rw [evaluate_downstream_eq hcounts]
  apply List.foldlRecOn (motive := AllWait)
  · exact h
  · exact fun _ hs _ _ => hs.spawned

variable (haccepted : Accepted ctx) (hacyclic : digraph.Acyclic (GraphEdge ctx.graph))
include haccepted hacyclic

/-- The plain work of a node can be finished next. -/
theorem Tracks.finish_plain (h : Tracks ctx eval order cs s) (hwait : AllWait s) {v : String} {inputs : Value}
    (hnot : v ∉ keys order) (hactive : Activated (net ctx) order v (.plain inputs)) :
    ∃ cs' s', Tracks ctx eval (order ++ [(v, .done (eval v inputs) false)]) cs' s' ∧ AllWait s' := by
  have hphases := functional_phases haccepted h.run
  have hledger := run_ledger haccepted h.run
  obtain ⟨task, hmem, rfl, hindex⟩ := hphases.exists_plain_task ((h.refines.running v).mpr ⟨hnot, inputs, hactive⟩)
  obtain ⟨_, hactive'⟩ := h.refines.plain_active hphases hledger hmem hindex
  cases hactive.unique h.refines.legal.nodup hactive'
  have hfind : s.running.find? (fun other => other.id = (finish eval task).task) = some task := hledger.find_eq hmem
  have hstep := next_state_of_settle hfind
    (settle_plain_success ctx (joined ctx s (finish eval task) task) task [] (eval task.node_id task.inputs) hindex)
  have hnext := h.step haccepted hacyclic hfind rfl hstep
  simp only [extend, hindex] at hnext
  refine ⟨_, _, hnext, ?_⟩
  have hcounts := run_countsBounded h.run
  have hcompleted : AllWait (complete_plain (joined ctx s (finish eval task) task) task.node_id
      (eval task.node_id task.inputs)) := hwait
  exact hcompleted.evaluated_downstream hcounts _ _ _

/-- The instances of a waiting fan-out can be finished at any positions that have slots. -/
theorem Tracks.finish_fan_out (h : Tracks ctx eval order cs s) {v : String} (hwait : OthersWait s v)
    {items : List Value} {positions rest : List Nat} (hfilling : Filling eval s v items positions) (hne : rest ≠ [])
    (hnodup : (positions ++ rest).Nodup)
    (hbound : ∀ position ∈ rest, position < items.length ∧ position % 2 ^ 32 < items.length % 2 ^ 32)
    (hall : (positions ++ rest).length = items.length % 2 ^ 32) :
    ∃ cs' s', Tracks ctx eval
      (order ++ [(v, .done (merged_output (filled eval v items (positions ++ rest))) true)]) cs' s' ∧ AllWait s' := by
  induction rest generalizing positions cs s with
  | nil => exact absurd rfl hne
  | cons position rest ih =>
    have hledger := run_ledger haccepted h.run
    have hcounts := run_countsBounded h.run
    obtain ⟨hlt, hslot⟩ := hbound position (List.mem_cons_self ..)
    have hfresh : position ∉ positions := by
      intro hmem
      exact (List.nodup_append.mp hnodup).2.2 position hmem position (List.mem_cons_self ..) rfl
    obtain ⟨task, hrunning, rfl, rfl, hindex, hinput⟩ :=
      hfilling.exists_instance h.refines hledger.recorded hlt hfresh
    have hfind : s.running.find? (fun other => other.id = (finish eval task).task) = some task :=
      hledger.find_eq hrunning
    have hstate := hfilling.state_eq
    have hfit : task.id.position % 2 ^ 32 < (filled eval task.node_id items positions).results.length := by
      rw [filled_results_length]
      exact hslot
    have hsame : filled eval task.node_id items (positions ++ [task.id.position]) =
        fill_slot (filled eval task.node_id items positions) (task.id.position % 2 ^ 32)
          (.Success (eval task.node_id task.inputs)) := filled_snoc_item hinput
    cases rest with
    | nil =>
      have hlast : (filled eval task.node_id items positions).completed + 1 =
          (filled eval task.node_id items positions).expected := by simpa [filled] using hall
      have hstep := next_state_of_settle hfind (settle_fan_in ctx (joined ctx s (finish eval task) task) task []
        (.Success (eval task.node_id task.inputs)) hindex hstate hfit hlast)
      have hnext := h.step haccepted hacyclic hfind rfl hstep
      simp only [extend, hindex, hstate, if_pos hlast, ← hsame] at hnext
      refine ⟨_, _, hnext, ?_⟩
      have hclosed : AllWait (complete_fan_in (joined ctx s (finish eval task) task) task.node_id
          (fill_slot (filled eval task.node_id items positions) (task.id.position % 2 ^ 32)
            (.Success (eval task.node_id task.inputs)))) := by
        intro n state hn
        by_cases heq : n = task.node_id
        · subst heq
          simp [complete_fan_in] at hn
        · exact hwait n state heq ((Function.update_of_ne heq _ _).symm.trans hn)
      rw [hsame]
      exact hclosed.evaluated_downstream hcounts _ _ _
    | cons position' rest =>
      have hmore : (filled eval task.node_id items positions).completed + 1 ≠
          (filled eval task.node_id items positions).expected := by
        simp only [List.length_append, List.length_cons] at hall
        simp only [filled]
        omega
      have hstep := next_state_of_settle hfind (settle_instance_kept ctx (joined ctx s (finish eval task) task) task []
        (.Success (eval task.node_id task.inputs)) hindex hstate hfit hmore)
      have hnext := h.step haccepted hacyclic hfind rfl hstep
      simp only [extend, hindex, hstate, if_neg hmore] at hnext
      have happend : positions ++ task.id.position :: position' :: rest =
          (positions ++ [task.id.position]) ++ position' :: rest := by simp
      rw [happend] at hnodup hall ⊢
      apply ih hnext
      · intro n state heq hn
        exact hwait n state heq ((Function.update_of_ne heq _ _).symm.trans hn)
      · exact hfilling.kept hfind hindex hinput hslot hmore
      · simp
      · exact hnodup
      · exact fun p hp => hbound p (List.mem_cons_of_mem _ hp)
      · exact hall

/-- Every order of the network is the order of a run. -/
theorem exists_tracks (hlegal : Legal (net ctx) (Computes eval) order) :
    ∃ cs s, Tracks ctx eval order cs s ∧ AllWait s := by
  induction hlegal with
  | nil =>
    refine ⟨[], _, .initial haccepted hacyclic, ?_⟩
    intro n state hstate
    rw [initial_state_eq fun entry hentry => entry_nodes_spawnable haccepted hentry] at hstate
    cases hstate
  | @snoc order v w r _ hfresh hactive hresult ih =>
    obtain ⟨cs, s, h, hwait⟩ := ih
    cases hresult with
    | plain => exact h.finish_plain haccepted hacyclic hwait hfresh hactive
    | @fan_in items positions hne hnodup hbound hall =>
      obtain ⟨state, hstate⟩ := Option.ne_none_iff_exists'.mp ((h.refines.fanning v).mpr ⟨hfresh, items, hactive⟩)
      obtain ⟨items', joined_positions, hfilling, rfl⟩ := h.filling_of_state hstate
      cases hactive.unique h.refines.legal.nodup ((h.refines.activated _ _).mp hfilling.activation)
      -- Nothing of the fan-out was joined yet, so its instances can be joined in the given order.
      have hnil : joined_positions = [] := List.eq_nil_of_length_eq_zero (hwait v _ hstate)
      subst hnil
      exact h.finish_fan_out haccepted hacyclic (fun n state _ hn => hwait n state hn) hfilling hne hnodup hbound hall

end Realise

end flow_engine.executor
