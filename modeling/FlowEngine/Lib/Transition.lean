import Mathlib.Data.List.Induction
import Mathlib.Order.WellFounded
import Mathlib.Logic.Relation

namespace transition

variable {State Action : Type*}

/-- The finite runs of a partial step function, with their actions oldest
first. An action can be taken only where `allowed` permits it. -/
inductive Run (step : State → Action → Option State) (allowed : State → Action → Prop)
    (start : State) : List Action → State → Prop
  | nil : Run step allowed start [] start
  | snoc {actions : List Action} {state next : State} {action : Action}
      (run : Run step allowed start actions state) (hallowed : allowed state action)
      (hstep : step state action = some next) :
      Run step allowed start (actions ++ [action]) next

variable {step : State → Action → Option State} {allowed : State → Action → Prop} {start : State}

/-- An invariant of the start and of every step from a reached state holds
after every run. -/
theorem Run.invariant {P : List Action → State → Prop} (hstart : P [] start)
    (hstep : ∀ actions state action next, Run step allowed start actions state → P actions state →
      allowed state action → step state action = some next → P (actions ++ [action]) next)
    {actions : List Action} {state : State} (hrun : Run step allowed start actions state) :
    P actions state := by
  induction hrun with
  | nil => exact hstart
  | snoc run hallowed hnext ih => exact hstep _ _ _ _ run ih hallowed hnext

theorem Run.append {first second : List Action} {middle last : State}
    (hfirst : Run step allowed start first middle) (hsecond : Run step allowed middle second last) :
    Run step allowed start (first ++ second) last := by
  induction hsecond with
  | nil => simpa using hfirst
  | snoc _ hallowed hstep ih =>
    rw [← List.append_assoc]
    exact ih.snoc hallowed hstep

/-- Runs under a permission are runs under every weaker permission. -/
theorem Run.mono {weaker : State → Action → Prop} (hle : ∀ state action, allowed state action → weaker state action)
    {actions : List Action} {state : State} (hrun : Run step allowed start actions state) :
    Run step weaker start actions state := by
  induction hrun with
  | nil => exact .nil
  | snoc _ hallowed hstep ih => exact ih.snoc (hle _ _ hallowed) hstep

/-- Where a reached state permits an action under one permission it permits it under the
other, the runs under the first are runs under the second. -/
theorem Run.transfer {other : State → Action → Prop}
    (htransfer : ∀ actions state action, Run step allowed start actions state → allowed state action →
      other state action) {actions : List Action} {state : State} (hrun : Run step allowed start actions state) :
    Run step other start actions state := by
  induction hrun with
  | nil => exact .nil
  | snoc run hallowed hstep ih => exact ih.snoc (htransfer _ _ _ run hallowed) hstep

/-- A property of the start that a step keeps exactly if the step is good holds after a run
exactly if every step of the run is good. -/
theorem Run.holds_iff_good (P : State → Prop) (good : State → Action → Prop) (hstart : P start)
    (hstep : ∀ actions state action next, Run step allowed start actions state → allowed state action →
      step state action = some next → (P next ↔ P state ∧ good state action))
    {actions : List Action} {state : State} (hrun : Run step allowed start actions state) :
    P state ↔ Run step (fun state action => allowed state action ∧ good state action) start actions state := by
  constructor
  · intro hholds
    induction hrun with
    | nil => exact .nil
    | snoc run hallowed hnext ih =>
      obtain ⟨hbefore, hgood⟩ := (hstep _ _ _ _ run hallowed hnext).mp hholds
      exact (ih hbefore).snoc ⟨hallowed, hgood⟩ hnext
  · intro hgood
    refine hgood.invariant (P := fun _ state => P state) hstart ?_
    intro actions state action next run hholds hallowed hnext
    exact (hstep _ _ _ _ (run.mono fun _ _ h => h.1) hallowed.1 hnext).mpr ⟨hholds, hallowed.2⟩

/-- Taking permitted actions one after the other is a run. -/
theorem run_of_foldlM_allowed {actions : List Action} {state : State} (h : actions.foldlM step start = some state)
    (hallowed : ∀ action ∈ actions, ∀ state, allowed state action) : Run step allowed start actions state := by
  induction actions generalizing start with
  | nil =>
    cases h
    exact .nil
  | cons action rest ih =>
    rw [List.foldlM_cons] at h
    obtain ⟨next, hstep, hrest⟩ := Option.bind_eq_some_iff.mp h
    have hone : Run step allowed start ([] ++ [action]) next := Run.nil.snoc (hallowed action List.mem_cons_self _) hstep
    exact hone.append (ih hrest fun other hmem => hallowed other (List.mem_cons_of_mem _ hmem))

/-- Taking the actions of a list one after the other is a run. -/
theorem run_of_foldlM {actions : List Action} {state : State} (h : actions.foldlM step start = some state) :
    Run step (fun _ _ => True) start actions state :=
  run_of_foldlM_allowed h fun _ _ _ => trivial

/-- Taking actions that are found permitted one after the other is a run. -/
theorem run_of_foldlM_checked [∀ state action, Decidable (allowed state action)] {actions : List Action} {state : State}
    (h : actions.foldlM (fun state action => if allowed state action then step state action else none) start =
      some state) : Run step allowed start actions state := by
  induction actions generalizing start with
  | nil =>
    cases h
    exact .nil
  | cons action rest ih =>
    rw [List.foldlM_cons] at h
    obtain ⟨next, hstep, hrest⟩ := Option.bind_eq_some_iff.mp h
    split at hstep
    · rename_i hallowed
      have hone : Run step allowed start ([] ++ [action]) next := Run.nil.snoc hallowed hstep
      exact hone.append (ih hrest)
    · cases hstep

/-- The reached state is what the actions lead to when they are taken one after the other. -/
theorem Run.foldlM_eq {actions : List Action} {state : State} (hrun : Run step allowed start actions state) :
    actions.foldlM step start = some state := by
  induction hrun with
  | nil => rfl
  | snoc _ _ hstep ih =>
    rw [List.foldlM_append, ih]
    simpa using hstep

/-- The actions of a run determine where it ends. -/
theorem Run.unique {other : State → Action → Prop} {actions : List Action} {state state' : State}
    (hrun : Run step allowed start actions state) (hrun' : Run step other start actions state') : state = state' :=
  Option.some.inj (hrun.foldlM_eq.symm.trans hrun'.foldlM_eq)

/-- Every action of a run was taken from a state it was permitted in. -/
theorem Run.split {before after : List Action} {action : Action} {state : State}
    (hrun : Run step allowed start (before ++ action :: after) state) :
    ∃ middle next, Run step allowed start before middle ∧ allowed middle action ∧ step middle action = some next := by
  generalize hactions : before ++ action :: after = actions at hrun
  induction hrun generalizing after with
  | nil => simp at hactions
  | @snoc actions middle next last run hallowed hstep ih =>
    rcases List.eq_nil_or_concat after with rfl | ⟨after, final, rfl⟩
    · obtain ⟨rfl, hlast⟩ := List.append_inj' hactions rfl
      cases hlast
      exact ⟨middle, next, run, hallowed, hstep⟩
    · have hsplit : (before ++ action :: after) ++ [final] = actions ++ [last] := by
        rw [← hactions]
        simp
      exact ih (List.append_inj' hsplit rfl).1

/-- A run goes through a state after each first part of its actions. -/
theorem Run.of_first {first second : List Action} {state : State} (hrun : Run step allowed start (first ++ second) state) :
    ∃ middle, Run step allowed start first middle := by
  induction second using List.reverseRecOn generalizing state with
  | nil => exact ⟨state, by simpa using hrun⟩
  | append_singleton rest action ih =>
    rw [← List.append_assoc] at hrun
    obtain ⟨_, _, hbefore, _⟩ := hrun.split
    exact ih hbefore

/-- All states a run goes through have the property. -/
def Throughout (step : State → Action → Option State) (allowed : State → Action → Prop) (start : State)
    (P : State → Prop) (actions : List Action) : Prop :=
  ∀ taken state, taken <+: actions → Run step allowed start taken state → P state

/-- A property of the start that every step keeps exactly if it is good holds throughout a run
exactly if all steps of the run are good. -/
theorem Run.throughout_iff_good (P : State → Prop) (good : State → Action → Prop) (hstart : P start)
    (hstep : ∀ actions state action next,
      Run step (fun state action => allowed state action ∧ good state action) start actions state → P state →
      allowed state action → step state action = some next → (P next ↔ good state action))
    {actions : List Action} {state : State} (hrun : Run step allowed start actions state) :
    Throughout step allowed start P actions ↔
      Run step (fun state action => allowed state action ∧ good state action) start actions state := by
  constructor
  · intro hholds
    induction hrun with
    | nil => exact .nil
    | @snoc actions state next action run hallowed hnext ih =>
      have hgood := ih fun taken state hfirst => hholds taken state (List.IsPrefix.trans hfirst (List.prefix_append _ _))
      have hbefore := hholds _ _ (List.prefix_append _ _) run
      have hafter := hholds _ _ (List.prefix_refl _) (run.snoc hallowed hnext)
      exact hgood.snoc ⟨hallowed, (hstep _ _ _ _ hgood hbefore hallowed hnext).mp hafter⟩ hnext
  · rintro hgood taken state ⟨rest, rfl⟩ hreached
    obtain ⟨middle, hmiddle⟩ := hgood.of_first
    rw [hreached.unique hmiddle]
    refine hmiddle.invariant (P := fun _ state => P state) hstart ?_
    exact fun _ _ _ _ run hholds hallowed hnext => (hstep _ _ _ _ run hholds hallowed.1 hnext).mpr hallowed.2

/-- What is observed of the actions of a list that can be taken one after the other. -/
def trace {Observation : Type*} (step : State → Action → Option State) (observe : State → Action → Option Observation) :
    State → List Action → List Observation
  | _, [] => []
  | state, action :: rest => (observe state action).toList ++
    match step state action with
    | some next => trace step observe next rest
    | none => []

section Trace

variable {Observation : Type*} {observe : State → Action → Option Observation}

theorem Run.trace_append {actions : List Action} {state : State} (hrun : Run step allowed start actions state)
    (more : List Action) :
    trace step observe start (actions ++ more) = trace step observe start actions ++ trace step observe state more := by
  induction hrun generalizing more with
  | nil => rfl
  | @snoc actions state next action _ _ hstep ih =>
    rw [List.append_assoc, ih, ih, List.append_assoc]
    simp [trace, hstep]

/-- One more action adds what is observed of it. -/
theorem Run.trace_snoc {actions : List Action} {state : State} (hrun : Run step allowed start actions state)
    (action : Action) :
    trace step observe start (actions ++ [action]) =
      trace step observe start actions ++ (observe state action).toList := by
  rw [hrun.trace_append]
  cases hstep : step state action <;> simp [trace, hstep]

/-- What is observed of the actions alone. -/
theorem Run.trace_eq_filterMap {actions : List Action} {state : State} (hrun : Run step allowed start actions state)
    (g : Action → Option Observation) : trace step (fun _ action => g action) start actions = actions.filterMap g := by
  induction hrun with
  | nil => rfl
  | @snoc actions state next action run _ _ ih =>
    rw [run.trace_snoc, ih, List.filterMap_append]
    cases hg : g action <;> simp [hg]

/-- What is made of the observations is what is observed. -/
theorem trace_filterMap {Other : Type*} (g : Observation → Option Other) (start : State) (actions : List Action) :
    trace step (fun state action => (observe state action).bind g) start actions =
      (trace step observe start actions).filterMap g := by
  induction actions generalizing start with
  | nil => rfl
  | cons action rest ih =>
    rw [trace, trace, List.filterMap_append]
    congr 1
    · cases observe start action with
      | none => rfl
      | some observed => cases hg : g observed <;> simp [hg]
    · cases step start action with
      | none => rfl
      | some next => exact ih next

end Trace

/-- A step function follows another through a view of its states, and stands still where an action is
nothing to the other. -/
structure Projects {State' Action' : Type*} (step : State → Action → Option State) (step' : State' → Action' → Option State')
    (view : State → State') (action' : State → Action → Option Action') : Prop where
  still : ∀ {state next action}, step state action = some next → action' state action = none → view next = view state
  moves : ∀ {state next action taken}, step state action = some next → action' state action = some taken →
    step' (view state) taken = some (view next)

section Projects

variable {State' Action' : Type*} {step' : State' → Action' → Option State'} {allowed' : State' → Action' → Prop}
variable {view : State → State'} {action' : State → Action → Option Action'}

/-- The view of a run is a run. -/
theorem Projects.run (h : Projects step step' view action')
    (hallowed : ∀ state action taken, allowed state action → action' state action = some taken → allowed' (view state) taken)
    {actions : List Action} {state : State} (hrun : Run step allowed start actions state) :
    Run step' allowed' (view start) (trace step action' start actions) (view state) := by
  induction hrun with
  | nil => exact .nil
  | @snoc actions state next action run hpermitted hstep ih =>
    rw [run.trace_snoc]
    cases htaken : action' state action with
    | none =>
      rw [Option.toList_none, List.append_nil, h.still hstep htaken]
      exact ih
    | some taken => exact ih.snoc (hallowed _ _ _ hpermitted htaken) (h.moves hstep htaken)

/-- What is observed through the view of a run is observed of the view's run. -/
theorem Projects.trace_eq (h : Projects step step' view action') {Observation : Type*}
    {observe : State → Action → Option Observation} {observe' : State' → Action' → Option Observation}
    (hobserve : ∀ state action, observe state action = (action' state action).bind (observe' (view state)))
    {actions : List Action} {state : State} (hrun : Run step allowed start actions state) :
    trace step observe start actions = trace step' observe' (view start) (trace step action' start actions) := by
  induction hrun with
  | nil => rfl
  | @snoc actions state next action run hpermitted hstep ih =>
    have hview : Run step' (fun _ _ => True) (view start) (trace step action' start actions) (view state) :=
      h.run (fun _ _ _ _ _ => trivial) run
    rw [run.trace_snoc, run.trace_snoc, hview.trace_append, ih, hobserve]
    cases htaken : action' state action with
    | none => rfl
    | some taken => simp [trace, h.moves hstep htaken]

end Projects

/-- Where every step from a reached state decreases a well-founded measure, there is no
infinite run. -/
theorem Run.not_infinite {Measure : Type*} {lt : Measure → Measure → Prop} (hwf : WellFounded lt)
    (measure : State → Measure)
    (hdecreases : ∀ actions state action next, Run step allowed start actions state →
      allowed state action → step state action = some next → lt (measure next) (measure state)) :
    ¬ ∃ (states : ℕ → State) (actions : ℕ → Action), states 0 = start ∧
      ∀ n, allowed (states n) (actions n) ∧ step (states n) (actions n) = some (states (n + 1)) := by
  rintro ⟨states, actions, hzero, hnext⟩
  have hreached : ∀ n, ∃ taken, Run step allowed start taken (states n) := by
    intro n
    induction n with
    | zero => exact ⟨[], hzero ▸ .nil⟩
    | succ n ih =>
      obtain ⟨taken, hrun⟩ := ih
      exact ⟨_, hrun.snoc (hnext n).1 (hnext n).2⟩
  refine (wellFounded_iff_isEmpty_descending_chain.mp hwf).false ⟨fun n => measure (states n), ?_⟩
  intro n
  obtain ⟨taken, hrun⟩ := hreached n
  exact hdecreases _ _ _ _ hrun (hnext n).1 (hnext n).2

end transition
