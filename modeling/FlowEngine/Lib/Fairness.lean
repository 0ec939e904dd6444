import FlowEngine.Lib.Transition

namespace transition

variable {State Action Party : Type*}

/-- A party can act. -/
def Enabled (step : State → Action → Option State) (party : Action → Option Party) (state : State) (p : Party) : Prop :=
  ∃ action next, party action = some p ∧ step state action = some next

/-- An endless run, in which time also passes while nothing happens. No party is kept waiting
for ever: one that can act from some time on acts. -/
structure FairRun (step : State → Action → Option State) (allowed : State → Action → Prop) (party : Action → Option Party)
    (start : State) (states : ℕ → State) (taken : ℕ → Option Action) : Prop where
  start : states 0 = start
  moves : ∀ n action, taken n = some action →
    allowed (states n) action ∧ step (states n) action = some (states (n + 1))
  rests : ∀ n, taken n = none → states (n + 1) = states n
  fair : ∀ p n, (∀ m, n ≤ m → Enabled step party (states m) p) →
    ∃ m action, n ≤ m ∧ taken m = some action ∧ party action = some p

variable {step : State → Action → Option State} {allowed : State → Action → Prop} {party : Action → Option Party}
variable {start : State} {states : ℕ → State} {taken : ℕ → Option Action}

/-- What an endless run goes through is reached by runs. -/
theorem FairRun.reached (h : FairRun step allowed party start states taken) (n : ℕ) :
    ∃ actions, Run step allowed start actions (states n) := by
  induction n with
  | zero => exact ⟨[], h.start ▸ .nil⟩
  | succ n ih =>
    obtain ⟨actions, hrun⟩ := ih
    cases htaken : taken n with
    | none => exact ⟨actions, (h.rests n htaken).symm ▸ hrun⟩
    | some action =>
      obtain ⟨hallowed, hstep⟩ := h.moves n action htaken
      exact ⟨actions ++ [action], hrun.snoc hallowed hstep⟩

theorem FairRun.mono {weaker : State → Action → Prop} (hle : ∀ state action, allowed state action → weaker state action)
    (h : FairRun step allowed party start states taken) : FairRun step weaker party start states taken := by
  refine ⟨h.start, fun n action htaken => ?_, h.rests, h.fair⟩
  obtain ⟨hallowed, hstep⟩ := h.moves n action htaken
  exact ⟨hle _ _ hallowed, hstep⟩

section Reaches

variable {Measure : Type*} {lt : Measure → Measure → Prop} {goal : State → Prop}

/-- Until the goal is reached one party can always act. Whatever happens instead of its action
leaves it the one that can, or makes the measure smaller, as the party's own action does. -/
structure Helped (step : State → Action → Option State) (allowed : State → Action → Prop) (party : Action → Option Party)
    (lt : Measure → Measure → Prop) (measure : State → Measure) (helpful : State → Party) (goal : State → Prop)
    (state : State) : Prop where
  enabled : ¬ goal state → Enabled step party state (helpful state)
  keeps : ¬ goal state → ∀ action next, allowed state action → step state action = some next →
    lt (measure next) (measure state) ∨
      party action ≠ some (helpful state) ∧ measure next = measure state ∧ helpful next = helpful state

/-- While neither the goal is reached nor the measure gets smaller, the same party is helpful. -/
theorem FairRun.stays {measure : State → Measure} {helpful : State → Party}
    (h : FairRun step allowed party start states taken)
    (hhelped : ∀ n, Helped step allowed party lt measure helpful goal (states n)) {n m : ℕ} (hle : n ≤ m)
    (hgoal : ∀ k, n ≤ k → ¬ goal (states k)) (hless : ∀ k, n ≤ k → ¬ lt (measure (states k)) (measure (states n))) :
    measure (states m) = measure (states n) ∧ helpful (states m) = helpful (states n) := by
  induction m, hle using Nat.le_induction with
  | base => exact ⟨rfl, rfl⟩
  | succ m hle ih =>
    obtain ⟨hmeasure, hhelpful⟩ := ih
    cases htaken : taken m with
    | none =>
      rw [h.rests m htaken]
      exact ⟨hmeasure, hhelpful⟩
    | some action =>
      obtain ⟨hallowed, hstep⟩ := h.moves m action htaken
      rcases (hhelped m).keeps (hgoal m hle) action _ hallowed hstep with hlt | ⟨_, hsame, hparty⟩
      · rw [hmeasure] at hlt
        exact absurd hlt (hless (m + 1) (Nat.le_succ_of_le hle))
      · exact ⟨hsame.trans hmeasure, hparty.trans hhelpful⟩

/-- A fair run reaches the goal. -/
theorem FairRun.reaches (hwf : WellFounded lt) (measure : State → Measure) (helpful : State → Party)
    (h : FairRun step allowed party start states taken)
    (hhelped : ∀ n, Helped step allowed party lt measure helpful goal (states n)) : ∃ n, goal (states n) := by
  suffices hlater : ∀ (bound : Measure) (n : ℕ), measure (states n) = bound → ∃ m, goal (states m) from hlater _ 0 rfl
  intro bound
  induction bound using hwf.induction with
  | _ bound ih =>
    rintro n rfl
    by_contra hnever
    have hgoal : ∀ k, ¬ goal (states k) := fun k hk => hnever ⟨k, hk⟩
    have hless : ∀ k, n ≤ k → ¬ lt (measure (states k)) (measure (states n)) :=
      fun k _ hlt => hnever (ih _ hlt k rfl)
    have hstays : ∀ m, n ≤ m → measure (states m) = measure (states n) ∧ helpful (states m) = helpful (states n) :=
      fun m hle => h.stays hhelped hle (fun k _ => hgoal k) hless
    -- the party that stays helpful acts at some time, and that is progress
    obtain ⟨m, action, hle, htaken, hparty⟩ := h.fair (helpful (states n)) n fun m hle =>
      (hstays m hle).2 ▸ (hhelped m).enabled (hgoal m)
    obtain ⟨hallowed, hstep⟩ := h.moves m action htaken
    rcases (hhelped m).keeps (hgoal m) action _ hallowed hstep with hlt | ⟨hother, _⟩
    · rw [(hstays m hle).1] at hlt
      exact hless (m + 1) (Nat.le_succ_of_le hle) hlt
    · rw [(hstays m hle).2] at hother
      exact hother hparty

end Reaches

/-- A run after which no party can act goes on for ever at rest. -/
theorem Run.rests {actions : List Action} {last : State} (hrun : Run step allowed start actions last)
    (hrest : ∀ p, ¬ Enabled step party last p) : ∃ states taken, FairRun step allowed party start states taken ∧
      states actions.length = last := by
  have hfirst : ∀ n, ∃ middle, Run step allowed start (actions.take n) middle := by
    intro n
    rw [← List.take_append_drop n actions] at hrun
    exact hrun.of_first
  choose states hstates using hfirst
  have hlast : ∀ n, actions.length ≤ n → states n = last := by
    intro n hle
    have hwhole := hstates n
    rw [List.take_of_length_le hle] at hwhole
    exact hwhole.unique hrun
  refine ⟨states, fun n => actions[n]?, ⟨?_, ?_, ?_, ?_⟩, hlast _ le_rfl⟩
  · exact (hstates 0).unique (Run.nil : Run step allowed start [] start)
  · intro n action htaken
    obtain ⟨hlt, rfl⟩ := List.getElem?_eq_some_iff.mp htaken
    have hnext := hstates (n + 1)
    rw [List.take_succ_eq_append_getElem hlt] at hnext
    obtain ⟨middle, next, hbefore, hallowed, hstep⟩ := hnext.split
    cases hbefore.unique (hstates n)
    cases (hbefore.snoc hallowed hstep).unique hnext
    exact ⟨hallowed, hstep⟩
  · intro n htaken
    have hle := List.getElem?_eq_none_iff.mp htaken
    exact (hlast (n + 1) (Nat.le_succ_of_le hle)).trans (hlast n hle).symm
  · intro p n henabled
    have hend := henabled (max n actions.length) (Nat.le_max_left _ _)
    rw [hlast _ (Nat.le_max_right _ _)] at hend
    exact absurd hend (hrest p)

end transition
