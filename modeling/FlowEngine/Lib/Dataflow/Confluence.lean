import FlowEngine.Lib.Dataflow.Legal

namespace dataflow

variable {V W R : Type*} [DecidableEq V] (net : Net V W R) (eval : V → W → R)

/-- The works a node can get in some order, when a work has one result. Sources
may owe their works to different orders. -/
inductive May : V → W → Prop
  | root {v : V} {w : W} (hnil : net.sources v = []) (hroot : net.root v = some w) : May v w
  | join {v : V} {w : W} (works : V → W) (x : V) (hsources : ∀ u ∈ net.sources v, May u (works u))
      (hlast : Last net x v) (hwake : net.wake (fun u => some (eval u (works u))) x v = some w) :
      May v w

/-- The sources of `v` that can finish last decide alike. -/
def UniformAt (v : V) : Prop :=
  ∀ works : V → W, (∀ u ∈ net.sources v, May net eval u (works u)) → ∀ x y, Last net x v → Last net y v →
    net.wake (fun u => some (eval u (works u))) x v = net.wake (fun u => some (eval u (works u))) y v

/-- Any two complete orders give `v` the same work. -/
def ConfluentAt (v : V) : Prop :=
  ∀ first second, Legal net (fun v w r => r = eval v w) first → Legal net (fun v w r => r = eval v w) second →
    Maximal net first → Maximal net second → ∀ w, Activated net first v w ↔ Activated net second v w

variable {net eval}

/-- The result of a finished node is that of its work. -/
theorem Legal.found_eval {order : List (V × R)} (h : Legal net (fun v w r => r = eval v w) order)
    {v : V} {w : W} (hv : v ∈ keys order) (hact : Activated net order v w) :
    found order v = some (eval v w) := by
  obtain ⟨w', r, hact', hfound, rfl⟩ := h.activated hv
  rw [hfound, hact.unique h.nodup hact']

/-- Where the sources of `v` have finished with known works, the closing one decides
on their results. -/
theorem Legal.wake_eval {order : List (V × R)} (h : Legal net (fun v w r => r = eval v w) order)
    {x v : V} {works : V → W} (hx : Closes net order x v)
    (hworks : ∀ u ∈ net.sources v, Activated net order u (works u)) :
    net.wake (found order) x v = net.wake (fun u => some (eval u (works u))) x v :=
  net.wake_congr _ _ x v hx.1 fun u hu => h.found_eval (hx.sources_mem u hu) (hworks u hu)

/-- The works of the sources of a node with a finished source. -/
private theorem Legal.exists_works {order : List (V × R)}
    (h : Legal net (fun v w r => r = eval v w) order) {v : V} (w : W)
    (hall : ∀ u ∈ net.sources v, u ∈ keys order) :
    ∃ works : V → W, ∀ u ∈ net.sources v, Activated net order u (works u) := by
  have hexists : ∀ u, ∃ w, u ∈ net.sources v → Activated net order u w := by
    intro u
    by_cases hu : u ∈ net.sources v
    · obtain ⟨w, _, hact, _, _⟩ := h.activated (hall u hu)
      exact ⟨w, fun _ => hact⟩
    · exact ⟨w, fun hmem => absurd hmem hu⟩
  choose works hworks using hexists
  exact ⟨works, hworks⟩

/-- What an order activates is a possible work. -/
theorem Legal.may_of_activated (hwf : WellFounded (Source net)) {order : List (V × R)}
    (h : Legal net (fun v w r => r = eval v w) order) {v : V} {w : W} (hact : Activated net order v w) :
    May net eval v w := by
  induction v using hwf.induction generalizing w with
  | h v ih =>
    rcases hact with ⟨hnil, hroot⟩ | ⟨x, hx, hwake⟩
    · exact .root hnil hroot
    · obtain ⟨works, hworks⟩ := h.exists_works w hx.sources_mem
      rw [h.wake_eval hx hworks] at hwake
      exact .join works x (fun u hu => ih u hu (hworks u hu)) (h.closes_last hx) hwake

/-- A complete order gives every node its possible work, when sources below it
decide uniformly. -/
theorem Legal.activated_of_may (huniform : ∀ v, UniformAt net eval v) (hwf : WellFounded (Source net))
    {order : List (V × R)} (h : Legal net (fun v w r => r = eval v w) order) (hmax : Maximal net order)
    {v : V} {w : W} (hmay : May net eval v w) : Activated net order v w := by
  induction v using hwf.induction generalizing w with
  | h v ih =>
    cases hmay with
    | root hnil hroot => exact Or.inl ⟨hnil, hroot⟩
    | join works x hsources hlast hwake =>
      have hworks : ∀ u ∈ net.sources v, Activated net order u (works u) := fun u hu =>
        ih u hu (hsources u hu)
      obtain ⟨y, hy⟩ := exists_closes (List.ne_nil_of_mem hlast.1)
        fun u hu => hmax u _ (hworks u hu)
      refine Or.inr ⟨y, hy, ?_⟩
      rw [h.wake_eval hy hworks, huniform v works hsources y x (h.closes_last hy) hlast, hwake]

theorem ConfluentAt.of_uniform (huniform : ∀ v, UniformAt net eval v) (hwf : WellFounded (Source net)) (v : V) :
    ConfluentAt net eval v := by
  intro first second hfirst hsecond hmax hmax' w
  constructor
  · exact fun h => hsecond.activated_of_may huniform hwf hmax' (hfirst.may_of_activated hwf h)
  · exact fun h => hfirst.activated_of_may huniform hwf hmax (hsecond.may_of_activated hwf h)

/-- In an order that holds back only `x`, every ancestor of `v` that does not depend
on `x` has its possible work. -/
private theorem Legal.activated_of_may_avoiding (hwf : WellFounded (Source net)) {x v : V}
    (huniform : ∀ u, Relation.TransGen (Source net) u v → UniformAt net eval u) {order : List (V × R)}
    (h : Legal net (fun v w r => r = eval v w) order)
    (hmax : ∀ u w, Activated net order u w → ¬ u = x → u ∈ keys order) {u : V} {w : W}
    (hbelow : Relation.TransGen (Source net) u v) (hfree : ¬ Relation.TransGen (Source net) x u)
    (hmay : May net eval u w) : Activated net order u w := by
  induction u using hwf.induction generalizing w with
  | h u ih =>
    cases hmay with
    | root hnil hroot => exact Or.inl ⟨hnil, hroot⟩
    | join works y hsources hlast hwake =>
      have hne : ∀ s ∈ net.sources u, ¬ s = x := by
        rintro s hs rfl
        exact hfree (.single hs)
      have hworks : ∀ s ∈ net.sources u, Activated net order s (works s) := fun s hs =>
        ih s hs (.head hs hbelow) (fun hxs => hfree (hxs.tail hs)) (hsources s hs)
      obtain ⟨z, hz⟩ := exists_closes (List.ne_nil_of_mem hlast.1)
        fun s hs => hmax s _ (hworks s hs) (hne s hs)
      refine Or.inr ⟨z, hz, ?_⟩
      rw [h.wake_eval hz hworks, huniform u hbelow works hsources z y (h.closes_last hz) hlast, hwake]

/-- Each source of `v` that no other source waits for closes it in some complete
order: the order that holds it back until nothing else is left. -/
private theorem exists_order_closed_by (hwf : WellFounded (Source net)) (nodes : Finset V)
    (hnodes : ∀ order v w, Activated net order v w → v ∈ nodes) {v x : V}
    (huniform : ∀ u, Relation.TransGen (Source net) u v → UniformAt net eval u) {works : V → W}
    (hsources : ∀ u ∈ net.sources v, May net eval u (works u)) (hlast : Last net x v) :
    ∃ order, Legal net (fun v w r => r = eval v w) order ∧ Maximal net order ∧
      ∀ w, Activated net order v w ↔ net.wake (fun u => some (eval u (works u))) x v = some w := by
  have htotal : ∀ v w, ∃ r, r = eval v w := fun v w => ⟨_, rfl⟩
  have hnil : Legal net (fun v w r => r = eval v w) [] := .nil
  obtain ⟨order, horder, havoid, hmax⟩ :=
    hnil.exists_maximal_avoiding (fun u => u = x) nodes hnodes htotal
  rw [List.nil_append] at horder hmax
  have hworks : ∀ u ∈ net.sources v, Activated net order u (works u) := fun u hu =>
    horder.activated_of_may_avoiding hwf huniform hmax (.single hu) (hlast.2 u hu) (hsources u hu)
  have hheld : x ∉ keys order := fun hmem => havoid x hmem rfl
  have hall : ∀ u ∈ net.sources v, u = x ∨ u ∈ keys order := by
    intro u hu
    by_cases hux : u = x
    · exact Or.inl hux
    · exact Or.inr (hmax u _ (hworks u hu) hux)
  have hlegal := horder.snoc hheld (hworks x hlast.1) rfl
  have hcloses : Closes net (order ++ [(x, eval x (works x))]) x v :=
    closes_snoc.mpr (Or.inr ⟨rfl, hlast.1, hall⟩)
  obtain ⟨rest, hrest, hmaximal⟩ := hlegal.exists_maximal nodes hnodes htotal
  have hcloses' : Closes net (order ++ [(x, eval x (works x))] ++ rest) x v := by
    obtain ⟨hmem, before, r, after, heq, hbefore⟩ := hcloses
    exact ⟨hmem, before, r, after ++ rest, by rw [heq]; simp, hbefore⟩
  refine ⟨_, hrest, hmaximal, fun w => ?_⟩
  rw [activated_iff_wake hrest.nodup hcloses',
    hrest.wake_eval hcloses' fun u hu => (hworks u hu).append.append]

/-- Where complete orders agree all nodes decide uniformly. -/
theorem UniformAt.of_confluent (hconfluent : ∀ v, ConfluentAt net eval v) (hwf : WellFounded (Source net))
    (nodes : Finset V) (hnodes : ∀ order v w, Activated net order v w → v ∈ nodes) (v : V) :
    UniformAt net eval v := by
  induction v using hwf.transGen.induction with
  | h v ih =>
    intro works hsources x y hx hy
    obtain ⟨first, hfirst, hmax, hwake⟩ := exists_order_closed_by hwf nodes hnodes ih hsources hx
    obtain ⟨second, hsecond, hmax', hwake'⟩ := exists_order_closed_by hwf nodes hnodes ih hsources hy
    apply Option.ext
    intro w
    rw [← hwake w, ← hwake' w]
    exact hconfluent v first second hfirst hsecond hmax hmax' w

/-- Completion order is irrelevant exactly when, at every node, the sources that
can finish last decide alike. -/
theorem confluent_iff_uniform (hwf : WellFounded (Source net)) (nodes : Finset V)
    (hnodes : ∀ order v w, Activated net order v w → v ∈ nodes) :
    (∀ v, ConfluentAt net eval v) ↔ ∀ v, UniformAt net eval v :=
  ⟨fun h v => .of_confluent h hwf nodes hnodes v, fun h v => .of_uniform h hwf v⟩

end dataflow
