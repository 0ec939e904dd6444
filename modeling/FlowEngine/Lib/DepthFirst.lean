import FlowEngine.Lib.Digraph
import Mathlib.Data.Finset.Insert

namespace depth_first

/-- A search: the nodes visited, those on the stack, and the labels of the edges that were
found to lead back to the stack. -/
structure Search (V L : Type*) where
  visited : Finset V
  in_stack : Finset V
  back : Finset L

variable {V L : Type*}

section Search

variable [DecidableEq V] [DecidableEq L]

/-- The search goes on from an edge of the node under visit. -/
def follow (visit : V → Search V L → Search V L) (search : Search V L) (edge : L × V) : Search V L :=
  if edge.2 ∈ search.in_stack then { search with back := insert edge.1 search.back }
  else if edge.2 ∉ search.visited then visit edge.2 search
  else search

/-- A node is entered. -/
def enter (node : V) (search : Search V L) : Search V L :=
  { search with visited := insert node search.visited, in_stack := insert node search.in_stack }

/-- A node is left. -/
def leave (node : V) (search : Search V L) : Search V L :=
  { search with in_stack := search.in_stack.erase node }

/-- Depth-first search from a node, to a depth. -/
def visit (out : V → List (L × V)) : Nat → V → Search V L → Search V L
  | 0, _, search => search
  | fuel + 1, node, search =>
    if node ∈ search.visited then search
    else leave node ((out node).foldl (follow (visit out fuel)) (enter node search))

/-- Searches from several nodes, one after the other. -/
def visit_all (out : V → List (L × V)) (fuel : Nat) (roots : List V) : Search V L :=
  roots.foldl (fun search node => visit out fuel node search) ⟨∅, ∅, ∅⟩

end Search

section Relations

variable (out : V → List (L × V))

/-- Some edge leads from `u` to `v`. -/
def Edge (u v : V) : Prop := ∃ l, (l, v) ∈ out u

/-- Some edge leads from `u` to `v` that is not in `back`. -/
def Forward (back : Finset L) (u v : V) : Prop := ∃ l, (l, v) ∈ out u ∧ l ∉ back

/-- A label tells an edge from every other. -/
structure Labelled : Prop where
  source : ∀ {l u u' v v'}, (l, v) ∈ out u → (l, v') ∈ out u' → u = u'
  nodup : ∀ u, ((out u).map Prod.fst).Nodup

/-- A number that falls whenever the target of an edge is visited bounds the depth. -/
structure Bounds [DecidableEq V] (depth : Finset V → Nat) : Prop where
  mono : ∀ {first second}, first ⊆ second → depth second ≤ depth first
  falls : ∀ {u v l visited}, (l, v) ∈ out u → v ∉ visited → depth (insert v visited) < depth visited

/-- A node whose visit is over. -/
def Search.Finished (search : Search V L) (v : V) : Prop := v ∈ search.visited ∧ v ∉ search.in_stack

/-- What holds throughout a search: the edges of a finished node lead to visited nodes, and
to finished ones but for those found to lead back, which close cycles; without these no
finished node is on a cycle. -/
structure Sound (search : Search V L) : Prop where
  on_stack : search.in_stack ⊆ search.visited
  explored : ∀ {u v}, search.Finished u → Edge out u v → v ∈ search.visited
  closed : ∀ {u v}, search.Finished u → Forward out search.back u v → search.Finished v
  acyclic : ∀ {v}, search.Finished v → ¬ Relation.TransGen (Forward out search.back) v v
  cycles : ∀ l ∈ search.back, ∃ u v, (l, v) ∈ out u ∧ u ∈ search.visited ∧ Relation.ReflTransGen (Edge out) v u

/-- An edge from a visited node that was not found to lead back. -/
def Trail (search : Search V L) (u v : V) : Prop := u ∈ search.visited ∧ Forward out search.back u v

/-- What a search has added: it has found edges back from new nodes only, and all new nodes
are on trails of new nodes from a node of `roots`. -/
structure Explores (roots : Set V) (search after : Search V L) : Prop where
  visited : search.visited ⊆ after.visited
  back : search.back ⊆ after.back
  new_back : ∀ l ∈ after.back, l ∉ search.back → ∃ u v, (l, v) ∈ out u ∧ u ∈ after.visited ∧ u ∉ search.visited
  reached : ∀ v ∈ after.visited, v ∉ search.visited →
    ∃ root ∈ roots, Relation.ReflTransGen (fun u v => u ∉ search.visited ∧ Trail out after u v) root v

end Relations

variable {out : V → List (L × V)} {search after : Search V L} {node : V}

theorem Forward.edge {back : Finset L} {u v : V} (h : Forward out back u v) : Edge out u v :=
  let ⟨l, hmem, _⟩ := h
  ⟨l, hmem⟩

theorem Forward.anti {first second : Finset L} (hle : first ⊆ second) {u v : V} (h : Forward out second u v) :
    Forward out first u v :=
  let ⟨l, hmem, hnot⟩ := h
  ⟨l, hmem, fun hback => hnot (hle hback)⟩

/-- From a finished node forward edges lead to finished nodes only. -/
theorem Sound.finished_of_path (h : Sound out search) {u v : V} (hfinished : search.Finished u)
    (hpath : Relation.TransGen (Forward out search.back) u v) : search.Finished v := by
  induction hpath with
  | single hforward => exact h.closed hfinished hforward
  | tail _ hforward ih => exact h.closed ih hforward

/-- Entering a node finishes none. -/
theorem Sound.enter [DecidableEq V] (h : Sound out search) (hnew : node ∉ search.visited) : Sound out (enter node search) := by
  have hfinished : ∀ v, (depth_first.enter node search).Finished v ↔ search.Finished v := by
    intro v
    simp only [Search.Finished, depth_first.enter, Finset.mem_insert, not_or]
    constructor
    · rintro ⟨heq | hvisited, hne, hstack⟩
      · exact absurd heq hne
      · exact ⟨hvisited, hstack⟩
    · rintro ⟨hvisited, hstack⟩
      exact ⟨Or.inr hvisited, fun heq => hnew (heq ▸ hvisited), hstack⟩
  constructor
  · exact Finset.insert_subset_insert node h.on_stack
  · intro u v hu hedge
    exact Finset.mem_insert_of_mem (h.explored ((hfinished u).mp hu) hedge)
  · intro u v hu hforward
    exact (hfinished v).mpr (h.closed ((hfinished u).mp hu) hforward)
  · intro v hv
    exact h.acyclic ((hfinished v).mp hv)
  · intro l hl
    obtain ⟨u, v, hmem, hvisited, hpath⟩ := h.cycles l hl
    exact ⟨u, v, hmem, Finset.mem_insert_of_mem hvisited, hpath⟩

/-- An edge to the stack closes a cycle. -/
theorem Sound.found [DecidableEq L] (h : Sound out search) {l : L} {v : V} (hmem : (l, v) ∈ out node) (hnode : node ∈ search.visited)
    (hpath : Relation.ReflTransGen (Edge out) v node) : Sound out { search with back := insert l search.back } := by
  have hle : search.back ⊆ insert l search.back := Finset.subset_insert l search.back
  constructor
  · exact h.on_stack
  · exact h.explored
  · intro u w hu hforward
    exact h.closed hu (hforward.anti hle)
  · intro w hw hcycle
    exact h.acyclic hw (Relation.TransGen.mono (fun _ _ hforward => Forward.anti hle hforward) w w hcycle)
  · intro k hk
    cases Finset.mem_insert.mp hk with
    | inl heq => exact ⟨node, v, heq ▸ hmem, hnode, hpath⟩
    | inr hold => exact h.cycles k hold

/-- A node is left when its edges lead back or to finished nodes. It cannot be on a cycle: a
forward path from it stays among the nodes finished before. -/
theorem Sound.leave [DecidableEq V] (h : Sound out search) (hstack : node ∈ search.in_stack)
    (hdone : ∀ l v, (l, v) ∈ out node → v ∈ search.visited ∧ (l ∈ search.back ∨ search.Finished v)) :
    Sound out (leave node search) := by
  have hfinished : ∀ v, (depth_first.leave node search).Finished v ↔ v = node ∨ search.Finished v := by
    intro v
    simp only [Search.Finished, depth_first.leave, Finset.mem_erase, not_and]
    constructor
    · rintro ⟨hvisited, hnot⟩
      by_cases heq : v = node
      · exact Or.inl heq
      · exact Or.inr ⟨hvisited, hnot heq⟩
    · rintro (rfl | ⟨hvisited, hnot⟩)
      · exact ⟨h.on_stack hstack, fun hne => absurd rfl hne⟩
      · exact ⟨hvisited, fun _ => hnot⟩
  have hforward : ∀ {v}, Forward out search.back node v → search.Finished v := by
    rintro v ⟨l, hmem, hnot⟩
    exact (hdone l v hmem).2.resolve_left hnot
  constructor
  · exact (Finset.erase_subset _ _).trans h.on_stack
  · rintro u v hu ⟨l, hmem⟩
    cases (hfinished u).mp hu with
    | inl heq => exact (hdone l v (heq ▸ hmem)).1
    | inr hold => exact h.explored hold ⟨l, hmem⟩
  · intro u v hu hedge
    cases (hfinished u).mp hu with
    | inl heq => exact (hfinished v).mpr (Or.inr (hforward (heq ▸ hedge)))
    | inr hold => exact (hfinished v).mpr (Or.inr (h.closed hold hedge))
  · intro v hv hcycle
    cases (hfinished v).mp hv with
    | inl heq =>
      rw [heq] at hcycle
      obtain ⟨w, hfirst, hrest⟩ := Relation.TransGen.head'_iff.mp hcycle
      have hback : search.Finished node := by
        cases Relation.reflTransGen_iff_eq_or_transGen.mp hrest with
        | inl hsame => exact hsame ▸ hforward hfirst
        | inr hpath => exact h.finished_of_path (hforward hfirst) hpath
      exact hback.2 hstack
    | inr hold => exact h.acyclic hold hcycle
  · exact h.cycles

section Visit

variable [DecidableEq V] [DecidableEq L]

/-- A forward edge of a node visited since `search`; from `node` itself one of those `done`. -/
def Taken (out : V → List (L × V)) (node : V) (search : Search V L) (done : List (L × V)) (current : Search V L)
    (u v : V) : Prop :=
  u ∉ search.visited ∧ u ∈ current.visited ∧ ∃ l, (l, v) ∈ out u ∧ l ∉ current.back ∧ (u = node → (l, v) ∈ done)

/-- The visit of a node of whose edges some are `done`. -/
structure Visiting (out : V → List (L × V)) (node : V) (search : Search V L) (done : List (L × V))
    (current : Search V L) : Prop where
  sound : Sound out current
  stack : current.in_stack = insert node search.in_stack
  visited : insert node search.visited ⊆ current.visited
  back : search.back ⊆ current.back
  new_back : ∀ l ∈ current.back, l ∉ search.back →
    ∃ u v, (l, v) ∈ out u ∧ u ∈ current.visited ∧ u ∉ search.visited ∧ (u = node → (l, v) ∈ done)
  reached : ∀ v ∈ current.visited, v ∉ search.visited → Relation.ReflTransGen (Taken out node search done current) node v
  done : ∀ edge ∈ done, edge.2 ∈ current.visited ∧ (edge.1 ∈ current.back ∨ current.Finished edge.2)

/-- The visit of a new node is over. -/
structure Visited (out : V → List (L × V)) (node : V) (search after : Search V L) : Prop where
  sound : Sound out after
  stack : after.in_stack = search.in_stack
  entered : node ∈ after.visited
  explores : Explores out {node} search after

omit [DecidableEq L] in
theorem Sound.start (h : Sound out search) (hnew : node ∉ search.visited) :
    Visiting out node search [] (depth_first.enter node search) := by
  refine ⟨h.enter hnew, rfl, Finset.Subset.refl _, Finset.Subset.refl _, ?_, ?_, ?_⟩
  · intro l hl hnot
    exact absurd hl hnot
  · intro v hv hnot
    cases Finset.mem_insert.mp hv with
    | inl heq => exact heq ▸ .refl
    | inr hold => exact absurd hold hnot
  · intro edge hedge
    cases hedge

section Step

variable {done : List (L × V)} {current : Search V L} {l : L} {v : V} (hlabels : Labelled out) (h : Sound out search)
  (hnew : node ∉ search.visited) (hvisiting : Visiting out node search done current) (hmem : (l, v) ∈ out node)
  (hfresh : l ∉ done.map Prod.fst)

include hlabels h hnew hvisiting hmem hfresh

/-- The next edge has not been found to lead back. -/
theorem Visiting.fresh : l ∉ current.back := by
  intro hback
  by_cases hold : l ∈ search.back
  · obtain ⟨u, w, hother, hvisited, _⟩ := h.cycles l hold
    exact hnew (hlabels.source hother hmem ▸ hvisited)
  · obtain ⟨u, w, hother, _, _, hdone⟩ := hvisiting.new_back l hback hold
    exact hfresh (List.mem_map_of_mem (hdone (hlabels.source hother hmem)))

omit h in
/-- The next edge leads to the stack. -/
theorem Visiting.found (hpath : ∀ m ∈ search.in_stack, Relation.ReflTransGen (Edge out) m node)
    (hstack : v ∈ current.in_stack) :
    Visiting out node search (done ++ [(l, v)]) { current with back := insert l current.back } := by
  have hnode : node ∈ current.visited := hvisiting.visited (Finset.mem_insert_self _ _)
  have hback : Relation.ReflTransGen (Edge out) v node := by
    rw [hvisiting.stack] at hstack
    cases Finset.mem_insert.mp hstack with
    | inl heq => exact heq ▸ .refl
    | inr hold => exact hpath v hold
  refine ⟨hvisiting.sound.found hmem hnode hback, hvisiting.stack, hvisiting.visited,
    hvisiting.back.trans (Finset.subset_insert _ _), ?_, ?_, ?_⟩
  · intro k hk hnot
    cases Finset.mem_insert.mp hk with
    | inl heq =>
      rw [heq]
      exact ⟨node, v, hmem, hnode, hnew, fun _ => List.mem_append_right _ (List.mem_singleton_self _)⟩
    | inr hold =>
      obtain ⟨u, w, hedge, hvisited, hunvisited, hdone⟩ := hvisiting.new_back k hold hnot
      exact ⟨u, w, hedge, hvisited, hunvisited, fun heq => List.mem_append_left _ (hdone heq)⟩
  · intro w hw hnot
    refine Relation.ReflTransGen.mono ?_ _ _ (hvisiting.reached w hw hnot)
    rintro u x ⟨hunvisited, hvisited, k, hedge, hforward, hdone⟩
    refine ⟨hunvisited, hvisited, k, hedge, ?_, fun heq => List.mem_append_left _ (hdone heq)⟩
    intro hk
    cases Finset.mem_insert.mp hk with
    | inl heq =>
      -- only the next edge has its label, and it is not done
      rw [heq] at hedge hdone
      exact hfresh (List.mem_map_of_mem (hdone (hlabels.source hedge hmem)))
    | inr hold => exact hforward hold
  · intro edge hedge
    cases List.mem_append.mp hedge with
    | inl hold =>
      obtain ⟨hvisited, hends⟩ := hvisiting.done edge hold
      exact ⟨hvisited, hends.imp_left fun hback => Finset.mem_insert_of_mem hback⟩
    | inr hlast =>
      rw [List.mem_singleton.mp hlast]
      exact ⟨hvisiting.sound.on_stack hstack, Or.inl (Finset.mem_insert_self _ _)⟩

omit [DecidableEq L] hlabels h hnew hmem hfresh in
/-- The next edge leads to a finished node. -/
theorem Visiting.skip (hvisited : v ∈ current.visited) (hstack : v ∉ current.in_stack) :
    Visiting out node search (done ++ [(l, v)]) current := by
  refine ⟨hvisiting.sound, hvisiting.stack, hvisiting.visited, hvisiting.back, ?_, ?_, ?_⟩
  · intro k hk hnot
    obtain ⟨u, w, hedge, hvisited, hunvisited, hdone⟩ := hvisiting.new_back k hk hnot
    exact ⟨u, w, hedge, hvisited, hunvisited, fun heq => List.mem_append_left _ (hdone heq)⟩
  · intro w hw hnot
    refine Relation.ReflTransGen.mono ?_ _ _ (hvisiting.reached w hw hnot)
    rintro u x ⟨hunvisited, hvisited, k, hedge, hforward, hdone⟩
    exact ⟨hunvisited, hvisited, k, hedge, hforward, fun heq => List.mem_append_left _ (hdone heq)⟩
  · intro edge hedge
    cases List.mem_append.mp hedge with
    | inl hold => exact hvisiting.done edge hold
    | inr hlast =>
      rw [List.mem_singleton.mp hlast]
      exact ⟨hvisited, Or.inr ⟨hvisited, hstack⟩⟩

/-- The next edge leads to a new node, which is visited. -/
theorem Visiting.tree (hafter : Visited out v current after) (hstack : v ∉ current.in_stack) :
    Visiting out node search (done ++ [(l, v)]) after := by
  have hnode : node ∈ current.visited := hvisiting.visited (Finset.mem_insert_self _ _)
  have hold_visited : search.visited ⊆ current.visited := (Finset.subset_insert _ _).trans hvisiting.visited
  -- an edge of a node visited before is not found to lead back now
  have hkeeps : ∀ {k u w}, (k, w) ∈ out u → u ∈ current.visited → k ∉ current.back → k ∉ after.back := by
    intro k u w hedge hvisited hnot hback
    obtain ⟨u', w', hedge', _, hunvisited⟩ := hafter.explores.new_back k hback hnot
    exact hunvisited (hlabels.source hedge hedge' ▸ hvisited)
  have htaken : ∀ u w, Taken out node search done current u w → Taken out node search (done ++ [(l, v)]) after u w := by
    rintro u w ⟨hunvisited, hvisited, k, hedge, hforward, hdone⟩
    exact ⟨hunvisited, hafter.explores.visited hvisited, k, hedge, hkeeps hedge hvisited hforward,
      fun heq => List.mem_append_left _ (hdone heq)⟩
  have hnext : Taken out node search (done ++ [(l, v)]) after node v :=
    ⟨hnew, hafter.explores.visited hnode, l, hmem,
      hkeeps hmem hnode (Visiting.fresh hlabels h hnew hvisiting hmem hfresh),
      fun _ => List.mem_append_right _ (List.mem_singleton_self _)⟩
  have hbelow : ∀ u w, u ∉ current.visited ∧ Trail out after u w → Taken out node search (done ++ [(l, v)]) after u w := by
    rintro u w ⟨hunvisited, hvisited, k, hedge, hforward⟩
    exact ⟨fun hold => hunvisited (hold_visited hold), hvisited, k, hedge, hforward,
      fun heq => absurd (heq ▸ hnode) hunvisited⟩
  refine ⟨hafter.sound, hafter.stack.trans hvisiting.stack, hvisiting.visited.trans hafter.explores.visited,
    hvisiting.back.trans hafter.explores.back, ?_, ?_, ?_⟩
  · intro k hk hnot
    by_cases hold : k ∈ current.back
    · obtain ⟨u, w, hedge, hvisited, hunvisited, hdone⟩ := hvisiting.new_back k hold hnot
      exact ⟨u, w, hedge, hafter.explores.visited hvisited, hunvisited, fun heq => List.mem_append_left _ (hdone heq)⟩
    · obtain ⟨u, w, hedge, hvisited, hunvisited⟩ := hafter.explores.new_back k hk hold
      exact ⟨u, w, hedge, hvisited, fun hold => hunvisited (hold_visited hold),
        fun heq => absurd (heq ▸ hnode) hunvisited⟩
  · intro w hw hnot
    by_cases hold : w ∈ current.visited
    · exact Relation.ReflTransGen.mono htaken _ _ (hvisiting.reached w hold hnot)
    · obtain ⟨root, hroot, hpath⟩ := hafter.explores.reached w hw hold
      rw [Set.mem_singleton_iff.mp hroot] at hpath
      exact .head hnext (Relation.ReflTransGen.mono hbelow _ _ hpath)
  · intro edge hedge
    cases List.mem_append.mp hedge with
    | inl hold =>
      obtain ⟨hvisited, hends⟩ := hvisiting.done edge hold
      refine ⟨hafter.explores.visited hvisited, ?_⟩
      cases hends with
      | inl hback => exact Or.inl (hafter.explores.back hback)
      | inr hfinished => exact Or.inr ⟨hafter.explores.visited hvisited, hafter.stack ▸ hfinished.2⟩
    | inr hlast =>
      rw [List.mem_singleton.mp hlast]
      exact ⟨hafter.entered, Or.inr ⟨hafter.entered, hafter.stack ▸ hstack⟩⟩

end Step

omit [DecidableEq L] in
/-- The node is left when all its edges are done. -/
theorem Visiting.leave {current : Search V L} (hvisiting : Visiting out node search (out node) current)
    (h : Sound out search) (hnew : node ∉ search.visited) : Visited out node search (depth_first.leave node current) := by
  refine ⟨?_, ?_, hvisiting.visited (Finset.mem_insert_self _ _), ?_, hvisiting.back, ?_, ?_⟩
  · refine hvisiting.sound.leave ?_ fun l v hmem => hvisiting.done (l, v) hmem
    rw [hvisiting.stack]
    exact Finset.mem_insert_self _ _
  · change current.in_stack.erase node = search.in_stack
    rw [hvisiting.stack, Finset.erase_insert fun hmem => hnew (h.on_stack hmem)]
  · exact (Finset.subset_insert _ _).trans hvisiting.visited
  · intro l hl hnot
    obtain ⟨u, v, hedge, hvisited, hunvisited, _⟩ := hvisiting.new_back l hl hnot
    exact ⟨u, v, hedge, hvisited, hunvisited⟩
  · intro v hv hnot
    refine ⟨node, rfl, Relation.ReflTransGen.mono ?_ _ _ (hvisiting.reached v hv hnot)⟩
    rintro u w ⟨hunvisited, hvisited, l, hedge, hforward, _⟩
    exact ⟨hunvisited, hvisited, l, hedge, hforward⟩

/-- The visit of a new node that all nodes on the stack reach. -/
theorem visit_spec {depth : Finset V → Nat} (hlabels : Labelled out) (hbounds : Bounds out depth) (fuel : Nat)
    (h : Sound out search) (hnew : node ∉ search.visited)
    (hpath : ∀ m ∈ search.in_stack, Relation.ReflTransGen (Edge out) m node)
    (hfuel : depth (insert node search.visited) < fuel) : Visited out node search (visit out fuel node search) := by
  induction fuel generalizing node search with
  | zero => exact absurd hfuel (Nat.not_lt_zero _)
  | succ fuel ih =>
    rw [visit, if_neg hnew]
    have hloop : ∀ (rest done : List (L × V)) (current : Search V L), out node = done ++ rest →
        Visiting out node search done current →
        Visiting out node search (out node) (rest.foldl (follow (visit out fuel)) current) := by
      intro rest
      induction rest with
      | nil =>
        intro done current hsplit hvisiting
        rw [hsplit, List.append_nil]
        exact hvisiting
      | cons edge rest ih_rest =>
        obtain ⟨l, v⟩ := edge
        intro done current hsplit hvisiting
        have hmem : (l, v) ∈ out node := by
          rw [hsplit]
          exact List.mem_append_right _ List.mem_cons_self
        have hfresh : l ∉ done.map Prod.fst := by
          have hnodup := hlabels.nodup node
          rw [hsplit, List.map_append, List.map_cons] at hnodup
          exact fun hl => (List.nodup_append.mp hnodup).2.2 l hl l List.mem_cons_self rfl
        refine ih_rest (done ++ [(l, v)]) _ (by rw [hsplit, List.append_assoc]; rfl) ?_
        rw [follow]
        by_cases hstack : v ∈ current.in_stack
        · rw [if_pos hstack]
          exact hvisiting.found hlabels hnew hmem hfresh hpath hstack
        rw [if_neg hstack]
        by_cases hvisited : v ∈ current.visited
        · rw [if_neg (not_not.mpr hvisited)]
          exact hvisiting.skip hvisited hstack
        rw [if_pos hvisited]
        refine hvisiting.tree hlabels h hnew hmem hfresh (ih hvisiting.sound hvisited ?_ ?_) hstack
        · intro m hm
          rw [hvisiting.stack] at hm
          cases Finset.mem_insert.mp hm with
          | inl heq => exact heq ▸ .single ⟨l, hmem⟩
          | inr hold => exact (hpath m hold).tail ⟨l, hmem⟩
        · have hfalls := hbounds.falls hmem hvisited
          have hmono := hbounds.mono hvisiting.visited
          omega
    exact (hloop (out node) [] _ rfl (h.start hnew)).leave h hnew

/-- The searches from some roots visit what these reach, all of it over forward edges. -/
structure Searched (out : V → List (L × V)) (roots : List V) (search : Search V L) : Prop where
  sound : Sound out search
  stack : search.in_stack = ∅
  entered : ∀ root ∈ roots, root ∈ search.visited
  reached : ∀ v ∈ search.visited, ∃ root ∈ roots, Relation.ReflTransGen (Trail out search) root v

omit [DecidableEq V] [DecidableEq L] in
/-- One more root that was visited before. -/
theorem Searched.skip {roots : List V} (h : Searched out roots search) (hvisited : node ∈ search.visited) :
    Searched out (roots ++ [node]) search := by
  refine ⟨h.sound, h.stack, ?_, ?_⟩
  · intro root hroot
    cases List.mem_append.mp hroot with
    | inl hold => exact h.entered root hold
    | inr hlast => exact List.mem_singleton.mp hlast ▸ hvisited
  · intro v hv
    obtain ⟨root, hroot, hpath⟩ := h.reached v hv
    exact ⟨root, List.mem_append_left _ hroot, hpath⟩

omit [DecidableEq L] in
/-- One more root that is visited now. -/
theorem Searched.visit {roots : List V} (h : Searched out roots search) (hlabels : Labelled out)
    (hafter : Visited out node search after) : Searched out (roots ++ [node]) after := by
  have htrail : ∀ u v, Trail out search u v → Trail out after u v := by
    rintro u v ⟨hvisited, l, hedge, hforward⟩
    refine ⟨hafter.explores.visited hvisited, l, hedge, fun hback => ?_⟩
    obtain ⟨u', v', hedge', _, hunvisited⟩ := hafter.explores.new_back l hback hforward
    exact hunvisited (hlabels.source hedge hedge' ▸ hvisited)
  refine ⟨hafter.sound, hafter.stack.trans h.stack, ?_, ?_⟩
  · intro root hroot
    cases List.mem_append.mp hroot with
    | inl hold => exact hafter.explores.visited (h.entered root hold)
    | inr hlast => exact List.mem_singleton.mp hlast ▸ hafter.entered
  · intro v hv
    by_cases hold : v ∈ search.visited
    · obtain ⟨root, hroot, hpath⟩ := h.reached v hold
      exact ⟨root, List.mem_append_left _ hroot, Relation.ReflTransGen.mono htrail _ _ hpath⟩
    · obtain ⟨root, hroot, hpath⟩ := hafter.explores.reached v hv hold
      exact ⟨root, List.mem_append_right _ (List.mem_singleton.mpr hroot),
        Relation.ReflTransGen.mono (fun _ _ hstep => hstep.2) _ _ hpath⟩

theorem visit_all_searched {depth : Finset V → Nat} (hlabels : Labelled out) (hbounds : Bounds out depth) {fuel : Nat}
    (hfuel : ∀ visited, depth visited < fuel) (roots : List V) : Searched out roots (visit_all out fuel roots) := by
  have hloop : ∀ (rest done : List V) (search : Search V L), Searched out done search →
      Searched out (done ++ rest) (rest.foldl (fun search node => visit out fuel node search) search) := by
    intro rest
    induction rest with
    | nil =>
      intro done search h
      rw [List.append_nil]
      exact h
    | cons node rest ih =>
      intro done search h
      rw [List.foldl_cons, ← List.singleton_append, ← List.append_assoc]
      refine ih (done ++ [node]) _ ?_
      by_cases hvisited : node ∈ search.visited
      · have hsame : visit out fuel node search = search := by
          cases fuel with
          | zero => rfl
          | succ fuel => rw [visit, if_pos hvisited]
        rw [hsame]
        exact h.skip hvisited
      · refine h.visit hlabels (visit_spec hlabels hbounds fuel h.sound hvisited ?_ (hfuel _))
        rw [h.stack]
        exact fun m hm => absurd hm (Finset.notMem_empty m)
  refine hloop roots [] _ ⟨⟨Finset.Subset.refl _, ?_, ?_, ?_, ?_⟩, rfl, ?_, ?_⟩
  · exact fun hfinished => absurd hfinished.1 (Finset.notMem_empty _)
  · exact fun hfinished => absurd hfinished.1 (Finset.notMem_empty _)
  · exact fun hfinished => absurd hfinished.1 (Finset.notMem_empty _)
  · exact fun l hl => absurd hl (Finset.notMem_empty l)
  · exact fun root hroot => nomatch hroot
  · exact fun v hv => absurd hv (Finset.notMem_empty v)

omit [DecidableEq V] [DecidableEq L] in
theorem Searched.finished {roots : List V} (h : Searched out roots search) {v : V} (hv : v ∈ search.visited) :
    search.Finished v :=
  ⟨hv, by rw [h.stack]; exact Finset.notMem_empty v⟩

omit [DecidableEq V] [DecidableEq L] in
/-- What is visited is what the roots reach. -/
theorem Searched.mem_visited_iff {roots : List V} (h : Searched out roots search) {v : V} :
    v ∈ search.visited ↔ ∃ root ∈ roots, Relation.ReflTransGen (Edge out) root v := by
  constructor
  · intro hv
    obtain ⟨root, hroot, hpath⟩ := h.reached v hv
    exact ⟨root, hroot, Relation.ReflTransGen.mono (fun _ _ htrail => htrail.2.edge) _ _ hpath⟩
  · rintro ⟨root, hroot, hpath⟩
    induction hpath with
    | refl => exact h.entered root hroot
    | tail _ hedge ih => exact h.sound.explored (h.finished ih) hedge

end Visit

end depth_first
