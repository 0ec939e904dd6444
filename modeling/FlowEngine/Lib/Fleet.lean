import FlowEngine.Lib.Broadcast
import FlowEngine.Lib.Transition
import Mathlib.Logic.Function.Basic

namespace broadcast

/-- Channels under their keys, and the tasks that read from them, each with what it was set up with. -/
structure Fleet (κ γ α β : Type*) where
  channels : κ → Option (Channel α)
  readers : List (γ × Reader β)

inductive FleetAction (κ γ α : Type*) where
  | publish (key : κ) (a : α)
  | subscribe (setup : γ)
  | receive (index : Nat)
  | hand (index : Nat)
  | stop (index : Nat)

section Fleet

variable {κ γ α β : Type*} [DecidableEq κ] (capacity : Nat) (key : γ → κ) (f : γ → α → Option β)

/-- A value is lost where no channel has its key or no reader of the channel is left. The first
reader of a key makes the channel. -/
def fleet_step (s : Fleet κ γ α β) : FleetAction κ γ α → Option (Fleet κ γ α β)
  | .publish k a =>
    match s.channels k with
    | none => some s
    | some ch =>
      if s.readers.all fun r => key r.1 ≠ k || r.2.stopped then some s
      else some { s with channels := Function.update s.channels k (some (ch.send a)) }
  | .subscribe setup =>
    let ch := (s.channels (key setup)).getD (.new capacity)
    some ⟨Function.update s.channels (key setup) (some ch), s.readers ++ [(setup, .subscribe ch)]⟩
  | .receive index => s.readers[index]?.bind fun r =>
    if r.2.stopped || r.2.pending.isSome then none
    else (s.channels (key r.1)).bind fun ch => (ch.recv r.2.next).map fun read =>
      { s with readers := s.readers.set index (r.1, r.2.told (f r.1) read.2 read.1) }
  | .hand index => s.readers[index]?.bind fun r =>
    if r.2.stopped || r.2.pending.isNone then none
    else some { s with readers := s.readers.set index (r.1, r.2.handed) }
  | .stop index => s.readers[index]?.map fun r => { s with readers := s.readers.set index (r.1, r.2.stop) }

/-- A value that is published under the key of a reader. -/
def published_at (index : Nat) (s : Fleet κ γ α β) : FleetAction κ γ α → Option α
  | .publish k a => if (s.readers[index]?.map fun r => key r.1) = some k then some a else none
  | _ => none

/-- What a reader is told when it receives. -/
def told_at (index : Nat) (s : Fleet κ γ α β) : FleetAction κ γ α → Option (Told α)
  | .receive i =>
    if i = index then (s.readers[i]?.bind fun r => (s.channels (key r.1)).bind fun ch => ch.recv r.2.next).map Prod.fst
    else none
  | _ => none

/-- What a reader hands on. -/
def handed_at (index : Nat) (s : Fleet κ γ α β) : FleetAction κ γ α → Option β
  | .hand i => if i = index then s.readers[i]?.bind fun r => r.2.pending else none
  | _ => none

/-- What an action does. -/
inductive FleetMove (s : Fleet κ γ α β) : FleetAction κ γ α → Fleet κ γ α β → Prop where
  | lost {k : κ} {a : α} (hstopped : ∀ r ∈ s.readers, s.channels k ≠ none → key r.1 = k → r.2.stopped = true) :
      FleetMove s (.publish k a) s
  | publish {k : κ} {a : α} {ch : Channel α} (hchannel : s.channels k = some ch) :
      FleetMove s (.publish k a) { s with channels := Function.update s.channels k (some (ch.send a)) }
  | subscribe {setup : γ} {ch : Channel α} (hchannel : (s.channels (key setup)).getD (.new capacity) = ch) :
      FleetMove s (.subscribe setup)
        ⟨Function.update s.channels (key setup) (some ch), s.readers ++ [(setup, .subscribe ch)]⟩
  | receive {index after : Nat} {r : γ × Reader β} {ch : Channel α} {t : Told α} (hreader : s.readers[index]? = some r)
      (hrunning : r.2.stopped = false) (hfree : r.2.pending = none) (hchannel : s.channels (key r.1) = some ch)
      (hrecv : ch.recv r.2.next = some (t, after)) :
      FleetMove s (.receive index) { s with readers := s.readers.set index (r.1, r.2.told (f r.1) after t) }
  | hand {index : Nat} {r : γ × Reader β} {b : β} (hreader : s.readers[index]? = some r) (hpending : r.2.pending = some b) :
      FleetMove s (.hand index) { s with readers := s.readers.set index (r.1, r.2.handed) }
  | stop {index : Nat} {r : γ × Reader β} (hreader : s.readers[index]? = some r) :
      FleetMove s (.stop index) { s with readers := s.readers.set index (r.1, r.2.stop) }

variable {capacity key f}

theorem fleet_moves {s next : Fleet κ γ α β} {action : FleetAction κ γ α} (h : fleet_step capacity key f s action = some next) :
    FleetMove capacity key f s action next := by
  cases action with
  | publish k a =>
    simp only [fleet_step] at h
    split at h
    · rename_i hnone
      cases h
      exact .lost fun r _ hsome => absurd hnone hsome
    · rename_i hchannel
      split at h
      · rename_i hall
        cases h
        refine .lost fun r hr _ hkey => ?_
        have hr' := List.all_eq_true.mp hall r hr
        simpa [hkey] using hr'
      · cases h
        exact .publish hchannel
  | subscribe setup =>
    cases h
    exact .subscribe rfl
  | receive index =>
    obtain ⟨r, hreader, hrest⟩ := Option.bind_eq_some_iff.mp h
    split at hrest
    · cases hrest
    · rename_i hfree
      simp only [Bool.or_eq_true, not_or, Bool.not_eq_true, Option.isSome_eq_false_iff, Option.isNone_iff_eq_none] at hfree
      obtain ⟨ch, hchannel, hread⟩ := Option.bind_eq_some_iff.mp hrest
      obtain ⟨read, hrecv, rfl⟩ := Option.map_eq_some_iff.mp hread
      exact .receive hreader hfree.1 hfree.2 hchannel hrecv
  | hand index =>
    obtain ⟨r, hreader, hrest⟩ := Option.bind_eq_some_iff.mp h
    split at hrest
    · cases hrest
    · rename_i hfree
      simp only [Bool.or_eq_true, not_or, Bool.not_eq_true, Option.isNone_eq_false_iff] at hfree
      obtain ⟨b, hpending⟩ := Option.isSome_iff_exists.mp hfree.2
      cases hrest
      exact .hand hreader hpending
  | stop index =>
    obtain ⟨r, hreader, rfl⟩ := Option.map_eq_some_iff.mp h
    exact .stop hreader

/-- Readers stay in their places. -/
theorem readers_le {s next : Fleet κ γ α β} {action : FleetAction κ γ α} (h : fleet_step capacity key f s action = some next) :
    s.readers.length ≤ next.readers.length := by
  cases fleet_moves h with
  | lost | publish => exact le_rfl
  | subscribe => simp
  | receive | hand | stop => simp

/-- Only its own `stop` stops a reader. -/
theorem stopped_step {s next : Fleet κ γ α β} {action : FleetAction κ γ α} {index : Nat}
    (h : fleet_step capacity key f s action = some next) (hindex : index < s.readers.length) (hstop : action ≠ .stop index) :
    (next.readers[index]?.map fun r => r.2.stopped) = s.readers[index]?.map fun r => r.2.stopped := by
  cases fleet_moves h with
  | lost | publish => rfl
  | subscribe => rw [List.getElem?_append_left hindex]
  | @receive other after r ch t hreader =>
    by_cases hother : other = index
    · subst hother
      rw [List.getElem?_set_self hindex, hreader]
      cases t <;> rfl
    · rw [List.getElem?_set_ne hother]
  | @hand other r b hreader =>
    by_cases hother : other = index
    · subst hother
      rw [List.getElem?_set_self hindex, hreader]
      rfl
    · rw [List.getElem?_set_ne hother]
  | @stop other r hreader =>
    have hother : other ≠ index := fun heq => hstop (congrArg FleetAction.stop heq)
    rw [List.getElem?_set_ne hother]

end Fleet

section Runs

variable {κ γ α β : Type*} [DecidableEq κ] {capacity : Nat} {key : γ → κ} {f : γ → α → Option β}
variable {start s : Fleet κ γ α β} {actions : List (FleetAction κ γ α)} {action : FleetAction κ γ α}

variable (capacity key f start) in
/-- The runs of a fleet. -/
abbrev FleetRun : List (FleetAction κ γ α) → Fleet κ γ α β → Prop :=
  transition.Run (fleet_step capacity key f) (fun _ _ => True) start

variable (capacity key f start) in
abbrev fleet_published (index : Nat) : List (FleetAction κ γ α) → List α :=
  transition.trace (fleet_step capacity key f) (published_at key index) start

variable (capacity key f start) in
abbrev fleet_told (index : Nat) : List (FleetAction κ γ α) → List (Told α) :=
  transition.trace (fleet_step capacity key f) (told_at key index) start

variable (capacity key f start) in
abbrev fleet_handed (index : Nat) : List (FleetAction κ γ α) → List β :=
  transition.trace (fleet_step capacity key f) (handed_at index) start

variable (capacity key f start) in
/-- Each reader follows its channel, and what has not been set up has no history. -/
structure Followed (s : Fleet κ γ α β) (actions : List (FleetAction κ γ α)) : Prop where
  readers : ∀ index r, s.readers[index]? = some r → ∃ ch, s.channels (key r.1) = some ch ∧
    Tracks (f r.1) ch r.2 (fleet_published capacity key f start index actions) (fleet_told capacity key f start index actions)
      (fleet_handed capacity key f start index actions)
  silent : ∀ index, s.readers.length ≤ index → fleet_published capacity key f start index actions = [] ∧
    fleet_told capacity key f start index actions = [] ∧ fleet_handed capacity key f start index actions = []
  history : ∀ k ch, s.channels k = some ch → ∃ sent, ch.Holds sent

/-- Nobody reads yet, and the channels are new. -/
structure Fresh (s : Fleet κ γ α β) : Prop where
  readers : s.readers = []
  channels : ∀ k ch, s.channels k = some ch → ch.Holds []

/-- An action is nothing to a reader. -/
structure Quiet (key : γ → κ) (s : Fleet κ γ α β) (action : FleetAction κ γ α) (index : Nat) : Prop where
  published : published_at key index s action = none
  told : told_at key index s action = none
  handed : handed_at index s action = none

section Snoc

variable (hrun : FleetRun capacity key f start actions s) (index : Nat)
include hrun

theorem fleet_published_snoc : fleet_published capacity key f start index (actions ++ [action]) =
    fleet_published capacity key f start index actions ++ (published_at key index s action).toList :=
  hrun.trace_snoc action

theorem fleet_told_snoc : fleet_told capacity key f start index (actions ++ [action]) =
    fleet_told capacity key f start index actions ++ (told_at key index s action).toList :=
  hrun.trace_snoc action

theorem fleet_handed_snoc : fleet_handed capacity key f start index (actions ++ [action]) =
    fleet_handed capacity key f start index actions ++ (handed_at index s action).toList :=
  hrun.trace_snoc action

end Snoc

omit [DecidableEq κ] in
theorem reader_lt {index : Nat} {r : γ × Reader β} (h : s.readers[index]? = some r) : index < s.readers.length :=
  (List.getElem?_eq_some_iff.mp h).1

/-- A reader follows its channel over an action that is nothing to it. -/
theorem Followed.quiet (h : Followed capacity key f start s actions) (hrun : FleetRun capacity key f start actions s)
    {index : Nat} {r : γ × Reader β} (hreader : s.readers[index]? = some r) (hquiet : Quiet key s action index) :
    ∃ ch, s.channels (key r.1) = some ch ∧ Tracks (f r.1) ch r.2
      (fleet_published capacity key f start index (actions ++ [action]))
      (fleet_told capacity key f start index (actions ++ [action]))
      (fleet_handed capacity key f start index (actions ++ [action])) := by
  rw [fleet_published_snoc hrun, fleet_told_snoc hrun, fleet_handed_snoc hrun, hquiet.published, hquiet.told, hquiet.handed]
  simpa using h.readers index r hreader

/-- What has not been set up stays without history where an action is nothing to it. -/
theorem Followed.silent_snoc (h : Followed capacity key f start s actions) (hrun : FleetRun capacity key f start actions s)
    {index : Nat} (hlength : s.readers.length ≤ index) (hquiet : Quiet key s action index) :
    fleet_published capacity key f start index (actions ++ [action]) = [] ∧
      fleet_told capacity key f start index (actions ++ [action]) = [] ∧
      fleet_handed capacity key f start index (actions ++ [action]) = [] := by
  obtain ⟨hpublished, htold, hhanded⟩ := h.silent index hlength
  rw [fleet_published_snoc hrun, fleet_told_snoc hrun, fleet_handed_snoc hrun, hquiet.published, hquiet.told, hquiet.handed,
    hpublished, htold, hhanded]
  exact ⟨rfl, rfl, rfl⟩

/-- An action that changes one reader, and is nothing to the others. -/
theorem Followed.set (h : Followed capacity key f start s actions) (hrun : FleetRun capacity key f start actions s)
    {index : Nat} {r : γ × Reader β} (hreader : s.readers[index]? = some r) {reader : Reader β}
    (hquiet : ∀ other, other ≠ index → Quiet key s action other)
    (htracks : ∀ ch, s.channels (key r.1) = some ch → Tracks (f r.1) ch reader
      (fleet_published capacity key f start index (actions ++ [action]))
      (fleet_told capacity key f start index (actions ++ [action]))
      (fleet_handed capacity key f start index (actions ++ [action]))) :
    Followed capacity key f start { s with readers := s.readers.set index (r.1, reader) } (actions ++ [action]) := by
  refine ⟨fun other r' hr' => ?_, fun other hlength => ?_, h.history⟩
  · dsimp only at hr'
    rw [List.getElem?_set] at hr'
    split at hr'
    · rename_i heq
      subst heq
      rw [if_pos (reader_lt hreader)] at hr'
      cases hr'
      obtain ⟨ch, hchannel, _⟩ := h.readers index r hreader
      exact ⟨ch, hchannel, htracks ch hchannel⟩
    · rename_i hne
      exact h.quiet hrun hr' (hquiet other (Ne.symm hne))
  · rw [List.length_set] at hlength
    exact h.silent_snoc hrun hlength (hquiet other (Nat.ne_of_gt ((reader_lt hreader).trans_le hlength)))

theorem run_followed (hfresh : Fresh start) (hrun : FleetRun capacity key f start actions s) :
    Followed capacity key f start s actions := by
  refine hrun.invariant (P := fun actions s => Followed capacity key f start s actions) ?_ ?_
  · refine ⟨fun index r hr => ?_, fun _ _ => ⟨rfl, rfl, rfl⟩, fun k ch hch => ⟨[], hfresh.channels k ch hch⟩⟩
    rw [hfresh.readers] at hr
    cases hr
  intro actions s action next run h _ hstep
  cases fleet_moves hstep with
  | @lost k a hstopped =>
    refine ⟨fun index r hr => ?_, fun index hlength => ?_, h.history⟩
    · by_cases hkey : key r.1 = k
      · have hpublished_at : published_at key index s (.publish k a) = some a := by simp [published_at, hr, hkey]
        obtain ⟨ch, hchannel, htracks⟩ := h.readers index r hr
        refine ⟨ch, hchannel, ?_⟩
        rw [fleet_published_snoc run, fleet_told_snoc run, fleet_handed_snoc run, hpublished_at]
        have hopen : s.channels k ≠ none := by rw [← hkey, hchannel]; exact Option.some_ne_none _
        simpa [told_at, handed_at] using htracks.stopped (hstopped r (List.mem_of_getElem? hr) hopen hkey) ch [a]
      · exact h.quiet run hr ⟨by simp [published_at, hr, hkey], rfl, rfl⟩
    · exact h.silent_snoc run hlength ⟨by simp [published_at, List.getElem?_eq_none hlength], rfl, rfl⟩
  | @publish k a ch hchannel =>
    refine ⟨fun index r hr => ?_, fun index hlength => ?_, fun k' ch' hch' => ?_⟩
    · by_cases hkey : key r.1 = k
      · have hpublished_at : published_at key index s (.publish k a) = some a := by
          change (if (s.readers[index]?.map fun r => key r.1) = some k then some a else none) = some a
          have hr' : s.readers[index]? = some r := hr
          rw [hr', Option.map_some, hkey, if_pos rfl]
        obtain ⟨ch', hchannel', htracks⟩ := h.readers index r hr
        rw [hkey, hchannel] at hchannel'
        cases hchannel'
        refine ⟨ch.send a, by rw [hkey]; exact Function.update_self .., ?_⟩
        rw [fleet_published_snoc run, fleet_told_snoc run, fleet_handed_snoc run, hpublished_at]
        simpa [told_at, handed_at] using htracks.send a
      · have hquiet : Quiet key s (.publish k a) index := by
          have hr' : s.readers[index]? = some r := hr
          exact ⟨by simp [published_at, hr', hkey], rfl, rfl⟩
        obtain ⟨ch', hchannel', htracks⟩ := h.quiet run hr hquiet
        exact ⟨ch', (Function.update_of_ne hkey ..).trans hchannel', htracks⟩
    · have hquiet : Quiet key s (.publish k a) index := by
        have hnone : s.readers[index]? = none := List.getElem?_eq_none hlength
        exact ⟨by simp [published_at, hnone], rfl, rfl⟩
      exact h.silent_snoc run hlength hquiet
    · by_cases hk : k' = k
      · subst hk
        obtain ⟨sent, hholds⟩ := h.history k' ch hchannel
        cases (Function.update_self ..).symm.trans hch'
        exact ⟨_, hholds.send a⟩
      · exact h.history k' ch' ((Function.update_of_ne hk ..).symm.trans hch')
  | @subscribe setup ch hchannel =>
    have hsame : ∀ {k ch'}, s.channels k = some ch' → Function.update s.channels (key setup) (some ch) k = some ch' := by
      intro k ch' hch'
      by_cases hk : k = key setup
      · subst hk
        rw [hch'] at hchannel
        rw [Function.update_self, ← hchannel]
        rfl
      · rw [Function.update_of_ne hk, hch']
    have hholds : ∃ sent, ch.Holds sent := by
      cases hold : s.channels (key setup) with
      | none =>
        rw [hold] at hchannel
        subst hchannel
        exact ⟨[], Channel.holds_new capacity⟩
      | some ch' =>
        rw [hold] at hchannel
        subst hchannel
        exact h.history _ _ hold
    have hquiet : ∀ index, Quiet key s (.subscribe setup) index := fun _ => ⟨rfl, rfl, rfl⟩
    refine ⟨fun index r hr => ?_, fun index hlength => ?_, fun k ch' hch' => ?_⟩
    · dsimp only at hr
      rw [List.getElem?_append] at hr
      split at hr
      · obtain ⟨ch', hch', htracks⟩ := h.quiet run hr (hquiet index)
        exact ⟨ch', hsame hch', htracks⟩
      · rename_i hlength
        cases List.mem_singleton.mp (List.mem_of_getElem? hr)
        obtain ⟨hpublished, htold, hhanded⟩ := h.silent_snoc run (Nat.le_of_not_lt hlength) (hquiet index)
        refine ⟨ch, Function.update_self .., ?_⟩
        rw [hpublished, htold, hhanded]
        obtain ⟨sent, hsent⟩ := hholds
        exact tracks_subscribe hsent
    · rw [List.length_append] at hlength
      exact h.silent_snoc run (Nat.le_of_add_right_le hlength) (hquiet index)
    · by_cases hk : k = key setup
      · subst hk
        cases (Function.update_self ..).symm.trans hch'
        exact hholds
      · exact h.history k ch' ((Function.update_of_ne hk ..).symm.trans hch')
  | @receive index after r ch t hreader hrunning hfree hchannel hrecv =>
    have htold_at : told_at key index s (.receive index) = some t := by simp [told_at, hreader, hchannel, hrecv]
    refine h.set run hreader (fun other hne => ⟨rfl, if_neg (Ne.symm hne), rfl⟩) fun ch' hch' => ?_
    obtain ⟨_, hchannel', htracks⟩ := h.readers index r hreader
    cases hch'.symm.trans hchannel
    cases hch'.symm.trans hchannel'
    rw [fleet_published_snoc run, fleet_told_snoc run, fleet_handed_snoc run, htold_at]
    simpa [published_at, handed_at] using htracks.recv hrunning hfree hrecv
  | @hand index r b hreader hpending =>
    have hhanded_at : handed_at (κ := κ) (α := α) index s (.hand index) = some b := by simp [handed_at, hreader, hpending]
    refine h.set run hreader (fun other hne => ⟨rfl, rfl, if_neg (Ne.symm hne)⟩) fun ch hchannel => ?_
    obtain ⟨_, hchannel', htracks⟩ := h.readers index r hreader
    cases hchannel.symm.trans hchannel'
    rw [fleet_published_snoc run, fleet_told_snoc run, fleet_handed_snoc run, hhanded_at]
    simpa [published_at, told_at] using htracks.hand hpending
  | @stop index r hreader =>
    refine h.set run hreader (fun other _ => ⟨rfl, rfl, rfl⟩) fun ch hchannel => ?_
    obtain ⟨_, hchannel', htracks⟩ := h.readers index r hreader
    cases hchannel.symm.trans hchannel'
    rw [fleet_published_snoc run, fleet_told_snoc run, fleet_handed_snoc run]
    simpa [published_at, told_at, handed_at] using htracks.stop

/-- A channel that keeps values goes on keeping them. -/
theorem run_capacity (hstart : ∀ k ch, start.channels k = some ch → 0 < ch.capacity)
    (hrun : FleetRun capacity key f start actions s) : ∀ k ch, s.channels k = some ch → 0 < ch.capacity := by
  refine hrun.invariant (P := fun _ s => ∀ k ch, s.channels k = some ch → 0 < ch.capacity) hstart ?_
  intro _ s _ next _ h _ hstep k ch hch
  cases fleet_moves hstep with
  | lost | receive | hand | stop => exact h k ch hch
  | @publish key' a old hold =>
    by_cases hk : k = key'
    · subst hk
      cases (Function.update_self ..).symm.trans hch
      exact h k old hold
    · exact h k ch ((Function.update_of_ne hk ..).symm.trans hch)
  | @subscribe setup made hmade =>
    by_cases hk : k = key setup
    · subst hk
      cases (Function.update_self ..).symm.trans hch
      cases hold : s.channels (key setup) with
      | none =>
        rw [hold] at hmade
        subst hmade
        exact Channel.new_capacity_pos capacity
      | some old =>
        rw [hold] at hmade
        subst hmade
        exact h _ _ hold
    · exact h k ch ((Function.update_of_ne hk ..).symm.trans hch)

/-- Of what is published since it was set up, a reader has read the first part, in order and but for what
it was told it missed, and has handed on what it makes of that. -/
theorem run_reads (hfresh : Fresh start) (hrun : FleetRun capacity key f start actions s) {index : Nat} {r : γ × Reader β}
    (hreader : s.readers[index]? = some r) :
    ∃ read rest, fleet_published capacity key f start index actions = read ++ rest ∧
      Covers read (fleet_told capacity key f start index actions) ∧
      fleet_handed capacity key f start index actions ++ r.2.pending.toList =
        ((fleet_told capacity key f start index actions).filterMap Told.value?).filterMap (f r.1) := by
  obtain ⟨ch, _, htracks⟩ := (run_followed hfresh hrun).readers index r hreader
  obtain ⟨read, rest, hsplit, hcovers, _⟩ := htracks.read
  exact ⟨read, rest, hsplit, hcovers, htracks.handed⟩

section ReadUp

variable (hfresh : Fresh start) (hrun : FleetRun capacity key f start actions s) {index : Nat} {r : γ × Reader β}
  (hreader : s.readers[index]? = some r) (hrunning : r.2.stopped = false) (hfree : r.2.pending = none)
  (hnone : fleet_step capacity key f s (.receive index) = none)

omit hrun hfresh in
include hreader hrunning hfree hnone in
theorem receive_none {ch : Channel α} (hchannel : s.channels (key r.1) = some ch) : ch.recv r.2.next = none := by
  cases hread : ch.recv r.2.next with
  | none => rfl
  | some told => simp [fleet_step, hreader, hrunning, hfree, hchannel, hread] at hnone

include hfresh hrun hreader hrunning hfree hnone

/-- A reader that is free and has nothing to receive has been told of all that was published. -/
theorem run_read_up : Covers (fleet_published capacity key f start index actions) (fleet_told capacity key f start index actions) := by
  obtain ⟨ch, hchannel, htracks⟩ := (run_followed hfresh hrun).readers index r hreader
  exact htracks.read_up hrunning (receive_none hreader hrunning hfree hnone hchannel)

/-- The last that it was told is the last value. -/
theorem run_told_last (hcapacity : ∀ k ch, start.channels k = some ch → 0 < ch.capacity) {earlier : List α} {a : α}
    (hpublished : fleet_published capacity key f start index actions = earlier ++ [a]) :
    ∃ before, fleet_told capacity key f start index actions = before ++ [.value a] := by
  obtain ⟨ch, hchannel, htracks⟩ := (run_followed hfresh hrun).readers index r hreader
  rw [hpublished] at htracks
  exact htracks.told_last hrunning (run_capacity hcapacity hrun _ _ hchannel)
    (receive_none hreader hrunning hfree hnone hchannel)

end ReadUp

section Unread

variable {next : Fleet κ γ α β} {index : Nat}

omit [DecidableEq κ] in
variable (key) in
/-- The values that a reader is behind, while it can receive. -/
def unread (index : Nat) (s : Fleet κ γ α β) : Nat :=
  ((s.readers[index]?.bind fun r =>
    if r.2.stopped || r.2.pending.isSome then none
    else (s.channels (key r.1)).map fun ch => ch.tail - r.2.next).getD 0)

/-- A reader that is behind can receive. -/
theorem receive_of_unread (h : 0 < unread key index s) : ∃ next, fleet_step capacity key f s (.receive index) = some next := by
  unfold unread at h
  cases hreader : s.readers[index]? with
  | none => simp [hreader] at h
  | some r =>
    simp only [hreader, Option.bind_some] at h
    split at h
    · exact absurd h (Nat.lt_irrefl 0)
    · rename_i hfree
      cases hchannel : s.channels (key r.1) with
      | none => simp [hchannel] at h
      | some ch =>
        simp only [hchannel, Option.map_some, Option.getD_some] at h
        cases hrecv : ch.recv r.2.next with
        | none =>
          have hpast := ch.recv_none hrecv
          omega
        | some told =>
          simp only [fleet_step, hreader, Option.bind_some, hfree, hchannel, hrecv]
          exact ⟨_, rfl⟩

/-- One that receives is behind, and catches up. -/
theorem unread_receive (h : fleet_step capacity key f s (.receive index) = some next) :
    unread key index next < unread key index s := by
  generalize haction : FleetAction.receive index = action at h
  cases fleet_moves h with
  | @receive other after r ch t hreader hrunning hfree hchannel hrecv =>
    cases haction
    obtain ⟨hless, hle⟩ := Channel.recv_next hrecv
    have hlt := reader_lt hreader
    have hbefore : unread key index s = ch.tail - r.2.next := by
      simp [unread, hreader, hrunning, hfree, hchannel]
    rw [hbefore]
    unfold unread
    simp only [List.getElem?_set_self hlt, Option.bind_some]
    split
    · simp only [Option.getD_none]
      omega
    · have hnext : (r.2.told (f r.1) after t).next = after := by cases t <;> rfl
      simp only [hchannel, Option.map_some, Option.getD_some, hnext]
      omega
  | _ => cases haction

/-- What others do, but for publishing, does not put a reader behind. -/
theorem unread_le {action : FleetAction κ γ α} (h : fleet_step capacity key f s action = some next)
    (hsilent : ∀ k a, action ≠ .publish k a) (hhand : ∀ other, action ≠ .hand other) :
    unread key index next ≤ unread key index s := by
  cases fleet_moves h with
  | lost | publish => exact absurd rfl (hsilent _ _)
  | hand => exact absurd rfl (hhand _)
  | @receive other after r ch t hreader hrunning hfree hchannel hrecv =>
    by_cases hindex : other = index
    · subst hindex
      exact (unread_receive h).le
    · simp [unread, List.getElem?_set_ne hindex]
  | @stop other r hreader =>
    by_cases hindex : other = index
    · subst hindex
      simp [unread, List.getElem?_set_self (reader_lt hreader), Reader.stop]
    · simp [unread, List.getElem?_set_ne hindex]
  | @subscribe setup ch hchannel =>
    cases hreader : s.readers[index]? with
    | none =>
      -- the new reader has nothing to read
      have hlength := List.getElem?_eq_none_iff.mp hreader
      unfold unread
      simp only [hreader, Option.bind_none, Option.getD_none, List.getElem?_append_right hlength]
      cases hnew : [(setup, (Reader.subscribe ch : Reader β))][index - s.readers.length]? with
      | none => exact le_rfl
      | some r =>
        cases List.mem_singleton.mp (List.mem_of_getElem? hnew)
        simp [Reader.subscribe]
    | some r =>
      unfold unread
      simp only [hreader, Option.bind_some, List.getElem?_append_left (reader_lt hreader)]
      split
      · exact le_rfl
      · by_cases hkey : key r.1 = key setup
        · rw [hkey, Function.update_self, ← hchannel]
          cases s.channels (key setup) with
          | none => simp [Channel.new]
          | some old => exact le_rfl
        · rw [Function.update_of_ne hkey]

end Unread

variable (key) in
/-- A value is published only while no reader of its channel has as many to read as the channel keeps. -/
def Prompt (s : Fleet κ γ α β) : FleetAction κ γ α → Prop
  | .publish k _ => ∀ r ∈ s.readers, key r.1 = k → r.2.stopped = false → ∀ ch, s.channels k = some ch →
    ch.tail < r.2.next + ch.capacity
  | _ => True

variable (capacity key f start) in
/-- No reader has fallen behind, nor was told that it has. -/
structure Abreast (s : Fleet κ γ α β) (actions : List (FleetAction κ γ α)) : Prop where
  near : ∀ r ∈ s.readers, r.2.stopped = false → ∀ ch, s.channels (key r.1) = some ch → ch.tail ≤ r.2.next + ch.capacity
  told : ∀ index missed, .lagged missed ∉ fleet_told capacity key f start index actions

theorem run_abreast (hfresh : Fresh start)
    (hrun : transition.Run (fleet_step capacity key f) (Prompt key) start actions s) :
    Abreast capacity key f start s actions := by
  refine hrun.invariant (P := fun actions s => Abreast capacity key f start s actions) ?_ ?_
  · refine ⟨fun r hr => ?_, fun _ _ hmem => by cases hmem⟩
    rw [hfresh.readers] at hr
    cases hr
  intro actions s action next hprompt h hallowed hstep
  have run : FleetRun capacity key f start actions s := hprompt.mono fun _ _ _ => trivial
  have hfollowed := run_followed hfresh run
  have htold : (∀ index, told_at key index s action = none) →
      ∀ index missed, .lagged missed ∉ fleet_told capacity key f start index (actions ++ [action]) := by
    intro hnone index missed
    rw [fleet_told_snoc run, hnone index, Option.toList_none, List.append_nil]
    exact h.told index missed
  -- a changed reader is near its channel where the old one was
  have hset : ∀ {index r}, s.readers[index]? = some r → ∀ reader : Reader β,
      (reader.stopped = false → r.2.stopped = false ∧ r.2.next ≤ reader.next) →
      ∀ r' ∈ s.readers.set index (r.1, reader), r'.2.stopped = false → ∀ ch, s.channels (key r'.1) = some ch →
        ch.tail ≤ r'.2.next + ch.capacity := by
    intro index r hreader reader hahead r' hmem hrunning ch hch
    rcases List.mem_or_eq_of_mem_set hmem with hold | rfl
    · exact h.near r' hold hrunning ch hch
    · obtain ⟨hbefore, hnext⟩ := hahead hrunning
      have hnear := h.near r (List.mem_of_getElem? hreader) hbefore ch hch
      dsimp only
      omega
  cases fleet_moves hstep with
  | lost => exact ⟨h.near, htold fun _ => rfl⟩
  | @publish k a ch hchannel =>
    refine ⟨fun r hr hrunning ch' hch' => ?_, htold fun _ => rfl⟩
    by_cases hkey : key r.1 = k
    · dsimp only at hch'
      rw [hkey, Function.update_self] at hch'
      cases hch'
      exact hallowed r hr hkey hrunning ch hchannel
    · exact h.near r hr hrunning ch' ((Function.update_of_ne hkey ..).symm.trans hch')
  | @subscribe setup ch hchannel =>
    refine ⟨fun r hr hrunning ch' hch' => ?_, htold fun _ => rfl⟩
    rcases List.mem_append.mp hr with hold | hnew
    · obtain ⟨index, hget⟩ := List.mem_iff_getElem?.mp hold
      obtain ⟨ch'', hch'', _⟩ := hfollowed.readers index r hget
      refine h.near r hold hrunning ch' ?_
      by_cases hkey : key r.1 = key setup
      · rw [hkey] at hch''
        rw [hch''] at hchannel
        dsimp only at hch'
        rw [hkey, Function.update_self, ← hchannel] at hch'
        rw [hkey, hch'']
        exact hch'
      · exact (Function.update_of_ne hkey ..).symm.trans hch'
    · cases List.mem_singleton.mp hnew
      cases (Function.update_self ..).symm.trans hch'
      exact Nat.le_add_right _ _
  | @receive index after r ch t hreader hrunning hfree hchannel hrecv =>
    obtain ⟨_, hchannel', htracks⟩ := hfollowed.readers index r hreader
    cases hchannel.symm.trans hchannel'
    cases t with
    | lagged missed =>
      exact absurd hrecv (htracks.not_lagged hrunning (h.near r (List.mem_of_getElem? hreader) hrunning ch hchannel))
    | value a =>
      have hafter := Channel.recv_value hrecv
      refine ⟨hset hreader _ fun _ => ⟨hrunning, ?_⟩, fun other missed => ?_⟩
      · change r.2.next ≤ after
        omega
      · have htold_at : told_at key index s (.receive index) = some (.value a) := by simp [told_at, hreader, hchannel, hrecv]
        rw [fleet_told_snoc run, List.mem_append, not_or]
        refine ⟨h.told other missed, ?_⟩
        by_cases hother : index = other
        · rw [← hother, htold_at]
          simp
        · simp [told_at, hother]
  | hand hreader => exact ⟨hset hreader _ fun hrunning => ⟨hrunning, le_rfl⟩, htold fun _ => rfl⟩
  | stop hreader =>
    refine ⟨hset hreader _ fun hrunning => ?_, htold fun _ => rfl⟩
    cases hrunning

/-- A reader that never falls behind hands on what it makes of all that it has read, and what it
has still to read is in its channel. -/
theorem run_reads_all (hfresh : Fresh start) (hrun : transition.Run (fleet_step capacity key f) (Prompt key) start actions s)
    {index : Nat} {r : γ × Reader β} (hreader : s.readers[index]? = some r) :
    ∃ read rest, fleet_published capacity key f start index actions = read ++ rest ∧
      fleet_handed capacity key f start index actions ++ r.2.pending.toList = read.filterMap (f r.1) ∧
      (r.2.stopped = false → ∃ ch, s.channels (key r.1) = some ch ∧ rest.length = ch.tail - r.2.next ∧
        rest.length ≤ ch.capacity) := by
  have hrun' : FleetRun capacity key f start actions s := hrun.mono fun _ _ _ => trivial
  have habreast := run_abreast hfresh hrun
  obtain ⟨ch, hchannel, htracks⟩ := (run_followed hfresh hrun').readers index r hreader
  obtain ⟨read, rest, hsplit, hcovers, hlive⟩ := htracks.read
  refine ⟨read, rest, hsplit, ?_, fun hrunning => ⟨ch, hchannel, ?_⟩⟩
  · rw [htracks.handed, hcovers.complete (habreast.told index)]
  · obtain ⟨earlier, hholds, hnext⟩ := hlive hrunning
    have htail := hholds.tail
    rw [hsplit] at htail
    simp only [List.length_append] at htail
    have hnear := habreast.near r (List.mem_of_getElem? hreader) hrunning ch hchannel
    omega

end Runs

end broadcast
