import FlowEngine.Versioning.Heads

namespace flow_engine.versioning

open program (Program Outcome Safe exec exec_call)

section History

variable {Graph State : Type}

/-- A call of `save` that runs alone. -/
def run_save (store : FlowStore Graph State) (hashing : Hashing Graph) (s : State) (entry : SaveCall Graph × List Outcome) :
    State × Option (Except String (FlowVersion Graph)) :=
  exec store.apply (save hashing entry.1) s entry.2

/-- Calls of `save` one after the other, each of which may fail or be cut off. -/
def run_saves (store : FlowStore Graph State) (hashing : Hashing Graph) (s : State)
    (history : List (SaveCall Graph × List Outcome)) : State :=
  history.foldl (fun s entry => (run_save store hashing s entry).1) s

/-- A graph is the current one of its flow, and is listed. -/
def Current (store : FlowStore Graph State) (s : State) (flow_id : String) (graph : Graph) : Prop :=
  ∃ version, get_current store s flow_id = .ok (some version) ∧ version.graph = graph ∧ version.flow_id = flow_id ∧
    ∃ limit versions, store.list_versions s flow_id limit 0 = .ok versions ∧ version ∈ versions

/-- The graph of a call is not stored, or the flow's head points to it and it was stored for
the flow. -/
def NewOrCurrent (store : FlowStore Graph State) (hashing : Hashing Graph) (s : State) (call : SaveCall Graph) : Prop :=
  store.get_version s (compute_version_id hashing call.graph) = .ok none ∨
  ∃ existing head, store.get_version s (compute_version_id hashing call.graph) = .ok (some existing) ∧
    existing.flow_id = call.flow_id ∧ store.get_head s call.flow_id = .ok (some head) ∧
    head.current_version_id = compute_version_id hashing call.graph

variable {store : FlowStore Graph State} {hashing : Hashing Graph} {s : State}

/-- What the part of `save` after its check does. Only once it has put its version and its head it
ends well. -/
theorem put_new_cases (call : SaveCall Graph) (outcomes : List Outcome) :
    ((exec store.apply (put_new hashing call) s outcomes).1 = s ∨
        store.put_version s (new_version hashing call) = .ok (exec store.apply (put_new hashing call) s outcomes).1) ∧
      (∀ version, (exec store.apply (put_new hashing call) s outcomes).2 ≠ some (.ok version)) ∨
    ∃ middle, store.put_version s (new_version hashing call) = .ok middle ∧
      store.put_head middle (new_head hashing call) = .ok (exec store.apply (put_new hashing call) s outcomes).1 := by
  obtain ⟨hstate, hended⟩ | ⟨answer, second, rest, hsecond, hgone⟩ :=
    exec_call store.apply (rfl : put_new hashing call = _) s outcomes
  · refine .inl ⟨hstate.imp_right ?_, hended⟩
    rintro ⟨answer, happly⟩
    exact FlowStore.apply_put_version happly
  · have hput := FlowStore.apply_put_version hsecond
    rw [hgone]
    obtain ⟨hsame | ⟨_, happly⟩, hended⟩ | ⟨_, third, rest, hthird, hdone⟩ := exec_call store.apply
      (rfl : Program.call (StoreOp.put_head (new_head hashing call)) (fun _ => .ret (new_version hashing call)) = _) second rest
    · exact .inl ⟨.inr (hsame.symm ▸ hput), hended⟩
    · exact .inr ⟨second, hput, FlowStore.apply_put_head happly⟩
    · rw [hdone]
      exact .inr ⟨second, hput, FlowStore.apply_put_head hthird⟩

/-- What a call of `save` does. It finds a version with its id, or puts its own and then its
head, unless it ends before. -/
theorem run_save_cases (call : SaveCall Graph) (outcomes : List Outcome) :
    (run_save store hashing s (call, outcomes)).1 = s ∧ (∀ version, (run_save store hashing s (call, outcomes)).2 =
        some (.ok version) → store.get_version s (compute_version_id hashing call.graph) = .ok (some version)) ∨
    store.get_version s (compute_version_id hashing call.graph) = .ok none ∧
      (((run_save store hashing s (call, outcomes)).1 = s ∨
          store.put_version s (new_version hashing call) = .ok (run_save store hashing s (call, outcomes)).1) ∧
        (∀ version, (run_save store hashing s (call, outcomes)).2 ≠ some (.ok version)) ∨
      ∃ middle, store.put_version s (new_version hashing call) = .ok middle ∧
        store.put_head middle (new_head hashing call) = .ok (run_save store hashing s (call, outcomes)).1) := by
  simp only [run_save]
  obtain ⟨hstate, hended⟩ | ⟨answer, second, rest, hget, hgone⟩ :=
    exec_call store.apply (rfl : save hashing call = _) s outcomes
  · refine .inl ⟨hstate.elim id ?_, fun version hok => absurd hok (hended version)⟩
    rintro ⟨answer, happly⟩
    exact (FlowStore.apply_get_version happly).2
  · obtain ⟨hfound, rfl⟩ := FlowStore.apply_get_version hget
    rw [hgone]
    cases answer with
    | some existing => exact .inl ⟨rfl, fun version hok => Except.ok.inj (Option.some.inj hok) ▸ hfound⟩
    | none => exact .inr ⟨hfound, put_new_cases call rest⟩

variable {Place : Type} {serde : Serde Graph} {layout : Layout Place} {Holds : State → (Place → Option (Record Graph)) → Prop}

/-- The heads of different flows are at different places, which are none of the versions. -/
structure Layout.Separate (layout : Layout Place) (hashing : Hashing Graph) (calls : Set (SaveCall Graph)) : Prop where
  heads : ∀ call ∈ calls, ∀ other ∈ calls, call.flow_id ≠ other.flow_id →
    ∀ p, layout.head_place call.flow_id = some p → layout.head_place other.flow_id ≠ some p
  versions : ∀ call ∈ calls, ∀ other ∈ calls, ¬ layout.Shared (compute_version_id hashing call.graph) other.flow_id

/-- What others had stays: their versions, and the head of a flow. -/
structure Extends (store : FlowStore Graph State) (flow_id : String) (s s' : State) : Prop where
  versions : ∀ version_id version, store.get_version s version_id = .ok (some version) →
    store.get_version s' version_id = .ok (some version)
  head : ∀ head, store.get_head s' flow_id = .ok (some head) ↔ store.get_head s flow_id = .ok (some head)

theorem Extends.refl (flow_id : String) (s : State) : Extends store flow_id s s := ⟨fun _ _ h => h, fun _ => Iff.rfl⟩

theorem Extends.trans {flow_id : String} {s' s'' : State} (h : Extends store flow_id s s') (h' : Extends store flow_id s' s'') :
    Extends store flow_id s s'' :=
  ⟨fun version_id version hread => h'.versions _ _ (h.versions version_id version hread), fun head => (h'.head head).trans (h.head head)⟩

section Separate

variable {calls : Set (SaveCall Graph)} [DecidableEq Place]

/-- A store of saves whose heads are separate. -/
structure SeparateStore (store : FlowStore Graph State) (serde : Serde Graph) (layout : Layout Place)
    (Holds : State → (Place → Option (Record Graph)) → Prop) (hashing : Hashing Graph) (calls : Set (SaveCall Graph)) : Prop where
  implements : store.Implements serde layout Holds
  keys : ∀ graph, layout.key (compute_version_id hashing graph)
  separate : layout.Separate hashing calls
  injective : hashing.Injective (SaveCall.graph '' calls)
  trips : ∀ call ∈ calls, serde.Trips hashing call

variable (hstore : SeparateStore store serde layout Holds hashing calls)
include hstore

/-- No head takes the place of a version. -/
theorem SeparateStore.apart (h : Kept store layout Holds hashing (SaveCall.graph '' calls) s) {call : SaveCall Graph}
    (hcall : call ∈ calls) : store.Apart layout s call.flow_id := by
  rintro version_id version hread ⟨p, hversion, hhead⟩
  obtain ⟨hhashed, ⟨other, hother, hgraph⟩, hplace⟩ := h.addressed.ids version_id version hread
  refine hstore.separate.versions other hother call hcall ⟨p, ?_, hhead⟩
  rw [hgraph, hhashed, hplace, hversion]

/-- A version that is put where none was. -/
theorem SeparateStore.put_version (h : Kept store layout Holds hashing (SaveCall.graph '' calls) s) {call : SaveCall Graph}
    (hcall : call ∈ calls) (hnone : store.get_version s (compute_version_id hashing call.graph) = .ok none) {next : State}
    (hput : store.put_version s (new_version hashing call) = .ok next) :
    Kept store layout Holds hashing (SaveCall.graph '' calls) next ∧
      store.get_version next (compute_version_id hashing call.graph) = .ok (some (new_version hashing call)) ∧
      ∀ other ∈ calls, Extends store other.flow_id s next := by
  obtain ⟨records, hholds⟩ := h.holds
  have hshows := hstore.implements.shows hholds
  refine ⟨(h.put_version hstore.implements hstore.keys hstore.injective (Set.mem_image_of_mem _ hcall)
    (hstore.trips call hcall) hput).1, ?_⟩
  obtain ⟨p, hp, hnext | ⟨⟨r, hr, _⟩, _⟩⟩ := hstore.implements.put_version hholds (hstore.trips call hcall).version hput
  · have hversions := hshows.version_update (hstore.implements.shows hnext)
    have hheads := hshows.head_update (hstore.implements.shows hnext)
    refine ⟨(hversions _ _).mpr (.inl ⟨hp, rfl⟩), fun other hother => ⟨fun version_id version hread => ?_, fun head => ?_⟩⟩
    · refine (hversions _ _).mpr (.inr ⟨fun hplace => ?_, hread⟩)
      obtain ⟨q, r, hq, hr, _⟩ := (hshows.version_iff _ _).mp hread
      cases hq.symm.trans hplace
      cases ((hshows.no_version_iff _).mp hnone p hp).symm.trans hr
    · have hplace : layout.head_place other.flow_id ≠ some p :=
        fun hplace => hstore.separate.versions call hcall other hother ⟨p, hp, hplace⟩
      rw [hheads]
      simp [hplace]
  · -- There is no version whose place it could have found taken.
    cases ((hshows.no_version_iff _).mp hnone p hp).symm.trans hr

/-- A head that is put. -/
theorem SeparateStore.put_head (h : Kept store layout Holds hashing (SaveCall.graph '' calls) s) {call : SaveCall Graph}
    (hcall : call ∈ calls) {next : State} (hput : store.put_head s (new_head hashing call) = .ok next) :
    store.get_head next call.flow_id = .ok (some (new_head hashing call)) ∧
      (∀ version_id version, store.get_version s version_id = .ok (some version) →
        store.get_version next version_id = .ok (some version)) ∧
      ∀ other ∈ calls, call.flow_id ≠ other.flow_id → Extends store other.flow_id s next := by
  obtain ⟨records, hholds⟩ := h.holds
  have hshows := hstore.implements.shows hholds
  obtain ⟨q, hq, hnext⟩ := hstore.implements.put_head hholds (hstore.trips call hcall).head hput
  have hversions := hshows.version_update (hstore.implements.shows hnext)
  have hheads := hshows.head_update (hstore.implements.shows hnext)
  have hkept : ∀ version_id version, store.get_version s version_id = .ok (some version) →
      store.get_version next version_id = .ok (some version) := fun version_id version hread =>
    (hversions _ _).mpr (.inr ⟨fun hplace => hstore.apart h hcall _ _ hread ⟨q, hplace, hq⟩, hread⟩)
  refine ⟨(hheads _ _).mpr (.inl ⟨hq, rfl⟩), hkept, fun other hother hflow => ⟨hkept, fun head => ?_⟩⟩
  rw [hheads]
  simp [hstore.separate.heads call hcall other hother hflow q hq]

/-- Saves are safe without a guard. -/
theorem SeparateStore.safe {call : SaveCall Graph} (hcall : call ∈ calls) (s : State) :
    Safe store.apply (fun _ _ => True) (Kept store layout Holds hashing (SaveCall.graph '' calls)) (Grows store)
      (save hashing call) s :=
  save_safe hstore.implements hstore.keys hstore.injective (Set.mem_image_of_mem _ hcall) (hstore.trips call hcall)
    (fun _ h _ => hstore.apart h hcall) s

theorem SeparateStore.run_save {call : SaveCall Graph} (hcall : call ∈ calls)
    (h : Kept store layout Holds hashing (SaveCall.graph '' calls) s) (outcomes : List Outcome) :
    Kept store layout Holds hashing (SaveCall.graph '' calls) (run_save store hashing s (call, outcomes)).1 ∧
      ∀ other ∈ calls, call.flow_id ≠ other.flow_id →
        Extends store other.flow_id s (versioning.run_save store hashing s (call, outcomes)).1 := by
  refine ⟨((hstore.safe hcall s).exec Grows.refl Grows.trans h outcomes).1, fun other hother hflow => ?_⟩
  obtain ⟨hsame, _⟩ | ⟨hnone, ⟨hsame | hput, _⟩ | ⟨middle, hput, hhead⟩⟩ := @run_save_cases _ _ store hashing s call outcomes
  · rw [hsame]
    exact .refl _ _
  · rw [hsame]
    exact .refl _ _
  · exact (hstore.put_version h hcall hnone hput).2.2 other hother
  · obtain ⟨hkept, _, hextends⟩ := hstore.put_version h hcall hnone hput
    exact (hextends other hother).trans ((hstore.put_head hkept hcall hhead).2.2 other hother hflow)

/-- Saves one after the other keep the versions, and the heads of other flows. -/
theorem SeparateStore.run_saves {history : List (SaveCall Graph × List Outcome)} (hcalls : ∀ entry ∈ history, entry.1 ∈ calls)
    (h : Kept store layout Holds hashing (SaveCall.graph '' calls) s) :
    Kept store layout Holds hashing (SaveCall.graph '' calls) (run_saves store hashing s history) ∧
      ∀ other ∈ calls, (∀ entry ∈ history, entry.1.flow_id ≠ other.flow_id) →
        Extends store other.flow_id s (versioning.run_saves store hashing s history) := by
  induction history generalizing s with
  | nil => exact ⟨h, fun other _ _ => .refl _ _⟩
  | cons entry rest ih =>
    obtain ⟨hfirst, hextends⟩ := hstore.run_save (hcalls entry List.mem_cons_self) h entry.2
    obtain ⟨hlast, hrest⟩ := ih (fun other hmem => hcalls other (List.mem_cons_of_mem _ hmem)) hfirst
    refine ⟨hlast, fun other hother hflows => ?_⟩
    exact (hextends other hother (hflows entry List.mem_cons_self)).trans
      (hrest other hother fun entry hmem => hflows entry (List.mem_cons_of_mem _ hmem))

/-- A version of a flow to which its head points is current. -/
theorem SeparateStore.current_of_head (h : Kept store layout Holds hashing (SaveCall.graph '' calls) s) {flow_id : String}
    {head : FlowHead} {version : FlowVersion Graph} (hhead : store.get_head s flow_id = .ok (some head))
    (hversion : store.get_version s head.current_version_id = .ok (some version)) (hflow : version.flow_id = flow_id) :
    Current store s flow_id version.graph := by
  obtain ⟨records, hholds⟩ := h.holds
  have hshows := hstore.implements.shows hholds
  obtain ⟨limit, versions, hlist, hmem⟩ := hshows.lists flow_id
  obtain ⟨p, r, hp, hr, hfound⟩ := (hshows.version_iff _ _).mp hversion
  obtain ⟨hhashed, _, hplace⟩ := h.addressed.ids _ _ hversion
  have hlisted : layout.listed p := by
    refine layout.listed_of_key (hstore.keys version.graph) (compute_version_id_ne_empty hashing _) ?_
    rw [hhashed, hplace, hp]
  refine ⟨version, ?_, rfl, hflow, limit, versions, hlist, (hmem version).mpr ⟨⟨p, r, hlisted, hr, hfound⟩, hflow⟩⟩
  rw [versioning.get_current, hhead]
  exact hversion

/-- A save that puts its version and its head makes its graph current. -/
theorem SeparateStore.current_of_new (h : Kept store layout Holds hashing (SaveCall.graph '' calls) s) {call : SaveCall Graph}
    (hcall : call ∈ calls) (hnone : store.get_version s (compute_version_id hashing call.graph) = .ok none) {middle next : State}
    (hput : store.put_version s (new_version hashing call) = .ok middle)
    (hhead : store.put_head middle (new_head hashing call) = .ok next)
    (hnext : Kept store layout Holds hashing (SaveCall.graph '' calls) next)
    {history : List (SaveCall Graph × List Outcome)} (hcalls : ∀ entry ∈ history, entry.1 ∈ calls)
    (hother : ∀ entry ∈ history, entry.1.flow_id ≠ call.flow_id) :
    Current store (versioning.run_saves store hashing next history) call.flow_id call.graph := by
  obtain ⟨hkept, hversion, _⟩ := hstore.put_version h hcall hnone hput
  obtain ⟨hread, hversions, _⟩ := hstore.put_head hkept hcall hhead
  obtain ⟨hlast, hextends⟩ := hstore.run_saves hcalls hnext
  have hlater := hextends call hcall hother
  exact hstore.current_of_head hlast ((hlater.head _).mpr hread) (hlater.versions _ _ (hversions _ _ hversion)) rfl

/-- After a save that finds its graph, whether the graph is current is decided by what was
stored before. -/
theorem SeparateStore.current_of_found_iff (h : Kept store layout Holds hashing (SaveCall.graph '' calls) s)
    {call : SaveCall Graph} (hcall : call ∈ calls) {existing : FlowVersion Graph}
    (hexisting : store.get_version s (compute_version_id hashing call.graph) = .ok (some existing))
    {history : List (SaveCall Graph × List Outcome)} (hcalls : ∀ entry ∈ history, entry.1 ∈ calls)
    (hother : ∀ entry ∈ history, entry.1.flow_id ≠ call.flow_id) :
    Current store (versioning.run_saves store hashing s history) call.flow_id call.graph ↔
      existing.flow_id = call.flow_id ∧
        ∃ head, store.get_head s call.flow_id = .ok (some head) ∧
          head.current_version_id = compute_version_id hashing call.graph := by
  obtain ⟨hlast, hextends⟩ := hstore.run_saves hcalls h
  have hlater := hextends call hcall hother
  have hstored := hlater.versions _ _ hexisting
  obtain ⟨records, hholds⟩ := h.holds
  obtain ⟨records', hholds'⟩ := hlast.holds
  constructor
  · rintro ⟨version, hcurrent, hsame, hflow, _⟩
    rw [versioning.get_current] at hcurrent
    obtain ⟨found, hfound, hversion⟩ := fallible.bind_eq_ok.mp hcurrent
    cases found with
    | none => cases hversion
    | some head =>
      have hid := hlast.addressed.hash_of_key hstore.keys (hstore.implements.shows hholds')
        (hlast.addressed.targets _ _ hfound) hversion
      rw [hsame] at hid
      have hsame' : some version = some existing := by
        rw [hid] at hstored
        exact Except.ok.inj (hversion.symm.trans hstored)
      cases hsame'
      exact ⟨hflow, head, (hlater.head _).mp hfound, hid.symm⟩
  · rintro ⟨hflow, head, hhead, hid⟩
    have hhashed := h.addressed.hash_of_key hstore.keys (hstore.implements.shows hholds) (hstore.keys call.graph) hexisting
    have hsame : existing.graph = call.graph :=
      hstore.injective.compute_version_id (h.addressed.ids _ _ hexisting).2.1 (Set.mem_image_of_mem _ hcall) hhashed
    rw [← hsame]
    exact hstore.current_of_head hlast ((hlater.head _).mpr hhead) (hid ▸ hstored) hflow

end Separate

end History

namespace Backend

variable {Graph : Type} {serde : Serde Graph} {hashing : Hashing Graph} {calls : Set (SaveCall Graph)}
variable {backend : Backend} {start : backend.State}

/-- The heads of the two flows are in one file. -/
def SameHead : (backend : Backend) → backend.State → String → String → Prop
  | .file => fun s flow_id other => ∃ l, s.disk.locate (file_store.head_path s flow_id) = .ok l ∧
    s.disk.locate (file_store.head_path s other) = .ok l
  | .database => fun _ flow_id other => flow_id = other

/-- What the calls store is not stored in one place: the store gives it back. -/
structure Separate (backend : Backend) (s : backend.State) (hashing : Hashing Graph) (calls : Set (SaveCall Graph)) : Prop where
  heads : ∀ call ∈ calls, ∀ other ∈ calls, backend.SameHead s call.flow_id other.flow_id → call.flow_id = other.flow_id
  versions : ∀ call ∈ calls, ∀ other ∈ calls,
    ¬ backend.HeadOnVersion s (compute_version_id hashing call.graph) other.flow_id

theorem Separate.layout (h : backend.Separate start hashing calls) : (backend.layout start).Separate hashing calls := by
  cases backend with
  | file =>
    constructor
    · intro call hcall other hother hne p hp hp'
      exact hne (h.heads call hcall other hother ⟨p, fallible.toOption_eq_some.mp hp, fallible.toOption_eq_some.mp hp'⟩)
    · rintro call hcall other hother ⟨p, hp, hp'⟩
      exact h.versions call hcall other hother ⟨p, fallible.toOption_eq_some.mp hp, fallible.toOption_eq_some.mp hp'⟩
  | database =>
    constructor
    · intro call _ other _ hne p hp hp'
      exact hne (Sum.inr.inj (Option.some.inj (hp.trans hp'.symm)))
    · rintro call _ other _ ⟨p, hp, hp'⟩
      cases hp.trans hp'.symm

theorem Separate.store (hfresh : backend.Fresh serde start) (h : backend.Separate start hashing calls)
    (hhash : hashing.Injective (SaveCall.graph '' calls)) (htrips : ∀ call ∈ calls, serde.Trips hashing call) :
    SeparateStore (backend.flow_store serde) serde (backend.layout start) (backend.Holds serde start) hashing calls :=
  ⟨backend.implements serde hfresh, key_of_hash start, h.layout, hhash, htrips⟩

/-- The database keeps everything apart. -/
theorem separate_database (s : seaorm.SeaOrmFlowStore) (hashing : Hashing Graph) (calls : Set (SaveCall Graph)) :
    Backend.database.Separate s hashing calls :=
  ⟨fun _ _ _ _ h => h, fun _ _ _ _ h => h⟩

end Backend

/-- Files do so where the flow ids are names. -/
theorem file_store.separate_of_names {Graph : Type} {hashing : Hashing Graph} {calls : Set (SaveCall Graph)}
    {s : file_store.FileFlowStore} (hdirs : file_store.TwoDirs s) (hnames : ∀ call ∈ calls, '/' ∉ call.flow_id.toList) :
    Backend.file.Separate s hashing calls := by
  constructor
  · rintro call hcall other hother ⟨l, hl, hl'⟩
    obtain ⟨dir, _, rfl⟩ := (file_store.locate_named _ _ (hnames call hcall)).mp hl
    obtain ⟨dir', _, heq⟩ := (file_store.locate_named _ _ (hnames other hother)).mp hl'
    exact (String.append_left_inj _).mp (List.singleton_inj.mp (List.append_inj' heq rfl).2)
  · rintro call hcall other hother ⟨l, hl, hl'⟩
    obtain ⟨dir, hdir, rfl⟩ := (file_store.locate_named _ _ (hex_no_separator _)).mp hl
    obtain ⟨dir', hdir', heq⟩ := (file_store.locate_named _ _ (hnames other hother)).mp hl'
    rw [(List.append_inj' heq rfl).1] at hdir
    exact hdirs dir' hdir' hdir

/-- A save that succeeds makes its graph current exactly if the graph is new or current
already. -/
theorem save_makes_current_iff (backend : Backend) {Graph : Type} {serde : Serde Graph} {hashing : Hashing Graph}
    {calls : Set (SaveCall Graph)} (hhash : hashing.Injective (SaveCall.graph '' calls))
    (htrips : ∀ call ∈ calls, serde.Trips hashing call) {start : backend.State} (hfresh : backend.Fresh serde start)
    (hseparate : backend.Separate start hashing calls) {before after : List (SaveCall Graph × List Outcome)}
    {call : SaveCall Graph} {outcomes : List Outcome} (hcalls : ∀ entry ∈ before ++ (call, outcomes) :: after, entry.1 ∈ calls)
    {version : FlowVersion Graph}
    (hok : (run_save (backend.flow_store serde) hashing
      (run_saves (backend.flow_store serde) hashing start before) (call, outcomes)).2 = some (.ok version))
    (hlater : ∀ entry ∈ after, entry.1.flow_id ≠ call.flow_id) :
    Current (backend.flow_store serde)
        (run_saves (backend.flow_store serde) hashing start (before ++ (call, outcomes) :: after)) call.flow_id call.graph ↔
      NewOrCurrent (backend.flow_store serde) hashing (run_saves (backend.flow_store serde) hashing start before) call := by
  have hstore := hseparate.store hfresh hhash htrips
  have hbefore : ∀ entry ∈ before, entry.1 ∈ calls := fun entry h => hcalls entry (List.mem_append_left _ h)
  have hafter : ∀ entry ∈ after, entry.1 ∈ calls :=
    fun entry h => hcalls entry (List.mem_append_right _ (List.mem_cons_of_mem _ h))
  have hcall : call ∈ calls := hcalls (call, outcomes) (List.mem_append_right _ List.mem_cons_self)
  have hkept := (hstore.run_saves hbefore hfresh.sound).1
  have hnext := (hstore.run_save hcall hkept outcomes).1
  have hlast : run_saves (backend.flow_store serde) hashing start (before ++ (call, outcomes) :: after) =
      run_saves (backend.flow_store serde) hashing (run_save (backend.flow_store serde) hashing
        (run_saves (backend.flow_store serde) hashing start before) (call, outcomes)).1 after := by
    simp only [run_saves, List.foldl_append, List.foldl_cons]
  rw [hlast, NewOrCurrent]
  obtain ⟨hsame, hfound⟩ | ⟨hnone, ⟨_, hended⟩ | ⟨middle, hput, hhead⟩⟩ :=
    @run_save_cases _ _ (backend.flow_store serde) hashing (run_saves (backend.flow_store serde) hashing start before) call outcomes
  · have hexisting := hfound version hok
    rw [hsame, hstore.current_of_found_iff hkept hcall hexisting hafter hlater, hexisting]
    simp
  · exact absurd hok (hended version)
  · exact iff_of_true (hstore.current_of_new hkept hcall hnone hput hhead hnext hafter hlater) (.inl hnone)

/-- Saves of two graphs for one flow. -/
def sample_history : List (SaveCall GraphDef × List Outcome) :=
  [(sample_call "flow" "A", [.served, .served, .served]), (sample_call "flow" "B", [.served, .served, .served])]

/-- What a store holds after saves. -/
def sample_saves (history : List (SaveCall GraphDef × List Outcome)) : file_store.FileFlowStore :=
  run_saves (file_store.flow_store sample_serde) sample_hashing sample_store history

/-- A save that ends well. -/
theorem sample_save (history : List (SaveCall GraphDef × List Outcome)) (id : String) (outcomes : List Outcome)
    (h : ((run_save (file_store.flow_store sample_serde) sample_hashing (sample_saves history)
      (sample_call "flow" id, outcomes)).2.any fun result => result.isOk) = true) :
    ∃ version, (run_save (file_store.flow_store sample_serde) sample_hashing (sample_saves history)
      (sample_call "flow" id, outcomes)).2 = some (.ok version) := by
  obtain ⟨result, hresult, hok⟩ := (Option.any_eq_true _ _).mp h
  obtain ⟨version, rfl⟩ := fallible.exists_ok_of_isOk hok
  exact ⟨version, hresult⟩

/-- A graph that is saved again after another one does not become the current one. -/
theorem resaved_graph_not_current :
    (∃ version, (run_save (file_store.flow_store sample_serde) sample_hashing (sample_saves sample_history)
      (sample_call "flow" "A", [.served])).2 = some (.ok version)) ∧
    ¬ Current (file_store.flow_store sample_serde) (sample_saves (sample_history ++ [(sample_call "flow" "A", [.served])]))
      "flow" (sample_graph "A") := by
  refine ⟨sample_save _ _ _ (by decide +kernel), ?_⟩
  rintro ⟨version, hcurrent, hgraph, _⟩
  have hother : ((get_current (file_store.flow_store sample_serde) (sample_saves (sample_history ++
      [(sample_call "flow" "A", [.served])])) "flow").toOption.bind id).any (fun version => version.graph.id = "B") = true := by
    decide +kernel
  rw [hcurrent] at hother
  have hid : version.graph.id = "B" := of_decide_eq_true hother
  rw [hgraph] at hid
  exact absurd hid (by decide)

theorem named_calls_separate : Backend.file.Separate sample_store sample_hashing named_calls := by
  refine file_store.separate_of_names sample_store_two_dirs ?_
  rintro call ⟨_, hflow⟩
  rw [hflow]
  decide

theorem save_makes_current_iff_sample :
    Current (file_store.flow_store sample_serde) (sample_saves ([(sample_call "flow" "A", [.served, .served])] ++
        (sample_call "flow" "B", [.served, .served, .served]) :: [])) "flow" (sample_graph "B") ↔
      NewOrCurrent (file_store.flow_store sample_serde) sample_hashing
        (sample_saves [(sample_call "flow" "A", [.served, .served])]) (sample_call "flow" "B") := by
  obtain ⟨version, hok⟩ := sample_save [(sample_call "flow" "A", [.served, .served])] "B" [.served, .served, .served]
    (by decide +kernel)
  refine save_makes_current_iff .file (sample_hashing_injective.mono (Set.image_mono fun call hcall => hcall.1))
    (fun call hcall => sample_calls_trip call hcall.1) sample_store_fresh named_calls_separate (fun entry hmem => ?_) hok
    fun entry hmem => ?_
  · simp only [List.cons_append, List.nil_append, List.mem_cons, List.not_mem_nil, or_false] at hmem
    obtain rfl | rfl := hmem
    · exact ⟨List.mem_cons_self, rfl⟩
    · exact ⟨List.mem_cons_of_mem _ List.mem_cons_self, rfl⟩
  · cases hmem

end flow_engine.versioning
