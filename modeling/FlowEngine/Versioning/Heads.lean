import FlowEngine.Lib.Lines
import FlowEngine.Types
import FlowEngine.Versioning.Laws
import Mathlib.Data.Set.Function
import Mathlib.Data.Fintype.Basic

namespace flow_engine.versioning

open filesystem (Entry Location)
open program (Program Interleaving Pool Safe SafePool)

theorem hex_digit_injective (m n : Fin 16) (h : hex_digit m = hex_digit n) : m = n := by
  revert m n
  decide

/-- Different bytes are written differently. -/
theorem hex_injective : Function.Injective hex := by
  intro first second h
  have hdigits := String.ofList_injective h
  clear h
  induction first generalizing second with
  | nil =>
    cases second with
    | nil => rfl
    | cons => cases hdigits
  | cons byte rest ih =>
    cases second with
    | nil => cases hdigits
    | cons byte' rest' =>
      simp only [List.flatMap_cons, List.cons_append, List.nil_append, List.cons.injEq] at hdigits
      obtain ⟨hhigh, hlow, hrest⟩ := hdigits
      have hbyte := byte.toNat_lt
      have hbyte' := byte'.toNat_lt
      have hquotient := hex_digit_injective ⟨byte.toNat / 16, by omega⟩ ⟨byte'.toNat / 16, by omega⟩ hhigh
      have hremainder := hex_digit_injective ⟨byte.toNat % 16, by omega⟩ ⟨byte'.toNat % 16, by omega⟩ hlow
      simp only [Fin.mk.injEq] at hquotient hremainder
      have hsame : byte.toNat = byte'.toNat := by omega
      rw [UInt8.toNat.inj hsame, ih hrest]

/-- A digit is no separator of names. -/
theorem hex_no_separator (bytes : List UInt8) : '/' ∉ (hex bytes).toList := by
  rw [hex, String.toList_ofList, List.mem_flatMap]
  rintro ⟨byte, _, hdigit⟩
  have hdigits : ∀ m : Fin 16, '/' ≠ hex_digit m := by decide
  have hbyte := byte.toNat_lt
  cases List.mem_cons.mp hdigit with
  | inl heq => exact hdigits ⟨byte.toNat / 16, by omega⟩ heq
  | inr hrest => exact hdigits ⟨byte.toNat % 16, by omega⟩ (List.mem_singleton.mp hrest)

theorem compute_version_id_ne_empty {Graph : Type} (hashing : Hashing Graph) (graph : Graph) :
    compute_version_id hashing graph ≠ "" := by
  intro hempty
  have hchars := congrArg (fun s => s.toList.length) hempty
  simp [compute_version_id, hex, hashing.sha256_length] at hchars

section Saves

variable {Graph State Place : Type} {store : FlowStore Graph State} {serde : Serde Graph} {hashing : Hashing Graph}
variable {graphs : Set Graph}

/-- No two of the graphs have the same canonical JSON or the same hash. -/
structure Hashing.Injective (hashing : Hashing Graph) (graphs : Set Graph) : Prop where
  to_vec : Set.InjOn hashing.to_vec graphs
  sha256 : Set.InjOn hashing.sha256 (hashing.to_vec '' graphs)

theorem Hashing.Injective.compute_version_id (h : hashing.Injective graphs) : Set.InjOn (compute_version_id hashing) graphs := by
  intro g hg g' hg' heq
  exact h.to_vec hg hg' (h.sha256 (Set.mem_image_of_mem _ hg) (Set.mem_image_of_mem _ hg') (hex_injective heq))

theorem Hashing.Injective.mono {others : Set Graph} (h : hashing.Injective others) (hsub : graphs ⊆ others) :
    hashing.Injective graphs :=
  ⟨h.to_vec.mono hsub, h.sha256.mono (Set.image_mono hsub)⟩

/-- `serde_json` gives the records of a call back. -/
structure Serde.Trips (serde : Serde Graph) (hashing : Hashing Graph) (call : SaveCall Graph) : Prop where
  version : serde.VersionTrips (new_version hashing call)
  head : serde.HeadTrips (new_head hashing call)

/-- Versions are at the places of the hashes of their graphs, and heads point to versions. -/
structure Addressed (store : FlowStore Graph State) (layout : Layout Place) (hashing : Hashing Graph) (graphs : Set Graph)
    (s : State) : Prop where
  ids : ∀ version_id version, store.get_version s version_id = .ok (some version) →
    compute_version_id hashing version.graph = version.version_id ∧ version.graph ∈ graphs ∧
      layout.version_place version.version_id = layout.version_place version_id
  heads : ∀ flow_id head, store.get_head s flow_id = .ok (some head) →
    ∃ version, store.get_version s head.current_version_id = .ok (some version)
  targets : ∀ flow_id head, store.get_head s flow_id = .ok (some head) → layout.key head.current_version_id

/-- A store with records that are stored so. -/
structure Kept (store : FlowStore Graph State) (layout : Layout Place) (Holds : State → (Place → Option (Record Graph)) → Prop)
    (hashing : Hashing Graph) (graphs : Set Graph) (s : State) : Prop where
  holds : ∃ records, Holds s records
  addressed : Addressed store layout hashing graphs s

/-- Versions stay, with their graphs. -/
def Grows (store : FlowStore Graph State) (s s' : State) : Prop :=
  ∀ version_id version, store.get_version s version_id = .ok (some version) →
    ∃ version', store.get_version s' version_id = .ok (some version') ∧ version'.graph = version.graph

theorem Grows.refl (s : State) : Grows store s s := fun _ version h => ⟨version, h, rfl⟩

theorem Grows.trans (a b c : State) (hab : Grows store a b) (hbc : Grows store b c) : Grows store a c := by
  intro version_id version h
  obtain ⟨version', h', hgraph⟩ := hab version_id version h
  obtain ⟨version'', h'', hgraph'⟩ := hbc version_id version' h'
  exact ⟨version'', h'', hgraph'.trans hgraph⟩

/-- A version is read under the hash of its graph, if the id is a key. -/
theorem Addressed.hash_of_key {layout : Layout Place} {s : State} {records : Place → Option (Record Graph)}
    (h : Addressed store layout hashing graphs s) (hkeys : ∀ graph, layout.key (compute_version_id hashing graph))
    (hshows : store.Shows layout s records) {version_id : String} (hkey : layout.key version_id) {version : FlowVersion Graph}
    (hread : store.get_version s version_id = .ok (some version)) : compute_version_id hashing version.graph = version_id := by
  obtain ⟨hhashed, _, hplace⟩ := h.ids _ _ hread
  obtain ⟨p, r, hp, _⟩ := (hshows.version_iff _ _).mp hread
  rw [hhashed]
  exact layout.version_place_inj (hhashed ▸ hkeys version.graph) hkey (hplace.trans hp) hp

theorem FlowStore.apply_get_version {s after : State} {version_id : String} {answer : Option (FlowVersion Graph)}
    (h : store.apply s (.get_version version_id) = .ok (answer, after)) :
    store.get_version s version_id = .ok answer ∧ after = s := by
  simp only [FlowStore.apply] at h
  cases hget : store.get_version s version_id with
  | error e =>
    rw [hget] at h
    cases h
  | ok found =>
    rw [hget] at h
    cases h
    exact ⟨rfl, rfl⟩

theorem FlowStore.apply_put_version {s after : State} {version : FlowVersion Graph} {answer : Unit}
    (h : store.apply s (.put_version version) = .ok (answer, after)) : store.put_version s version = .ok after := by
  simp only [FlowStore.apply] at h
  cases hput : store.put_version s version with
  | error e =>
    rw [hput] at h
    cases h
  | ok next =>
    rw [hput] at h
    cases h
    rfl

theorem FlowStore.apply_put_head {s after : State} {head : FlowHead} {answer : Unit}
    (h : store.apply s (.put_head head) = .ok (answer, after)) : store.put_head s head = .ok after := by
  simp only [FlowStore.apply] at h
  cases hput : store.put_head s head with
  | error e =>
    rw [hput] at h
    cases h
  | ok next =>
    rw [hput] at h
    cases h
    rfl

variable {layout : Layout Place} {Holds : State → (Place → Option (Record Graph)) → Prop}

/-- No version is where the head of a flow goes. -/
def FlowStore.Apart (store : FlowStore Graph State) (layout : Layout Place) (s : State) (flow_id : String) : Prop :=
  ∀ version_id version, store.get_version s version_id = .ok (some version) → ¬ layout.Shared version_id flow_id

variable [DecidableEq Place]

/-- What putting the version of a call does to a store. -/
theorem Kept.put_version (himpl : store.Implements serde layout Holds)
    (hkeys : ∀ graph, layout.key (compute_version_id hashing graph)) (hhash : hashing.Injective graphs)
    {call : SaveCall Graph} (hgraph : call.graph ∈ graphs) (htrips : serde.Trips hashing call) {s next : State}
    (h : Kept store layout Holds hashing graphs s) (hput : store.put_version s (new_version hashing call) = .ok next) :
    Kept store layout Holds hashing graphs next ∧ Grows store s next ∧
      ∃ version, store.get_version next (compute_version_id hashing call.graph) = .ok (some version) := by
  obtain ⟨records, hholds⟩ := h.holds
  have hshows := himpl.shows hholds
  obtain ⟨p, hp, hnext | ⟨⟨r, hr, hold⟩, hnext⟩⟩ := himpl.put_version hholds htrips.version hput
  · have hversions := hshows.version_update (himpl.shows hnext)
    have hheads := hshows.head_update (himpl.shows hnext)
    have hnew : store.get_version next (compute_version_id hashing call.graph) = .ok (some (new_version hashing call)) :=
      (hversions _ _).mpr (.inl ⟨hp, rfl⟩)
    have hgrows : Grows store s next := by
      intro version_id version hread
      by_cases hplace : layout.version_place version_id = some p
      · obtain ⟨hhashed, hmem, hsame⟩ := h.addressed.ids version_id version hread
        -- At the place of the call's version is one with the same hash.
        have hid : version.version_id = compute_version_id hashing call.graph :=
          layout.version_place_inj (hhashed ▸ hkeys _) (hkeys _) (hsame.trans hplace) hp
        exact ⟨_, (hversions _ _).mpr (.inl ⟨hplace, rfl⟩), (hhash.compute_version_id hmem hgraph (hhashed.trans hid)).symm⟩
      · exact ⟨version, (hversions _ _).mpr (.inr ⟨hplace, hread⟩), rfl⟩
    have hold : ∀ flow_id head, store.get_head next flow_id = .ok (some head) → store.get_head s flow_id = .ok (some head) := by
      intro flow_id head hread
      obtain ⟨_, hnone⟩ | ⟨_, hread⟩ := (hheads _ _).mp hread
      · cases hnone
      · exact hread
    refine ⟨⟨⟨_, hnext⟩, ⟨fun version_id version hread => ?_, fun flow_id head hread => ?_, fun flow_id head hread => ?_⟩⟩,
      hgrows, _, hnew⟩
    · obtain ⟨hplace, heq⟩ | ⟨_, hread⟩ := (hversions _ _).mp hread
      · cases heq
        exact ⟨rfl, hgraph, hp.trans hplace.symm⟩
      · exact h.addressed.ids version_id version hread
    · obtain ⟨version, hversion⟩ := h.addressed.heads flow_id head (hold _ _ hread)
      exact (hgrows _ _ hversion).imp fun _ h => h.1
    · exact h.addressed.targets flow_id head (hold _ _ hread)
  · obtain ⟨hversions, hheads⟩ := hshows.same (himpl.shows hnext)
    refine ⟨⟨⟨_, hnext⟩, ⟨fun version_id version hread => ?_, fun flow_id head hread => ?_, fun flow_id head hread => ?_⟩⟩,
      fun version_id version hread => ⟨version, (hversions _ _).mpr hread, rfl⟩, ?_⟩
    · exact h.addressed.ids version_id version ((hversions _ _).mp hread)
    · obtain ⟨version, hversion⟩ := h.addressed.heads flow_id head ((hheads _ _).mp hread)
      exact ⟨version, (hversions _ _).mpr hversion⟩
    · exact h.addressed.targets flow_id head ((hheads _ _).mp hread)
    · obtain ⟨old, hold⟩ := Option.isSome_iff_exists.mp hold
      exact ⟨old, ((himpl.shows hnext).version_iff _ _).mpr ⟨p, r, hp, hr, hold⟩⟩

/-- What putting the head of a call does to a store that has the version. -/
theorem Kept.put_head (himpl : store.Implements serde layout Holds)
    (hkeys : ∀ graph, layout.key (compute_version_id hashing graph)) {call : SaveCall Graph}
    (htrips : serde.Trips hashing call) {s next : State} (h : Kept store layout Holds hashing graphs s)
    {version : FlowVersion Graph}
    (hversion : store.get_version s (compute_version_id hashing call.graph) = .ok (some version))
    (hapart : store.Apart layout s call.flow_id) (hput : store.put_head s (new_head hashing call) = .ok next) :
    Kept store layout Holds hashing graphs next ∧ Grows store s next := by
  obtain ⟨records, hholds⟩ := h.holds
  obtain ⟨p, hp, hnext⟩ := himpl.put_head hholds htrips.head hput
  have hversions := (himpl.shows hholds).version_update (himpl.shows hnext)
  have hheads := (himpl.shows hholds).head_update (himpl.shows hnext)
  have hkept : ∀ version_id version, store.get_version s version_id = .ok (some version) →
      store.get_version next version_id = .ok (some version) := by
    intro version_id version hread
    exact (hversions _ _).mpr (.inr ⟨fun hplace => hapart _ _ hread ⟨p, hplace, hp⟩, hread⟩)
  refine ⟨⟨⟨_, hnext⟩, ⟨fun version_id version hread => ?_, fun flow_id head hread => ?_, fun flow_id head hread => ?_⟩⟩,
    fun version_id version hread => ⟨version, hkept _ _ hread, rfl⟩⟩
  · obtain ⟨_, hnone⟩ | ⟨_, hread⟩ := (hversions _ _).mp hread
    · cases hnone
    · exact h.addressed.ids version_id version hread
  · obtain ⟨_, heq⟩ | ⟨_, hread⟩ := (hheads _ _).mp hread
    · cases heq
      exact ⟨version, hkept _ _ hversion⟩
    · obtain ⟨version, hversion⟩ := h.addressed.heads flow_id head hread
      exact ⟨version, hkept _ _ hversion⟩
  · obtain ⟨_, heq⟩ | ⟨_, hread⟩ := (hheads _ _).mp hread
    · cases heq
      exact hkeys call.graph
    · exact h.addressed.targets flow_id head hread

/-- A head that is put where a version is takes its place. -/
theorem FlowStore.Implements.version_lost (himpl : store.Implements serde layout Holds) {s next : State}
    {records : Place → Option (Record Graph)} (hholds : Holds s records) {head : FlowHead} (htrips : serde.HeadTrips head)
    (hapart : ¬ store.Apart layout s head.flow_id) (hput : store.put_head s head = .ok next) :
    ∃ version_id version, store.get_version s version_id = .ok (some version) ∧
      ∀ version', store.get_version next version_id ≠ .ok (some version') := by
  obtain ⟨p, hp, hnext⟩ := himpl.put_head hholds htrips hput
  simp only [FlowStore.Apart, not_forall, not_not] at hapart
  obtain ⟨version_id, version, hread, q, hplace, hq⟩ := hapart
  cases hp.symm.trans hq
  refine ⟨version_id, version, hread, fun version' hread' => ?_⟩
  obtain ⟨_, hnone⟩ | ⟨hne, _⟩ := ((himpl.shows hholds).version_update (himpl.shows hnext) _ _).mp hread'
  · cases hnone
  · exact hne hplace

/-- Saves are safe: whatever other saves do, versions stay with their graphs and heads point
to them. -/
theorem save_safe (himpl : store.Implements serde layout Holds) (hkeys : ∀ graph, layout.key (compute_version_id hashing graph))
    (hhash : hashing.Injective graphs) {Guard : State → StoreOp Graph → Prop} {call : SaveCall Graph}
    (hgraph : call.graph ∈ graphs) (htrips : serde.Trips hashing call)
    (hguard : ∀ s, Kept store layout Holds hashing graphs s → Guard s (.put_head (new_head hashing call)) →
      store.Apart layout s call.flow_id) (s : State) :
    Safe store.apply Guard (Kept store layout Holds hashing graphs) (Grows store) (save hashing call) s := by
  intro first hfirst _ _ existing second hget
  obtain ⟨_, rfl⟩ := FlowStore.apply_get_version hget
  refine ⟨hfirst, Grows.refl _, ?_⟩
  cases existing with
  | some existing => trivial
  | none =>
    intro third hthird _ _ answer fourth hput
    obtain ⟨hfourth, hgrows, version, hversion⟩ :=
      hthird.put_version himpl hkeys hhash hgraph htrips (FlowStore.apply_put_version hput)
    refine ⟨hfourth, hgrows, fun fifth hfifth hgrows' hallowed answer' sixth hhead => ?_⟩
    -- Others have not removed the version in the meantime.
    obtain ⟨version', hversion', _⟩ := hgrows' _ version hversion
    obtain ⟨hsixth, hgrows''⟩ :=
      hfifth.put_head himpl hkeys htrips hversion' (hguard fifth hfifth hallowed) (FlowStore.apply_put_head hhead)
    exact ⟨hsixth, hgrows'', trivial⟩

end Saves

namespace Backend

variable {Graph : Type} {serde : Serde Graph} {hashing : Hashing Graph} {graphs : Set Graph} {calls : Set (SaveCall Graph)}
variable {backend : Backend} {start : backend.State}

/-- Ids that are the names of the records: for files those without separators. -/
def IsKey : Backend → String → Prop
  | .file => fun version_id => '/' ∉ version_id.toList
  | .database => fun _ => True

/-- The file of the flow's head is that of the version. -/
def HeadOnVersion : (backend : Backend) → backend.State → String → String → Prop
  | .file => fun s version_id flow_id => ∃ l, s.disk.locate (file_store.version_path s version_id) = .ok l ∧
    s.disk.locate (file_store.head_path s flow_id) = .ok l
  | .database => fun _ _ _ => False

/-- No version can be read from the file of the flow's head. -/
def Apart (serde : Serde Graph) (backend : Backend) (s : backend.State) (flow_id : String) : Prop :=
  ∀ version_id version, (backend.flow_store serde).get_version s version_id = .ok (some version) →
    ¬ backend.HeadOnVersion s version_id flow_id

/-- What is put is no head in the file of a version. -/
def PutsApart (serde : Serde Graph) (backend : Backend) (s : backend.State) (op : StoreOp Graph) : Prop :=
  ∀ head, op = .put_head head → backend.Apart serde s head.flow_id

/-- Every version is stored under the hash of its graph, and every head points to a version. -/
structure Consistent (serde : Serde Graph) (backend : Backend) (hashing : Hashing Graph) (s : backend.State) : Prop where
  hashes : ∀ version_id version, (backend.flow_store serde).get_version s version_id = .ok (some version) →
    compute_version_id hashing version.graph = version.version_id
  keys : ∀ version_id version, (backend.flow_store serde).get_version s version_id = .ok (some version) →
    backend.IsKey version_id → version.version_id = version_id
  heads : ∀ flow_id head, (backend.flow_store serde).get_head s flow_id = .ok (some head) →
    ∃ version, (backend.flow_store serde).get_version s head.current_version_id = .ok (some version)

theorem isKey_iff (version_id : String) : backend.IsKey version_id ↔ (backend.layout start).key version_id := by
  cases backend <;> rfl

theorem key_of_hash (start : backend.State) (graph : Graph) : (backend.layout start).key (compute_version_id hashing graph) := by
  cases backend with
  | file => exact hex_no_separator _
  | database => exact trivial

theorem headOnVersion_iff {s : backend.State} {records : backend.Place → Option (Record Graph)}
    (h : backend.Holds serde start s records) (version_id flow_id : String) :
    backend.HeadOnVersion s version_id flow_id ↔ (backend.layout start).Shared version_id flow_id := by
  cases backend with
  | file =>
    refine exists_congr fun l => ?_
    simp only [layout, file_store.layout, fallible.toOption_eq_some]
    rw [h.same.locate, h.same.locate, file_store.version_path, file_store.head_path, h.versions_dir, h.flows_dir]
    rfl
  | database =>
    refine iff_of_false id ?_
    rintro ⟨p, hversion, hhead⟩
    cases hversion.trans hhead.symm

theorem apart_iff {s : backend.State} {records : backend.Place → Option (Record Graph)}
    (h : backend.Holds serde start s records) (flow_id : String) :
    backend.Apart serde s flow_id ↔ (backend.flow_store serde).Apart (backend.layout start) s flow_id := by
  unfold Apart FlowStore.Apart
  simp only [headOnVersion_iff h]

/-- The stores in which versions are stored so that the invariants hold. -/
abbrev Sound (serde : Serde Graph) (backend : Backend) (start : backend.State) (hashing : Hashing Graph) (graphs : Set Graph) :
    backend.State → Prop :=
  Kept (backend.flow_store serde) (backend.layout start) (backend.Holds serde start) hashing graphs

theorem Fresh.sound (hfresh : backend.Fresh serde start) : backend.Sound serde start hashing graphs start := by
  obtain ⟨hholds, hversions, hheads⟩ := hfresh.holds
  exact ⟨hholds, ⟨fun version_id version h => absurd h (hversions _ _), fun flow_id head h => absurd h (hheads _ _),
    fun flow_id head h => absurd h (hheads _ _)⟩⟩

theorem consistent_of_sound (hfresh : backend.Fresh serde start) {s : backend.State}
    (h : backend.Sound serde start hashing graphs s) : backend.Consistent serde hashing s := by
  obtain ⟨records, hholds⟩ := h.holds
  have hshows := (backend.implements serde hfresh).shows hholds
  refine ⟨fun version_id version hread => (h.addressed.ids _ _ hread).1, fun version_id version hread hkey => ?_, h.addressed.heads⟩
  rw [← (h.addressed.ids _ _ hread).1]
  exact h.addressed.hash_of_key (key_of_hash start) hshows ((isKey_iff version_id).mp hkey) hread

section Guards

variable {Guard : backend.State → StoreOp Graph → Prop}

theorem save_sound (hfresh : backend.Fresh serde start) (hhash : hashing.Injective (SaveCall.graph '' calls))
    (htrips : ∀ call ∈ calls, serde.Trips hashing call)
    (hguard : ∀ s head, backend.Sound serde start hashing (SaveCall.graph '' calls) s → Guard s (.put_head head) →
      backend.Apart serde s head.flow_id) {call : SaveCall Graph} (hcall : call ∈ calls) (s : backend.State) :
    Safe (backend.flow_store serde).apply Guard (backend.Sound serde start hashing (SaveCall.graph '' calls))
      (Grows (backend.flow_store serde)) (save hashing call) s := by
  refine save_safe (backend.implements serde hfresh) (key_of_hash start) hhash (Set.mem_image_of_mem _ hcall) (htrips call hcall) ?_ s
  intro s hsound hallowed
  obtain ⟨records, hholds⟩ := hsound.holds
  exact (apart_iff hholds _).mp (hguard s _ hsound hallowed)

/-- The pools that interleavings of guarded saves reach. -/
theorem pool_sound (hfresh : backend.Fresh serde start) (hhash : hashing.Injective (SaveCall.graph '' calls))
    (htrips : ∀ call ∈ calls, serde.Trips hashing call)
    (hguard : ∀ s head, backend.Sound serde start hashing (SaveCall.graph '' calls) s → Guard s (.put_head head) →
      backend.Apart serde s head.flow_id) {actions : List (program.PoolAction (SaveCall Graph))}
    {pool : Pool backend.State (StoreOp Graph) Answer (FlowVersion Graph)}
    (hrun : Interleaving (backend.flow_store serde).apply (save hashing) calls Guard ⟨start, []⟩ actions pool) :
    SafePool (backend.flow_store serde).apply Guard (backend.Sound serde start hashing (SaveCall.graph '' calls))
      (Grows (backend.flow_store serde)) pool :=
  (SafePool.run Grows.refl Grows.trans (fun _ hcall s _ => save_sound hfresh hhash htrips hguard hcall s)
    ⟨hfresh.sound, fun _ hmem => by cases hmem⟩ hrun).1

end Guards

end Backend

/-- In every interleaving of saves in which no head is put in the file of a version, versions are
stored under the hashes of their graphs, heads point to versions, and a version that has been read
is read with the same graph ever after. A head that is put in the file of a version ends that. -/
theorem heads_never_dangle_apart (backend : Backend) {Graph : Type} {serde : Serde Graph} {hashing : Hashing Graph}
    {calls : Set (SaveCall Graph)} (hhash : hashing.Injective (SaveCall.graph '' calls))
    (htrips : ∀ call ∈ calls, serde.Trips hashing call) {start : backend.State} (hfresh : backend.Fresh serde start)
    {actions : List (program.PoolAction (SaveCall Graph))} {pool : Pool backend.State (StoreOp Graph) Answer (FlowVersion Graph)}
    (hrun : Interleaving (backend.flow_store serde).apply (save hashing) calls (backend.PutsApart serde) ⟨start, []⟩
      actions pool) :
    backend.Consistent serde hashing pool.state ∧
    (∀ more later, Interleaving (backend.flow_store serde).apply (save hashing) calls (backend.PutsApart serde) pool more later →
      Grows (backend.flow_store serde) pool.state later.state) ∧
    ∀ call ∈ calls, ¬ backend.Apart serde pool.state call.flow_id → ∀ next,
      (backend.flow_store serde).put_head pool.state (new_head hashing call) = .ok next →
      ¬ Grows (backend.flow_store serde) pool.state next := by
  have hguard : ∀ s head, backend.Sound serde start hashing (SaveCall.graph '' calls) s →
      backend.PutsApart serde s (.put_head head) → backend.Apart serde s head.flow_id :=
    fun s head _ hputs => hputs head rfl
  have hpool := Backend.pool_sound hfresh hhash htrips hguard hrun
  refine ⟨Backend.consistent_of_sound hfresh hpool.inv, fun more later hmore => ?_, fun call hcall hshared next hput hgrows => ?_⟩
  · exact (hpool.run Grows.refl Grows.trans (fun _ hcall s _ => Backend.save_sound hfresh hhash htrips hguard hcall s) hmore).2
  · obtain ⟨records, hholds⟩ := hpool.inv.holds
    rw [Backend.apart_iff hholds] at hshared
    obtain ⟨version_id, version, hread, hlost⟩ :=
      (backend.implements serde hfresh).version_lost hholds (htrips call hcall).head hshared hput
    obtain ⟨version', hread', _⟩ := hgrows _ _ hread
    exact hlost version' hread'

namespace file_store

variable {Graph : Type} {serde : Serde Graph} {hashing : Hashing Graph} {calls : Set (SaveCall Graph)} {start : FileFlowStore}

/-- The two directories are different ones. -/
def TwoDirs (s : FileFlowStore) : Prop :=
  ∀ dir, s.disk.directory_at s.flows_dir = .ok dir → s.disk.directory_at s.versions_dir ≠ .ok dir

/-- A flow id that is a name leads to no version. -/
theorem apart_of_name (hdirs : TwoDirs start) {graphs : Set Graph} {s : FileFlowStore}
    (h : Backend.file.Sound serde start hashing graphs s) {flow_id : String} (hname : '/' ∉ flow_id.toList) :
    Backend.file.Apart serde s flow_id := by
  obtain ⟨records, hholds⟩ := h.holds
  rintro version_id version hread ⟨l, hversion, hhead⟩
  obtain ⟨hhashed, _, hplace⟩ := h.addressed.ids version_id version hread
  rw [version_path, hholds.versions_dir, hholds.same.locate] at hversion
  rw [head_path, hholds.flows_dir, hholds.same.locate, locate_named _ _ hname] at hhead
  have hown : (layout start).version_place version.version_id = some l := hplace.trans (fallible.toOption_eq_some.mpr hversion)
  simp only [layout, ← hhashed, fallible.toOption_eq_some, version_path] at hown
  obtain ⟨dir, hdir, heq⟩ := (locate_named _ _ (hex_no_separator _)).mp hown
  obtain ⟨dir', hdir', heq'⟩ := hhead
  rw [(List.append_inj' (heq.symm.trans heq') rfl).1] at hdir
  exact hdirs dir' hdir' hdir

/-- The heads that are put have names for flow ids. -/
def PutsNamed (op : StoreOp Graph) : Prop := ∀ head, op = .put_head head → '/' ∉ head.flow_id.toList

theorem save_puts_named (hashing : Hashing Graph) {call : SaveCall Graph} (hname : '/' ∉ call.flow_id.toList) :
    program.OnlyCalls PutsNamed (save hashing call) := by
  refine ⟨fun head h => (by cases h), fun existing => ?_⟩
  cases existing with
  | some existing => trivial
  | none =>
    refine ⟨fun head h => (by cases h), fun _ => ⟨fun head h => ?_, fun _ => trivial⟩⟩
    cases h
    exact hname

/-- Where all flow ids are names, no head is ever put in the file of a version. -/
theorem puts_apart_of_names (hfresh : Backend.file.Fresh serde start) (hdirs : TwoDirs start)
    (hhash : hashing.Injective (SaveCall.graph '' calls)) (htrips : ∀ call ∈ calls, serde.Trips hashing call)
    (hnames : ∀ call ∈ calls, '/' ∉ call.flow_id.toList) {actions : List (program.PoolAction (SaveCall Graph))}
    {pool : Pool FileFlowStore (StoreOp Graph) Answer (FlowVersion Graph)}
    (hrun : Interleaving (flow_store serde).apply (save hashing) calls (fun _ _ => True) ⟨start, []⟩ actions pool) :
    Interleaving (flow_store serde).apply (save hashing) calls (Backend.file.PutsApart serde) ⟨start, []⟩ actions pool := by
  have hnamed : Interleaving (flow_store serde).apply (save hashing) calls (fun _ op => PutsNamed op) ⟨start, []⟩ actions pool := by
    refine hrun.transfer fun actions pool action hrun hallowed => ⟨hallowed.1, fun index outcome op next _ hprogram _ => ?_⟩
    exact (program.only_calls (fun call hcall => save_puts_named hashing (hnames call hcall)) hrun _
      (List.mem_of_getElem? hprogram)).1
  refine hnamed.transfer fun actions pool action hrun hallowed => ⟨hallowed.1, fun index outcome op next heq hprogram heffect => ?_⟩
  have hpool := Backend.pool_sound hfresh hhash htrips
    (fun s head hsound hputs => apart_of_name hdirs hsound (hputs head rfl)) hrun
  rintro head rfl
  exact apart_of_name hdirs hpool.inv (hallowed.2 index outcome _ next heq hprogram heffect head rfl)

end file_store

/-- Two flow graphs without nodes. -/
def sample_graph (id : String) : GraphDef := ⟨id, [], []⟩

def graph_text (id : String) : String :=
  "\x7b\"schema_version\":1,\"id\":\"" ++ id ++
    "\",\"name\":\"Test\",\"version\":\"1\",\"nodes\":[],\"edges\":[],\"metadata\":\x7b\x7d,\"tool_definitions\":\x7b\x7d\x7d"

/-- Their JSON and its hashes. -/
def sample_hashing : Hashing GraphDef where
  to_vec graph := graph_text graph.id
  sha256 data :=
    if data = graph_text "A" then
      [67, 144, 58, 251, 206, 147, 205, 39, 195, 114, 167, 49, 166, 225, 47, 84, 249, 114, 246, 83,
      24, 142, 123, 18, 91, 178, 128, 34, 57, 131, 167, 228]
    else if data = graph_text "B" then
      [174, 195, 253, 52, 160, 130, 125, 229, 9, 134, 193, 230, 99, 34, 98, 14, 206, 50, 243, 11,
      103, 167, 106, 167, 166, 214, 14, 155, 49, 39, 239, 163]
    else List.replicate 32 0
  sha256_length data := by
    split
    · rfl
    · split <;> rfl

def sample_id (id : String) : String := compute_version_id sample_hashing (sample_graph id)

def sample_call (flow_id id : String) : SaveCall GraphDef := ⟨flow_id, "Test", sample_graph id, none, none, 0, 0⟩

/-- A call whose head goes where the version of the first graph is. -/
def overwriting_call : SaveCall GraphDef := sample_call ("../versions/" ++ sample_id "A") "B"

def version_text (version : FlowVersion GraphDef) : String :=
  "\x7b\n  \"version_id\": \"" ++ version.version_id ++ "\",\n  \"flow_id\": \"" ++ version.flow_id ++
    "\",\n  \"graph\": \x7b\n    \"schema_version\": 1,\n    \"id\": \"" ++ version.graph.id ++
    "\",\n    \"name\": \"Test\",\n    \"version\": \"1\",\n    \"nodes\": [],\n    \"edges\": [],\n" ++
    "    \"metadata\": \x7b\x7d,\n    \"tool_definitions\": \x7b\x7d\n  \x7d,\n  \"created_at\": \"1970-01-01T00:00:00Z\"\n\x7d"

def head_text (head : FlowHead) : String :=
  "\x7b\n  \"flow_id\": \"" ++ head.flow_id ++ "\",\n  \"name\": \"Test\",\n  \"current_version_id\": \"" ++
    head.current_version_id ++ "\",\n  \"updated_at\": \"1970-01-01T00:00:00Z\"\n\x7d"

def graph_value (id : String) : Value :=
  .object [("edges", .array []), ("id", .string id), ("metadata", .object []), ("name", .string "Test"), ("nodes", .array []),
    ("schema_version", .number (.pos_int 1)), ("tool_definitions", .object []), ("version", .string "1")]

/-- The calls of the samples. -/
def sample_calls : List (SaveCall GraphDef) := [sample_call "flow" "A", sample_call "flow" "B", overwriting_call]

/-- `serde_json` on the records of these calls. -/
def sample_serde : Serde GraphDef where
  version_to_vec_pretty version := .ok (version_text version)
  version_from_slice data :=
    match sample_calls.find? fun call => version_text (new_version sample_hashing call) = data with
    | some call => .ok (new_version sample_hashing call)
    | none => .error "not a version"
  head_to_vec_pretty head := .ok (head_text head)
  head_from_slice data :=
    match sample_calls.find? fun call => head_text (new_head sample_hashing call) = data with
    | some call => .ok (new_head sample_hashing call)
    | none => .error "not a head"
  graph_to_value graph := .ok (graph_value graph.id)
  graph_from_value value :=
    match value.get "id" with
    | some (.string "A") => .ok (sample_graph "A")
    | some (.string "B") => .ok (sample_graph "B")
    | _ => .error "not a sample"

/-- The texts of the records differ. -/
theorem sample_texts_nodup : (sample_calls.map (fun call => version_text (new_version sample_hashing call)) ++
    sample_calls.map fun call => head_text (new_head sample_hashing call)).Nodup := by
  decide +kernel

/-- A text is found among those of a list that differ. -/
theorem find_of_nodup {α : Type} {list : List α} (text : α → String) (h : (list.map text).Nodup) {a : α} (hmem : a ∈ list) :
    list.find? (fun b => text b = text a) = some a := by
  cases hfound : list.find? fun b => decide (text b = text a) with
  | none => exact absurd (decide_eq_true rfl) (List.find?_eq_none.mp hfound a hmem)
  | some b =>
    have hsame : text b = text a := by simpa using List.find?_some hfound
    exact congrArg some (List.inj_on_of_nodup_map h (List.mem_of_find?_eq_some hfound) hmem hsame)

theorem sample_calls_trip : ∀ call ∈ sample_calls, sample_serde.Trips sample_hashing call := by
  obtain ⟨hversions, hheads, hdisjoint⟩ := List.nodup_append.mp sample_texts_nodup
  intro call hcall
  have hversion := find_of_nodup (fun call => version_text (new_version sample_hashing call)) hversions hcall
  have hhead := find_of_nodup (fun call => head_text (new_head sample_hashing call)) hheads hcall
  have hno_head : sample_calls.find? (fun other => head_text (new_head sample_hashing other) =
      version_text (new_version sample_hashing call)) = none := by
    rw [List.find?_eq_none]
    intro other hother heq
    exact hdisjoint _ (List.mem_map_of_mem hcall) _ (List.mem_map_of_mem hother) (of_decide_eq_true heq).symm
  have hno_version : sample_calls.find? (fun other => version_text (new_version sample_hashing other) =
      head_text (new_head sample_hashing call)) = none := by
    rw [List.find?_eq_none]
    intro other hother heq
    exact hdisjoint _ (List.mem_map_of_mem hother) _ (List.mem_map_of_mem hcall) (of_decide_eq_true heq)
  refine ⟨⟨⟨_, rfl, ?_, "not a head", ?_⟩, ⟨graph_value call.graph.id, rfl, ?_⟩⟩, ⟨_, rfl, ?_, "not a version", ?_⟩⟩
  · simp only [sample_serde, hversion]
  · simp only [sample_serde, hno_head]
  · simp only [sample_calls, List.mem_cons, List.not_mem_nil, or_false] at hcall
    obtain rfl | rfl | rfl := hcall <;> rfl
  · simp only [sample_serde, hhead]
  · simp only [sample_serde, hno_version]

theorem sample_hashing_injective : sample_hashing.Injective (SaveCall.graph '' {call | call ∈ sample_calls}) := by
  have hgraphs : ∀ graph ∈ SaveCall.graph '' {call | call ∈ sample_calls}, graph = sample_graph "A" ∨ graph = sample_graph "B" := by
    rintro _ ⟨call, hcall, rfl⟩
    simp only [sample_calls, Set.mem_ofPred_eq, List.mem_cons, List.not_mem_nil, or_false] at hcall
    obtain rfl | rfl | rfl := hcall
    · exact .inl rfl
    · exact .inr rfl
    · exact .inr rfl
  have htexts : graph_text "A" ≠ graph_text "B" := by decide +kernel
  have hhashes : sample_hashing.sha256 (graph_text "A") ≠ sample_hashing.sha256 (graph_text "B") := by decide +kernel
  constructor
  · intro g hg g' hg' heq
    obtain rfl | rfl := hgraphs g hg <;> obtain rfl | rfl := hgraphs g' hg'
    · rfl
    · exact absurd heq htexts
    · exact absurd heq.symm htexts
    · rfl
  · rintro _ ⟨g, hg, rfl⟩ _ ⟨g', hg', rfl⟩ heq
    obtain rfl | rfl := hgraphs g hg <;> obtain rfl | rfl := hgraphs g' hg'
    · rfl
    · exact absurd heq hhashes
    · exact absurd heq.symm hhashes
    · rfl

/-- A store in an empty file system. -/
def sample_store : file_store.FileFlowStore :=
  ⟨⟨((∅ : Std.TreeMap Location (Entry String)).insert ["data"] .directory).insert ["data", "flows"] .directory |>.insert
    ["data", "versions"] .directory, fun _ => none⟩, ["data", "flows"], ["data", "versions"]⟩

example : file_store.new ⟨∅, fun _ => none⟩ ["data"] = .ok sample_store := rfl

theorem sample_store_entry {l : Location} {e : Entry String} (h : sample_store.disk.entry l = some e) :
    e = .directory ∧ l ∈ [[], ["data"], ["data", "flows"], ["data", "versions"]] := by
  unfold filesystem.FileSystem.entry at h
  split at h
  · rename_i hroot
    cases h
    exact ⟨rfl, hroot ▸ List.mem_cons_self⟩
  · simp only [sample_store, Std.TreeMap.getElem?_insert, Std.LawfulEqCmp.compare_eq_iff_eq] at h
    split at h
    · rename_i heq
      cases h
      exact ⟨rfl, heq ▸ by simp⟩
    · split at h
      · rename_i heq
        cases h
        exact ⟨rfl, heq ▸ by simp⟩
      · split at h
        · rename_i heq
          cases h
          exact ⟨rfl, heq ▸ by simp⟩
        · cases h

theorem sample_store_fresh : Backend.file.Fresh sample_serde sample_store := by
  refine ⟨⟨sample_store.disk.children ["data", "versions"], rfl, ?_⟩, fun version_id version h => ?_, fun flow_id head h => ?_⟩
  · rintro ⟨name, e⟩ hmem _ rfl
    obtain ⟨_, hplace⟩ := sample_store_entry (filesystem.FileSystem.mem_children.mp hmem)
    simp at hplace
  · obtain ⟨l, data, _, hentry, _⟩ := file_store.get_record_eq_some.mp h
    cases (sample_store_entry hentry).1
  · obtain ⟨l, data, _, hentry, _⟩ := file_store.get_record_eq_some.mp h
    cases (sample_store_entry hentry).1

theorem sample_store_two_dirs : file_store.TwoDirs sample_store := by
  intro dir hflows hversions
  have hflows' : sample_store.disk.directory_at sample_store.flows_dir = .ok ["data", "flows"] := by rfl
  have hversions' : sample_store.disk.directory_at sample_store.versions_dir = .ok ["data", "versions"] := by rfl
  cases hflows.symm.trans hflows'
  exact absurd (Except.ok.inj (hversions.symm.trans hversions')) (by decide)

/-- Two saves at once; the head of the second is put, but its caller sees a failure. -/
def sample_actions : List (program.PoolAction (SaveCall GraphDef)) :=
  [.start (sample_call "flow" "A"), .start (sample_call "flow" "B"), .take 0 .served, .take 1 .served, .take 1 .served,
    .take 0 .served, .take 0 .served, .take 1 (.failed "connection lost" true)]

abbrev SamplePool := Pool file_store.FileFlowStore (StoreOp GraphDef) Answer (FlowVersion GraphDef)

/-- The calls whose flow ids are names. -/
def named_calls : Set (SaveCall GraphDef) := {call | call ∈ sample_calls ∧ call.flow_id = "flow"}

theorem sample_run : ∃ pool : SamplePool,
    sample_actions.foldlM (program.pool_step (file_store.flow_store sample_serde).apply (save sample_hashing))
      ⟨sample_store, []⟩ = some pool := by
  refine Option.isSome_iff_exists.mp ?_
  decide +kernel

theorem sample_named_run : ∃ pool : SamplePool,
    Interleaving (file_store.flow_store sample_serde).apply (save sample_hashing) named_calls (fun _ _ => True)
      ⟨sample_store, []⟩ sample_actions pool := by
  obtain ⟨pool, hpool⟩ := sample_run
  refine ⟨pool, transition.run_of_foldlM_allowed hpool fun action hmem _ => ⟨fun call hcall => ?_, fun _ _ _ _ _ _ _ => trivial⟩⟩
  subst hcall
  simp only [sample_actions, List.mem_cons, program.PoolAction.start.injEq, reduceCtorEq, List.not_mem_nil, or_false] at hmem
  obtain rfl | rfl := hmem
  · exact ⟨by simp [sample_calls], rfl⟩
  · exact ⟨by simp [sample_calls], rfl⟩

theorem heads_never_dangle_apart_sample : ∃ pool : SamplePool,
    Interleaving (file_store.flow_store sample_serde).apply (save sample_hashing) named_calls
      (Backend.file.PutsApart sample_serde) ⟨sample_store, []⟩ sample_actions pool ∧
    Backend.file.Consistent sample_serde sample_hashing pool.state := by
  have htrips : ∀ call ∈ named_calls, sample_serde.Trips sample_hashing call := fun call hcall => sample_calls_trip call hcall.1
  have hhash : sample_hashing.Injective (SaveCall.graph '' named_calls) :=
    sample_hashing_injective.mono (Set.image_mono fun call hcall => hcall.1)
  have hnames : ∀ call ∈ named_calls, '/' ∉ call.flow_id.toList := by
    rintro call ⟨_, hflow⟩
    rw [hflow]
    decide
  obtain ⟨pool, hrun⟩ := sample_named_run
  have hapart := file_store.puts_apart_of_names sample_store_fresh sample_store_two_dirs hhash htrips hnames hrun
  exact ⟨pool, hapart, (heads_never_dangle_apart .file hhash htrips sample_store_fresh hapart).1⟩

/-- A save of the first graph, and then one whose flow id leads to its version. -/
def first_actions : List (program.PoolAction (SaveCall GraphDef)) :=
  [.start (sample_call "flow" "A"), .take 0 .served, .take 0 .served, .take 0 .served]

def second_actions : List (program.PoolAction (SaveCall GraphDef)) :=
  [.start overwriting_call, .take 1 .served, .take 1 .served, .take 1 .served]

/-- Whether a version can be read under the id of the first graph. -/
def reads_version (s : file_store.FileFlowStore) : Bool :=
  (((file_store.flow_store sample_serde).get_version s (sample_id "A")).toOption.bind id).isSome

theorem reads_version_iff (s : file_store.FileFlowStore) : reads_version s = true ↔
    ∃ version, (file_store.flow_store sample_serde).get_version s (sample_id "A") = .ok (some version) := by
  rw [reads_version, Option.isSome_iff_exists]
  simp only [Option.bind_eq_some_iff, id, exists_eq_right, fallible.toOption_eq_some]

def sample_step : SamplePool → program.PoolAction (SaveCall GraphDef) → Option SamplePool :=
  program.pool_step (file_store.flow_store sample_serde).apply (save sample_hashing)

theorem overwriting_runs : ∃ pool later : SamplePool, first_actions.foldlM sample_step ⟨sample_store, []⟩ = some pool ∧
    second_actions.foldlM sample_step pool = some later ∧ reads_version pool.state = true ∧ reads_version later.state = false := by
  have hruns : ((first_actions.foldlM sample_step ⟨sample_store, []⟩).bind fun pool => (second_actions.foldlM sample_step pool).map
      fun later => (reads_version pool.state, reads_version later.state)) = some (true, false) := by decide +kernel
  obtain ⟨pool, hfirst, hrest⟩ := Option.bind_eq_some_iff.mp hruns
  obtain ⟨later, hsecond, hreads⟩ := Option.map_eq_some_iff.mp hrest
  obtain ⟨hbefore, hafter⟩ := Prod.mk.inj hreads
  exact ⟨pool, later, hfirst, hsecond, hbefore, hafter⟩

/-- A save for a flow whose id leads to a version ends the version, on a store that gives all records
back. -/
theorem version_overwritten :
    (∀ call ∈ sample_calls, sample_serde.Trips sample_hashing call) ∧
    sample_hashing.Injective (SaveCall.graph '' {call | call ∈ sample_calls}) ∧
    ∃ pool later : SamplePool,
      Interleaving (file_store.flow_store sample_serde).apply (save sample_hashing) {call | call ∈ sample_calls} (fun _ _ => True)
        ⟨sample_store, []⟩ first_actions pool ∧
      Interleaving (file_store.flow_store sample_serde).apply (save sample_hashing) {call | call ∈ sample_calls} (fun _ _ => True)
        pool second_actions later ∧
      ¬ Grows (file_store.flow_store sample_serde) pool.state later.state := by
  obtain ⟨pool, later, hfirst, hsecond, hbefore, hafter⟩ := overwriting_runs
  refine ⟨sample_calls_trip, sample_hashing_injective, pool, later, ?_, ?_, fun hgrows => ?_⟩
  · refine transition.run_of_foldlM_allowed hfirst fun action hmem _ => ⟨fun call hcall => ?_, fun _ _ _ _ _ _ _ => trivial⟩
    subst hcall
    simp only [first_actions, List.mem_cons, program.PoolAction.start.injEq, reduceCtorEq, List.not_mem_nil, or_false] at hmem
    exact hmem ▸ List.mem_cons_self
  · refine transition.run_of_foldlM_allowed hsecond fun action hmem _ => ⟨fun call hcall => ?_, fun _ _ _ _ _ _ _ => trivial⟩
    subst hcall
    simp only [second_actions, List.mem_cons, program.PoolAction.start.injEq, reduceCtorEq, List.not_mem_nil, or_false] at hmem
    exact hmem ▸ List.mem_cons_of_mem _ (List.mem_cons_of_mem _ List.mem_cons_self)
  · obtain ⟨version, hversion⟩ := (reads_version_iff _).mp hbefore
    obtain ⟨version', hversion', _⟩ := hgrows _ _ hversion
    rw [(reads_version_iff _).mpr ⟨version', hversion'⟩] at hafter
    cases hafter

end flow_engine.versioning
