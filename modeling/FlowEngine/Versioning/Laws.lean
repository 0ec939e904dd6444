import FlowEngine.Lib.Fallible
import FlowEngine.Versioning.Stores
import Mathlib.Logic.Function.Basic

namespace flow_engine.versioning

open filesystem (Entry FileSystem Location Named Path extension)
open filesystem.FileSystem (SameDirs)

variable {Graph : Type}

section Layers

variable {State Place : Type}

/-- What is stored at a place, as far as it can be read. -/
structure Record (Graph : Type) where
  version : Option (FlowVersion Graph)
  head : Option FlowHead

def Record.of_version (version : FlowVersion Graph) : Record Graph := ⟨some version, none⟩

def Record.of_head (head : FlowHead) : Record Graph := ⟨none, some head⟩

/-- Where a store keeps the versions of ids and the heads of flows, and which places its lists are
made from. A place may be that of a version and of a head, but not that of two keys. -/
structure Layout (Place : Type) where
  version_place : String → Option Place
  head_place : String → Option Place
  key : String → Prop
  listed : Place → Prop
  version_place_inj : ∀ {version_id other p}, key version_id → key other → version_place version_id = some p →
    version_place other = some p → version_id = other
  listed_of_key : ∀ {version_id p}, key version_id → version_id ≠ "" → version_place version_id = some p → listed p

/-- Some flow id has its head where the version with the id is. -/
def Layout.Shared (layout : Layout Place) (version_id flow_id : String) : Prop :=
  ∃ p, layout.version_place version_id = some p ∧ layout.head_place flow_id = some p

/-- What is read of the store are the records at its places. -/
structure FlowStore.Shows (store : FlowStore Graph State) (layout : Layout Place) (s : State)
    (records : Place → Option (Record Graph)) : Prop where
  version_iff : ∀ version_id version, store.get_version s version_id = .ok (some version) ↔
    ∃ p r, layout.version_place version_id = some p ∧ records p = some r ∧ r.version = some version
  no_version_iff : ∀ version_id, store.get_version s version_id = .ok none ↔
    ∀ p, layout.version_place version_id = some p → records p = none
  head_iff : ∀ flow_id head, store.get_head s flow_id = .ok (some head) ↔
    ∃ p r, layout.head_place flow_id = some p ∧ records p = some r ∧ r.head = some head
  lists : ∀ flow_id, ∃ limit versions, store.list_versions s flow_id limit 0 = .ok versions ∧ ∀ version,
    version ∈ versions ↔ (∃ p r, layout.listed p ∧ records p = some r ∧ r.version = some version) ∧ version.flow_id = flow_id

/-- `serde_json` gives a version back, and finds no head in its text. -/
structure Serde.VersionTrips (serde : Serde Graph) (version : FlowVersion Graph) : Prop where
  text : ∃ data, serde.version_to_vec_pretty version = .ok data ∧ serde.version_from_slice data = .ok version ∧
    ∃ e, serde.head_from_slice data = .error e
  value : ∃ graph, serde.graph_to_value version.graph = .ok graph ∧ serde.graph_from_value graph = .ok version.graph

/-- `serde_json` gives a head back, and finds no version in its text. -/
def Serde.HeadTrips (serde : Serde Graph) (head : FlowHead) : Prop :=
  ∃ data, serde.head_to_vec_pretty head = .ok data ∧ serde.head_from_slice data = .ok head ∧
    ∃ e, serde.version_from_slice data = .error e

/-- A store that keeps records at places as `Holds` says: a version that is put is at the place of its
id, unless there is one, and a head is at the place of its flow. -/
structure FlowStore.Implements [DecidableEq Place] (store : FlowStore Graph State) (serde : Serde Graph) (layout : Layout Place)
    (Holds : State → (Place → Option (Record Graph)) → Prop) : Prop where
  put_version : ∀ {s next records version}, Holds s records → serde.VersionTrips version →
    store.put_version s version = .ok next → ∃ p, layout.version_place version.version_id = some p ∧
      (Holds next (Function.update records p (some (.of_version version))) ∨
        (∃ r, records p = some r ∧ r.version.isSome) ∧ Holds next records)
  put_head : ∀ {s next records head}, Holds s records → serde.HeadTrips head → store.put_head s head = .ok next →
    ∃ p, layout.head_place head.flow_id = some p ∧ Holds next (Function.update records p (some (.of_head head)))
  shows : ∀ {s records}, Holds s records → store.Shows layout s records

section Updates

variable {store : FlowStore Graph State} {layout : Layout Place} {s next : State} {records : Place → Option (Record Graph)}

/-- The same records are the same versions and heads. -/
theorem FlowStore.Shows.same (h : store.Shows layout s records) (h' : store.Shows layout next records) :
    (∀ version_id version, store.get_version next version_id = .ok (some version) ↔
      store.get_version s version_id = .ok (some version)) ∧
    ∀ flow_id head, store.get_head next flow_id = .ok (some head) ↔ store.get_head s flow_id = .ok (some head) :=
  ⟨fun version_id version => (h'.version_iff version_id version).trans (h.version_iff version_id version).symm,
    fun flow_id head => (h'.head_iff flow_id head).trans (h.head_iff flow_id head).symm⟩

variable [DecidableEq Place] {p : Place} {r : Record Graph}

/-- The versions after a record is put at a place. -/
theorem FlowStore.Shows.version_update (h : store.Shows layout s records)
    (h' : store.Shows layout next (Function.update records p (some r))) (version_id : String) (version : FlowVersion Graph) :
    store.get_version next version_id = .ok (some version) ↔
      layout.version_place version_id = some p ∧ r.version = some version ∨
      layout.version_place version_id ≠ some p ∧ store.get_version s version_id = .ok (some version) := by
  rw [h'.version_iff, h.version_iff]
  cases layout.version_place version_id with
  | none => simp
  | some q =>
    by_cases hsame : q = p
    · subst hsame
      simp
    · simp [hsame]

/-- The heads after a record is put at a place. -/
theorem FlowStore.Shows.head_update (h : store.Shows layout s records)
    (h' : store.Shows layout next (Function.update records p (some r))) (flow_id : String) (head : FlowHead) :
    store.get_head next flow_id = .ok (some head) ↔
      layout.head_place flow_id = some p ∧ r.head = some head ∨
      layout.head_place flow_id ≠ some p ∧ store.get_head s flow_id = .ok (some head) := by
  rw [h'.head_iff, h.head_iff]
  cases layout.head_place flow_id with
  | none => simp
  | some q =>
    by_cases hsame : q = p
    · subst hsame
      simp
    · simp [hsame]

end Updates

end Layers

namespace file_store

variable {serde : Serde Graph} {start s next : FileFlowStore}

/-- The location of a file with that extension. -/
def Json (l : Location) : Prop := ∃ dir stem, l = dir ++ [stem ++ ".json"]

theorem named_json (stem : String) : Named (stem ++ ".json") := filesystem.named_append stem rfl (by decide)

/-- The temporary file of a write is none of a record. -/
theorem not_json_temp (dir : Location) (name : String) : ¬ Json (dir ++ [filesystem.with_extension name "json.tmp"]) := by
  rintro ⟨dir', stem, heq⟩
  have hname : filesystem.with_extension name "json.tmp" = stem ++ ".json" := List.singleton_inj.mp (List.append_inj' heq rfl).2
  exact filesystem.append_ne_of_getLast? (c := 'p') (d := 'n') rfl rfl (by decide) hname

/-- The location of a record has its directory and its name. -/
theorem locate_json (disk : FileSystem String) (p : Path) (id : String) : ∃ before stem,
    p.join (id ++ ".json") = before ++ [stem ++ ".json"] ∧ ∀ l, disk.locate (p.join (id ++ ".json")) = .ok l ↔
      ∃ dir, disk.directory_at before = .ok dir ∧ l = dir ++ [stem ++ ".json"] := by
  obtain ⟨before, stem, hjoin⟩ := @Path.join_append p id ".json" (by decide)
  refine ⟨before, stem, hjoin, fun l => ?_⟩
  rw [hjoin, FileSystem.locate_eq_ok (named_json stem)]

theorem json_of_extension (dir : Location) {name : String} (h : extension name = some "json") : Json (dir ++ [name]) := by
  obtain ⟨stem, _, rfl⟩ := filesystem.name_of_extension h
  exact ⟨dir, stem, congrArg (fun name => dir ++ [name]) String.append_assoc⟩

theorem json_of_locate {disk : FileSystem String} {p : Path} {id : String} {l : Location}
    (h : disk.locate (p.join (id ++ ".json")) = .ok l) : Json l := by
  obtain ⟨before, stem, _, hlocate⟩ := locate_json disk p id
  obtain ⟨dir, _, rfl⟩ := (hlocate l).mp h
  exact ⟨dir, stem, rfl⟩

/-- A record with a name for an id is in the directory, under its id. -/
theorem locate_named (disk : FileSystem String) (p : Path) {id : String} (hname : '/' ∉ id.toList) {l : Location} :
    disk.locate (p.join (id ++ ".json")) = .ok l ↔ ∃ dir, disk.directory_at p = .ok dir ∧ l = dir ++ [id ++ ".json"] := by
  have hslash : '/' ∉ (id ++ ".json").toList := by
    rw [String.toList_append, List.mem_append, not_or]
    exact ⟨hname, by decide⟩
  rw [p.join_of_single hslash, FileSystem.locate_eq_ok (named_json id)]

/-- Where the files of versions and heads are. -/
def layout (s : FileFlowStore) : Layout Location where
  version_place version_id := (s.disk.locate (version_path s version_id)).toOption
  head_place flow_id := (s.disk.locate (head_path s flow_id)).toOption
  key version_id := '/' ∉ version_id.toList
  listed l := ∃ dir name, s.disk.directory_at s.versions_dir = .ok dir ∧ l = dir ++ [name] ∧ extension name = some "json"
  version_place_inj := by
    intro version_id other p hkey hkey' hplace hplace'
    rw [fallible.toOption_eq_some, version_path, locate_named _ _ hkey] at hplace
    rw [fallible.toOption_eq_some, version_path, locate_named _ _ hkey'] at hplace'
    obtain ⟨dir, hdir, rfl⟩ := hplace
    obtain ⟨dir', _, heq⟩ := hplace'
    exact (String.append_left_inj _).mp (List.singleton_inj.mp (List.append_inj' heq rfl).2)
  listed_of_key := by
    intro version_id p hkey hne hplace
    rw [fallible.toOption_eq_some, version_path, locate_named _ _ hkey] at hplace
    obtain ⟨dir, hdir, rfl⟩ := hplace
    refine ⟨dir, version_id ++ ".json", hdir, rfl, ?_⟩
    have hname : version_id ++ ".json" = version_id ++ "." ++ "json" := by
      rw [String.append_assoc]
      rfl
    rw [hname]
    exact filesystem.extension_name hne (by decide)

/-- What can be read of an entry. -/
def record_of (serde : Serde Graph) : Entry String → Record Graph
  | .directory => ⟨none, none⟩
  | .file data => ⟨(serde.version_from_slice data).toOption, (serde.head_from_slice data).toOption⟩

/-- The directories are those of the start, and the files of records hold the records. -/
structure Holds (serde : Serde Graph) (start s : FileFlowStore) (records : Location → Option (Record Graph)) : Prop where
  flows_dir : s.flows_dir = start.flows_dir
  versions_dir : s.versions_dir = start.versions_dir
  same : SameDirs start.disk s.disk
  records : ∀ l, Json l → records l = (s.disk.entry l).map (record_of serde)

/-- The records of a store. -/
def records (serde : Serde Graph) (s : FileFlowStore) (l : Location) : Option (Record Graph) :=
  (s.disk.entry l).map (record_of serde)

theorem holds_start (serde : Serde Graph) (start : FileFlowStore) : Holds serde start start (records serde start) :=
  ⟨rfl, rfl, .refl _, fun _ _ => rfl⟩

section Reads

variable {α : Type} {what : String} {from_slice : String → Except String α} {path : Path} {record : α}

/-- What is read from a path is decided by what stands at its location. -/
theorem get_record_of_locate {l : Location} (hlocate : s.disk.locate path = .ok l) :
    get_record what from_slice s path =
      match s.disk.entry l with
      | none => .ok none
      | some .directory => .error ("failed to read flow " ++ what ++ ": " ++ filesystem.IoError.is_a_directory.text)
      | some (.file data) =>
        match from_slice data with
        | .ok record => .ok (some record)
        | .error e => .error ("failed to deserialize flow " ++ what ++ ": " ++ e) := by
  unfold get_record FileSystem.lookup FileSystem.read
  rw [hlocate]
  cases hentry : s.disk.entry l with
  | none => simp [Except.toOption, hentry]
  | some e =>
    cases e with
    | directory => simp [Except.toOption, hentry, bind, Except.bind]
    | file data =>
      cases hread : from_slice data <;> simp [Except.toOption, hentry, bind, Except.bind, pure, Except.pure, hread]

theorem get_record_of_lost {e : filesystem.IoError} (hlocate : s.disk.locate path = .error e) :
    get_record what from_slice s path = .ok none := by
  simp [get_record, FileSystem.lookup, hlocate, Except.toOption]

theorem get_record_eq_some : get_record what from_slice s path = .ok (some record) ↔
    ∃ l data, s.disk.locate path = .ok l ∧ s.disk.entry l = some (.file data) ∧ from_slice data = .ok record := by
  cases hlocate : s.disk.locate path with
  | error e => simp [get_record_of_lost hlocate]
  | ok l =>
    rw [get_record_of_locate hlocate]
    match hentry : s.disk.entry l with
    | none => simp [hentry]
    | some .directory => simp [hentry]
    | some (.file data) => cases hread : from_slice data <;> simp [hentry, hread]

theorem get_record_eq_none : get_record what from_slice s path = .ok none ↔
    ∀ l, s.disk.locate path = .ok l → s.disk.entry l = none := by
  cases hlocate : s.disk.locate path with
  | error e => simp [get_record_of_lost hlocate]
  | ok l =>
    rw [get_record_of_locate hlocate]
    match hentry : s.disk.entry l with
    | none => simp [hentry]
    | some .directory => simp [hentry]
    | some (.file data) => cases hread : from_slice data <;> simp [hentry, hread]

end Reads

/-- What is written to a file of a record. -/
theorem put_record_spec {what : String} {data : Except String String} {p : Path} {id : String}
    (h : put_record what data s (p.join (id ++ ".json")) = .ok next) :
    ∃ text l, data = .ok text ∧ s.disk.locate (p.join (id ++ ".json")) = .ok l ∧ next.flows_dir = s.flows_dir ∧
      next.versions_dir = s.versions_dir ∧ SameDirs s.disk next.disk ∧
      ∀ m, Json m → next.disk.entry m = if m = l then some (.file text) else s.disk.entry m := by
  unfold put_record at h
  split at h
  · cases h
  · rename_i text
    obtain ⟨disk, hwrite, rfl⟩ := fallible.map_eq_ok.mp h
    obtain ⟨before, stem, hjoin, hlocate⟩ := locate_json s.disk p id
    unfold atomic_write at hwrite
    rw [hjoin, Path.with_extension_append] at hwrite
    dsimp only at hwrite
    split at hwrite
    · cases hwrite
    · rename_i middle htemp
      split at hwrite
      · cases hwrite
      · rename_i last hrename
        cases hwrite
        have hnamed : Named (filesystem.with_extension (stem ++ ".json") "json.tmp") := filesystem.named_append _ rfl (by decide)
        obtain ⟨dir, hdir, hdirs, hentry⟩ := FileSystem.replaced_spec hnamed (named_json stem) htemp hrename
        refine ⟨text, dir ++ [stem ++ ".json"], rfl, (hlocate _).mpr ⟨dir, hdir, rfl⟩, rfl, rfl, hdirs, fun m hm => ?_⟩
        refine hentry m ?_
        rintro rfl
        exact not_json_temp dir _ hm

/-- The record in a file is put. -/
theorem Holds.put_record {records : Location → Option (Record Graph)} (h : Holds serde start s records) (record : Record Graph)
    {what : String} {data : Except String String} {p : Path} {id : String}
    (hrecord : ∀ text, data = .ok text → record_of serde (.file text) = record)
    (hput : file_store.put_record what data s (p.join (id ++ ".json")) = .ok next) :
    ∃ l, start.disk.locate (p.join (id ++ ".json")) = .ok l ∧ Holds serde start next (Function.update records l (some record)) := by
  obtain ⟨text, l, hdata, hl, hflows, hversions, hdirs, hentry⟩ := put_record_spec hput
  refine ⟨l, (h.same.locate _ _).mp hl, hflows.trans h.flows_dir, hversions.trans h.versions_dir, h.same.trans hdirs, ?_⟩
  intro m hm
  rw [hentry m hm]
  by_cases hsame : m = l
  · subst hsame
    rw [if_pos rfl, Function.update_self, Option.map_some, hrecord text hdata]
  · rw [if_neg hsame, Function.update_of_ne hsame]
    exact h.records m hm

theorem Holds.shows_some {records : Location → Option (Record Graph)} (h : Holds serde start s records) {α : Type}
    {from_slice : String → Except String α} (read : Record Graph → Option α)
    (hread : ∀ data, read (record_of serde (.file data)) = (from_slice data).toOption)
    (hdirectory : read (record_of serde .directory) = none) (what : String) (p : Path) (id : String) (found : α) :
    get_record what from_slice s (p.join (id ++ ".json")) = .ok (some found) ↔
      ∃ l r, (start.disk.locate (p.join (id ++ ".json"))).toOption = some l ∧ records l = some r ∧ read r = some found := by
  rw [get_record_eq_some]
  simp only [fallible.toOption_eq_some, ← h.same.locate]
  constructor
  · rintro ⟨l, data, hl, hentry, hfound⟩
    refine ⟨l, record_of serde (.file data), hl, ?_, ?_⟩
    · rw [h.records l (json_of_locate hl), hentry, Option.map_some]
    · rw [hread, hfound]
      rfl
  · rintro ⟨l, r, hl, hr, hfound⟩
    rw [h.records l (json_of_locate hl)] at hr
    obtain ⟨e, hentry, rfl⟩ := Option.map_eq_some_iff.mp hr
    cases e with
    | directory =>
      rw [hdirectory] at hfound
      cases hfound
    | file data =>
      rw [hread, fallible.toOption_eq_some] at hfound
      exact ⟨l, data, hl, hentry, hfound⟩

theorem Holds.shows_none {records : Location → Option (Record Graph)} (h : Holds serde start s records) {α : Type}
    (from_slice : String → Except String α) (what : String) (p : Path) (id : String) :
    get_record what from_slice s (p.join (id ++ ".json")) = .ok none ↔
      ∀ l, (start.disk.locate (p.join (id ++ ".json"))).toOption = some l → records l = none := by
  rw [get_record_eq_none]
  refine forall_congr' fun l => ?_
  rw [fallible.toOption_eq_some, ← h.same.locate]
  refine imp_congr_right fun hl => ?_
  rw [h.records l (json_of_locate hl), Option.map_eq_none_iff]

/-- The entries of the directory of versions, of which those with the extension are files. -/
def Listable (s : FileFlowStore) : Prop :=
  ∃ entries, s.disk.read_dir s.versions_dir = .ok entries ∧
    ∀ entry ∈ entries, extension entry.1 = some "json" → entry.2 ≠ .directory

theorem Holds.listable {records : Location → Option (Record Graph)} (h : Holds serde start s records)
    (hstart : Listable start) : Listable s := by
  obtain ⟨entries, hread, hfiles⟩ := hstart
  obtain ⟨dir, hdir, rfl⟩ := fallible.map_eq_ok.mp hread
  refine ⟨s.disk.children dir, ?_, ?_⟩
  · rw [FileSystem.read_dir, fallible.map_eq_ok]
    rw [h.versions_dir]
    exact ⟨dir, (h.same.directory_at _ _).mpr hdir, rfl⟩
  · rintro ⟨name, e⟩ hmem hextension rfl
    rw [FileSystem.mem_children, h.same.directory, ← FileSystem.mem_children] at hmem
    exact hfiles _ hmem hextension rfl

theorem listed_version_eq (serde : Serde Graph) (flow_id : String) {entry : String × Entry String}
    (hfile : extension entry.1 = some "json" → entry.2 ≠ .directory) : ∃ found, listed_version serde flow_id entry = .ok found ∧
      ∀ version, found = some version ↔ extension entry.1 = some "json" ∧
        (record_of serde entry.2).version = some version ∧ version.flow_id = flow_id := by
  obtain ⟨name, e⟩ := entry
  unfold listed_version
  by_cases hextension : extension name = some "json"
  · rw [if_neg (not_not.mpr hextension)]
    cases e with
    | directory => exact absurd rfl (hfile hextension)
    | file data =>
      refine ⟨_, rfl, fun version => ?_⟩
      rw [Option.filter_eq_some_iff, decide_eq_true_eq]
      simp [hextension, record_of]
  · rw [if_pos hextension]
    exact ⟨none, rfl, fun version => by simp [hextension]⟩

/-- What is listed are the versions in the directory. -/
theorem Holds.lists {records : Location → Option (Record Graph)} (h : Holds serde start s records) (hstart : Listable start)
    (flow_id : String) : ∃ limit versions, list_versions serde s flow_id limit 0 = .ok versions ∧ ∀ version,
      version ∈ versions ↔
        (∃ p r, (layout start).listed p ∧ records p = some r ∧ r.version = some version) ∧ version.flow_id = flow_id := by
  obtain ⟨entries, hread, hfiles⟩ := h.listable hstart
  have hread' := hread
  obtain ⟨dir, hdir, rfl⟩ := fallible.map_eq_ok.mp hread'
  rw [h.versions_dir, h.same.directory_at] at hdir
  obtain ⟨found, hfound⟩ := fallible.exists_forall₂ fun entry hentry =>
    (listed_version_eq serde flow_id (hfiles entry hentry)).imp fun _ heq => heq.1
  refine ⟨(found.filterMap id).length, (found.filterMap id).insertionSort fun a b =>
    newest_first (a.created_at, a.version_id) (b.created_at, b.version_id), ?_, fun version => ?_⟩
  · rw [list_versions, hread, Except.mapError, fallible.bind_eq_ok]
    refine ⟨_, rfl, fallible.bind_eq_ok.mpr ⟨found, fallible.mapM_eq_ok_iff.mpr hfound, congrArg Except.ok ?_⟩⟩
    rw [List.drop_zero]
    exact List.take_of_length_le (List.length_insertionSort _ _).le
  · have hlisted : version ∈ found.filterMap id ↔
        ∃ name e, s.disk.entry (dir ++ [name]) = some e ∧ listed_version serde flow_id (name, e) = .ok (some version) := by
      rw [List.mem_filterMap]
      constructor
      · rintro ⟨_, hmem, rfl⟩
        obtain ⟨⟨name, e⟩, hentry, heq⟩ := fallible.mem_forall₂ hfound hmem
        exact ⟨name, e, FileSystem.mem_children.mp hentry, heq⟩
      · rintro ⟨name, e, hentry, heq⟩
        obtain ⟨_, hmem, heq'⟩ := fallible.mem_forall₂ hfound.flip (FileSystem.mem_children.mpr hentry)
        exact ⟨_, hmem, Except.ok.inj (heq'.symm.trans heq)⟩
    rw [List.mem_insertionSort, hlisted]
    constructor
    · rintro ⟨name, e, hentry, heq⟩
      obtain ⟨_, heq', hiff⟩ := listed_version_eq serde flow_id
        (hfiles (name, e) (FileSystem.mem_children.mpr hentry))
      obtain ⟨hextension, hversion, hflow⟩ := (hiff version).mp (Except.ok.inj (heq'.symm.trans heq))
      refine ⟨⟨dir ++ [name], record_of serde e, ⟨dir, name, hdir, rfl, hextension⟩, ?_, hversion⟩, hflow⟩
      rw [h.records _ (json_of_extension dir hextension), hentry, Option.map_some]
    · rintro ⟨⟨p, r, ⟨dir', name, hdir', rfl, hextension⟩, hr, hversion⟩, hflow⟩
      cases hdir.symm.trans hdir'
      rw [h.records _ (json_of_extension dir hextension)] at hr
      obtain ⟨e, hentry, rfl⟩ := Option.map_eq_some_iff.mp hr
      obtain ⟨_, heq, hiff⟩ := listed_version_eq serde flow_id
        (hfiles (name, e) (FileSystem.mem_children.mpr hentry))
      refine ⟨name, e, hentry, heq.trans (congrArg Except.ok ?_)⟩
      exact (hiff version).mpr ⟨hextension, hversion, hflow⟩

/-- The store keeps its records in files. -/
theorem implements (hstart : Listable start) : (flow_store serde).Implements serde (layout start) (Holds serde start) := by
  constructor
  · intro s next records version h htrips hput
    obtain ⟨data, hdata, hfrom, e, hnone⟩ := htrips.text
    obtain ⟨p, hp, hnext⟩ := h.put_record (.of_version version) (fun text htext => by
      cases hdata.symm.trans htext
      rw [record_of, hfrom, hnone]
      rfl) hput
    rw [h.versions_dir] at hp
    exact ⟨p, fallible.toOption_eq_some.mpr hp, .inl hnext⟩
  · intro s next records head h htrips hput
    obtain ⟨data, hdata, hfrom, e, hnone⟩ := htrips
    obtain ⟨p, hp, hnext⟩ := h.put_record (.of_head head) (fun text htext => by
      cases hdata.symm.trans htext
      rw [record_of, hfrom, hnone]
      rfl) hput
    rw [h.flows_dir] at hp
    exact ⟨p, fallible.toOption_eq_some.mpr hp, hnext⟩
  · intro s records h
    refine ⟨fun version_id version => ?_, fun version_id => ?_, fun flow_id head => ?_, h.lists hstart⟩
    · simp only [flow_store, get_version, version_path, h.versions_dir]
      exact h.shows_some Record.version (fun _ => rfl) rfl _ _ _ _
    · simp only [flow_store, get_version, version_path, h.versions_dir]
      exact h.shows_none _ _ _ _
    · simp only [flow_store, get_head, head_path, h.flows_dir]
      exact h.shows_some Record.head (fun _ => rfl) rfl _ _ _ _

end file_store

namespace seaorm

variable {serde : Serde Graph} {s next : SeaOrmFlowStore} {records : String ⊕ String → Option (Record Graph)}

/-- The rows of the two tables. -/
def layout : Layout (String ⊕ String) where
  version_place version_id := some (.inl version_id)
  head_place flow_id := some (.inr flow_id)
  key _ := True
  listed p := ∃ version_id, p = .inl version_id
  version_place_inj := by
    intro version_id other p _ _ hplace hplace'
    exact Sum.inl.inj (Option.some.inj (hplace.trans hplace'.symm))
  listed_of_key := by
    intro version_id p _ _ hplace
    exact ⟨version_id, (Option.some.inj hplace).symm⟩

/-- The rows hold the records, and each version can be decoded. -/
structure Holds (serde : Serde Graph) (s : SeaOrmFlowStore) (records : String ⊕ String → Option (Record Graph)) : Prop where
  decodes : ∀ (version_id : String) model, s.flow_version[version_id]? = some model →
    ∃ version, model_to_version serde model = .ok version
  versions : ∀ version_id, records (.inl version_id) =
    s.flow_version[version_id]?.map fun model => ⟨(model_to_version serde model).toOption, none⟩
  heads : ∀ flow_id, records (.inr flow_id) = s.flow_head[flow_id]?.map .of_head

theorem holds_new (serde : Serde Graph) : Holds serde new fun _ => none :=
  ⟨fun _ _ h => (by cases h), fun _ => rfl, fun _ => rfl⟩

/-- The row of a version. -/
def to_model (version : FlowVersion Graph) (graph : Value) : FlowVersionModel :=
  ⟨version.version_id, version.flow_id, graph, version.created_at, version.created_by, version.message⟩

/-- A row is inserted unless there is one. -/
theorem put_version_row {version : FlowVersion Graph} {graph : Value} (hto : serde.graph_to_value version.graph = .ok graph)
    (hput : put_version serde s version = .ok next) : next.flow_head = s.flow_head ∧ ∀ version_id : String,
      next.flow_version[version_id]? =
        if version_id = version.version_id ∧ version.version_id ∉ s.flow_version then some (to_model version graph)
        else s.flow_version[version_id]? := by
  rw [put_version, hto] at hput
  cases hput
  refine ⟨rfl, fun version_id => ?_⟩
  rw [Std.TreeMap.getElem?_insertIfNew]
  simp only [Std.LawfulEqCmp.compare_eq_iff_eq, @eq_comm _ version_id]
  rfl

theorem Holds.put_version (h : Holds serde s records) {version : FlowVersion Graph} (htrips : serde.VersionTrips version)
    (hput : seaorm.put_version serde s version = .ok next) :
    Holds serde next (Function.update records (.inl version.version_id) (some (.of_version version))) ∨
      (∃ r, records (.inl version.version_id) = some r ∧ r.version.isSome) ∧ Holds serde next records := by
  obtain ⟨graph, hto, hfrom⟩ := htrips.value
  have hmodel : model_to_version serde (to_model version graph) = .ok version := by
    rw [model_to_version, to_model, hfrom]
    rfl
  obtain ⟨hheads, hrow⟩ := put_version_row hto hput
  by_cases hold : version.version_id ∈ s.flow_version
  · -- The row that is there stays.
    have hsame : ∀ version_id : String, next.flow_version[version_id]? = s.flow_version[version_id]? :=
      fun version_id => (hrow version_id).trans (if_neg fun h => h.2 hold)
    obtain ⟨model, hmodel⟩ : ∃ model, s.flow_version[version.version_id]? = some model :=
      Option.isSome_iff_exists.mp (by rwa [← Std.TreeMap.mem_iff_isSome_getElem?])
    obtain ⟨old, hold⟩ := h.decodes _ _ hmodel
    refine .inr ⟨⟨⟨some old, none⟩, ?_, rfl⟩, ?_, ?_, fun flow_id => hheads ▸ h.heads flow_id⟩
    · rw [h.versions, hmodel, Option.map_some, hold]
      rfl
    · intro version_id model
      rw [hsame]
      exact h.decodes version_id model
    · intro version_id
      rw [hsame]
      exact h.versions version_id
  · refine .inl ⟨fun version_id model hfound => ?_, fun version_id => ?_, fun flow_id => ?_⟩
    · rw [hrow] at hfound
      split at hfound
      · cases hfound
        exact ⟨version, hmodel⟩
      · exact h.decodes version_id model hfound
    · rw [hrow]
      by_cases hsame : version_id = version.version_id
      · rw [if_pos ⟨hsame, hold⟩, hsame, Function.update_self, Option.map_some, hmodel]
        rfl
      · rw [if_neg fun h => hsame h.1, Function.update_of_ne fun heq => hsame (Sum.inl.inj heq)]
        exact h.versions version_id
    · rw [Function.update_of_ne (by simp), hheads]
      exact h.heads flow_id

theorem Holds.put_head (h : Holds serde s records) (head : FlowHead) :
    Holds serde (seaorm.put_head s head) (Function.update records (.inr head.flow_id) (some (.of_head head))) := by
  refine ⟨h.decodes, fun version_id => ?_, fun flow_id => ?_⟩
  · rw [Function.update_of_ne (by simp)]
    exact h.versions version_id
  · rw [seaorm.put_head, Std.TreeMap.getElem?_insert]
    by_cases hsame : flow_id = head.flow_id
    · rw [if_pos (Std.LawfulEqCmp.compare_eq_iff_eq.mpr hsame.symm), hsame, Function.update_self]
      rfl
    · rw [if_neg fun heq => hsame (Std.LawfulEqCmp.eq_of_compare heq).symm,
        Function.update_of_ne fun heq => hsame (Sum.inr.inj heq)]
      exact h.heads flow_id

theorem Holds.get_version (h : Holds serde s records) (version_id : String) :
    seaorm.get_version serde s version_id = .ok ((records (.inl version_id)).bind Record.version) := by
  rw [seaorm.get_version, h.versions]
  cases hrow : s.flow_version[version_id]? with
  | none => rfl
  | some model =>
    obtain ⟨version, hversion⟩ := h.decodes _ _ hrow
    simp [hversion, Except.map, Except.toOption]

theorem model_flow_id {model : FlowVersionModel} {version : FlowVersion Graph}
    (h : model_to_version serde model = .ok version) : version.flow_id = model.flow_id := by
  obtain ⟨graph, _, hversion⟩ := fallible.bind_eq_ok.mp h
  cases hversion
  rfl

/-- What is listed are the versions of the rows. -/
theorem Holds.lists (h : Holds serde s records) (flow_id : String) :
    ∃ limit versions, list_versions serde s flow_id limit 0 = .ok versions ∧ ∀ version, version ∈ versions ↔
      (∃ p r, layout.listed p ∧ records p = some r ∧ r.version = some version) ∧ version.flow_id = flow_id := by
  let models := ((s.flow_version.toList.map Prod.snd).filter fun model => model.flow_id = flow_id).insertionSort fun a b =>
    newest_first (a.created_at, a.version_id) (b.created_at, b.version_id)
  have hmem : ∀ model, model ∈ models ↔
      (∃ version_id : String, s.flow_version[version_id]? = some model) ∧ model.flow_id = flow_id := by
    intro model
    simp only [models, List.mem_insertionSort, List.mem_filter, List.mem_map, Prod.exists, exists_eq_right,
      Std.TreeMap.mem_toList_iff_getElem?_eq_some, decide_eq_true_eq]
  obtain ⟨versions, hversions⟩ := fallible.exists_forall₂ fun model hmodel => by
    obtain ⟨⟨version_id, hrow⟩, _⟩ := (hmem model).mp hmodel
    exact h.decodes version_id model hrow
  refine ⟨models.length, versions, ?_, fun version => ?_⟩
  · rw [list_versions, List.drop_zero]
    exact (congrArg _ (List.take_of_length_le le_rfl)).trans (fallible.mapM_eq_ok_iff.mpr hversions)
  · constructor
    · intro hversion
      obtain ⟨model, hmodel, hfound⟩ := fallible.mem_forall₂ hversions hversion
      obtain ⟨⟨version_id, hrow⟩, hflow⟩ := (hmem model).mp hmodel
      refine ⟨⟨.inl version_id, ⟨(model_to_version serde model).toOption, none⟩, ⟨version_id, rfl⟩,
        (h.versions version_id).trans ?_, fallible.toOption_eq_some.mpr hfound⟩, (model_flow_id hfound).trans hflow⟩
      rw [hrow, Option.map_some]
    · rintro ⟨⟨_, r, ⟨version_id, rfl⟩, hr, hversion⟩, hflow⟩
      rw [h.versions] at hr
      obtain ⟨model, hrow, rfl⟩ := Option.map_eq_some_iff.mp hr
      have hfound := fallible.toOption_eq_some.mp hversion
      have hmodel := (hmem model).mpr ⟨⟨version_id, hrow⟩, (model_flow_id hfound).symm.trans hflow⟩
      obtain ⟨found, hin, hfound'⟩ := fallible.mem_forall₂ hversions.flip hmodel
      cases hfound'.symm.trans hfound
      exact hin

/-- The store keeps its records in rows. -/
theorem implements (serde : Serde Graph) : (flow_store serde).Implements serde layout (Holds serde) := by
  constructor
  · intro s next records version h htrips hput
    exact ⟨_, rfl, h.put_version htrips hput⟩
  · intro s next records head h _ hput
    cases hput
    exact ⟨_, rfl, h.put_head head⟩
  · intro s records h
    refine ⟨fun version_id version => ?_, fun version_id => ?_, fun flow_id head => ?_, h.lists⟩
    · simp [flow_store, h.get_version, layout, Option.bind_eq_some_iff]
    · simp only [flow_store, h.get_version, h.versions, layout]
      cases hrow : s.flow_version[version_id]? with
      | none => simp [h.versions, hrow]
      | some model =>
        obtain ⟨version, hversion⟩ := h.decodes _ _ hrow
        simp [h.versions, hrow, hversion, Except.toOption]
    · simp only [flow_store, layout]
      cases hrow : s.flow_head[flow_id]? with
      | none => simp [h.heads, hrow]
      | some found => simp [h.heads, hrow, Record.of_head]

end seaorm

namespace Backend

/-- Where a store keeps a record. -/
abbrev Place : Backend → Type
  | .file => Location
  | .database => String ⊕ String

instance (backend : Backend) : DecidableEq backend.Place :=
  match backend with
  | .file => inferInstanceAs (DecidableEq Location)
  | .database => inferInstanceAs (DecidableEq (String ⊕ String))

def layout : (backend : Backend) → backend.State → Layout backend.Place
  | .file => file_store.layout
  | .database => fun _ => seaorm.layout

/-- A store to which nothing has been saved. -/
def Fresh (serde : Serde Graph) : (backend : Backend) → backend.State → Prop
  | .file => fun s => file_store.Listable s ∧
    (∀ version_id version, file_store.get_version serde s version_id ≠ .ok (some version)) ∧
      ∀ flow_id head, file_store.get_head serde s flow_id ≠ .ok (some head)
  | .database => fun s => s = seaorm.new

/-- What a store holds that was fresh at the start. -/
def Holds (serde : Serde Graph) : (backend : Backend) → backend.State → backend.State →
    (backend.Place → Option (Record Graph)) → Prop
  | .file => file_store.Holds serde
  | .database => fun _ => seaorm.Holds serde

theorem implements (serde : Serde Graph) (backend : Backend) {start : backend.State} (hfresh : backend.Fresh serde start) :
    (backend.flow_store serde).Implements serde (backend.layout start) (backend.Holds serde start) := by
  cases backend with
  | file => exact file_store.implements hfresh.1
  | database => exact seaorm.implements serde

/-- A fresh store has no versions and no heads. -/
theorem Fresh.holds {serde : Serde Graph} {backend : Backend} {start : backend.State} (hfresh : backend.Fresh serde start) :
    (∃ records, backend.Holds serde start start records) ∧
      (∀ version_id version, (backend.flow_store serde).get_version start version_id ≠ .ok (some version)) ∧
        ∀ flow_id head, (backend.flow_store serde).get_head start flow_id ≠ .ok (some head) := by
  cases backend with
  | file => exact ⟨⟨_, file_store.holds_start serde start⟩, hfresh.2⟩
  | database =>
    cases hfresh
    exact ⟨⟨_, seaorm.holds_new serde⟩, fun _ _ h => (by cases h), fun _ _ h => (by cases h)⟩

end Backend

end flow_engine.versioning
