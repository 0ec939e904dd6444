import FlowEngine.Stores.Tags
import Mathlib.Data.List.Induction
import Mathlib.Data.List.Perm.Basic

namespace flow_engine.flow_tags

open filesystem (Entry FileSystem IoError Location Named Path extension)

/-- A flow has one tag of a name at most, and each tag has a name. -/
structure Valid (tags : List FlowTag) : Prop where
  keys : (tags.map FlowTag.key).Nodup
  named : ∀ t ∈ tags, t.tag ≠ ""

theorem valid_nil : Valid [] := ⟨List.nodup_nil, fun _ h => by cases h⟩

section Valid

variable {tags : List FlowTag} {key : String × String} {t : FlowTag}

theorem mem_without : t ∈ without tags key ↔ t ∈ tags ∧ t.key ≠ key := by
  rw [without, List.mem_filter, decide_eq_true_eq]

theorem Valid.remove (h : Valid tags) : Valid (without tags key) :=
  ⟨h.keys.sublist (List.filter_sublist.map _), fun t ht => h.named t (mem_without.mp ht).1⟩

theorem Valid.put (h : Valid tags) (ht : t.tag ≠ "") : Valid (without tags t.key ++ [t]) := by
  refine ⟨?_, ?_⟩
  · rw [List.map_append, List.map_singleton]
    refine List.Nodup.append h.remove.keys (List.nodup_singleton _) ?_
    rintro _ hkey hself
    rw [List.mem_singleton] at hself
    obtain ⟨other, hother, rfl⟩ := List.mem_map.mp hkey
    exact (mem_without.mp hother).2 hself
  · rw [List.forall_mem_append]
    exact ⟨h.remove.named, by simpa using ht⟩

theorem Valid.nodup (h : Valid tags) : tags.Nodup := h.keys.of_map _

theorem Valid.eq_of_key (h : Valid tags) {other : FlowTag} (ht : t ∈ tags) (hother : other ∈ tags) (hkey : t.key = other.key) :
    t = other := List.inj_on_of_nodup_map h.keys ht hother hkey

theorem Valid.find?_eq_some (h : Valid tags) : tags.find? (fun t => t.key = key) = some t ↔ t ∈ tags ∧ t.key = key := by
  constructor
  · intro hfind
    exact ⟨List.mem_of_find?_eq_some hfind, by simpa using List.find?_some hfind⟩
  · rintro ⟨hmem, rfl⟩
    cases hfind : tags.find? (fun other => other.key = t.key) with
    | none => simpa using List.find?_eq_none.mp hfind t hmem
    | some other =>
      have hother : other.key = t.key := by simpa using List.find?_some hfind
      rw [h.eq_of_key (List.mem_of_find?_eq_some hfind) hmem hother]

theorem Valid.find?_perm (h : Valid tags) {rows : List FlowTag} (hperm : rows.Perm tags) :
    rows.find? (fun t => t.key = key) = tags.find? fun t => t.key = key := by
  have hrows : Valid rows := ⟨(hperm.map _).nodup_iff.mpr h.keys, fun t ht => h.named t (hperm.mem_iff.mp ht)⟩
  ext t
  rw [hrows.find?_eq_some, h.find?_eq_some, hperm.mem_iff]

/-- Within a flow the name tells a tag. -/
theorem Valid.tag_injOn (h : Valid tags) {rows : List FlowTag} {flow_id : String}
    (hrows : ∀ t ∈ rows, t ∈ tags ∧ t.flow_id = flow_id) : Set.InjOn FlowTag.tag { t | t ∈ rows } := by
  intro t ht other hother htag
  obtain ⟨hmem, hflow⟩ := hrows t ht
  obtain ⟨hmem', hflow'⟩ := hrows other hother
  exact h.eq_of_key hmem hmem' (Prod.ext (hflow.trans hflow'.symm) htag)

end Valid

/-- A store that keeps the tags as `Holds` says. -/
structure Implements {State Fault : Type} (store : TagStore State Fault) (Holds : State → List FlowTag → Prop) : Prop where
  set_tag : ∀ {s tags fault flow_id tag version_id now}, Holds s tags → Valid tags → PathComponent flow_id → PathComponent tag →
    Holds (store.set_tag fault s flow_id tag version_id now).1
      (effect store s tags (.set_tag fault flow_id tag version_id now))
  delete_tag : ∀ {s tags fault flow_id tag}, Holds s tags → Valid tags → PathComponent flow_id → PathComponent tag →
    Holds (store.delete_tag fault s flow_id tag).1 (effect store s tags (.delete_tag fault flow_id tag))
  answers : ∀ {s tags}, Holds s tags → Valid tags → Answers store s tags

section Runs

variable {State Fault : Type} {store : TagStore State Fault} {Holds : State → List FlowTag → Prop}

theorem Valid.after {tags : List FlowTag} (h : Valid tags) (s : State) {action : TagAction Fault} (haction : action.Proper) :
    Valid (effect store s tags action) := by
  cases action with
  | set_tag fault flow_id tag version_id now =>
    rw [effect]
    split
    · exact @Valid.put tags ⟨flow_id, tag, version_id, now⟩ h haction.2.1
    · exact h
  | delete_tag fault flow_id tag =>
    rw [effect]
    split
    · exact h.remove
    · exact h

/-- Whatever calls fail, a store that keeps the tags of one has those of the successful calls. -/
theorem Implements.called (h : Implements store Holds) {start : State} (hstart : Holds start [])
    {actions : List (TagAction Fault)} (hactions : ∀ action ∈ actions, action.Proper) :
    Holds (called store start actions).1 (called store start actions).2 ∧ Valid (called store start actions).2 := by
  induction actions using List.reverseRecOn with
  | nil => exact ⟨hstart, valid_nil⟩
  | append_singleton actions action ih =>
    obtain ⟨hholds, hvalid⟩ := ih fun other hother => hactions other (List.mem_append_left _ hother)
    have haction := hactions action (List.mem_append_right _ List.mem_cons_self)
    rw [flow_tags.called, List.foldl_append]
    refine ⟨?_, hvalid.after _ haction⟩
    cases action with
    | set_tag fault flow_id tag version_id now => exact h.set_tag hholds hvalid haction.1 haction.2
    | delete_tag fault flow_id tag => exact h.delete_tag hholds hvalid haction.1 haction.2

end Runs

namespace seaorm

/-- The rows are the tags, in some order. -/
def Holds (s : SeaOrmTagStore) (tags : List FlowTag) : Prop := s.flow_tag.Perm tags

theorem perm_without {rows : List FlowTag} (h : Valid rows) {m : FlowTag} (hm : m ∈ rows) :
    rows.Perm (m :: without rows m.key) := by
  have hnodup : (m :: without rows m.key).Nodup :=
    List.nodup_cons.mpr ⟨fun hmem => (mem_without.mp hmem).2 rfl, h.remove.nodup⟩
  refine (List.perm_ext_iff_of_nodup h.nodup hnodup).mpr fun t => ?_
  rw [List.mem_cons, mem_without]
  refine ⟨fun ht => ?_, fun ht => ht.elim (fun heq => heq ▸ hm) And.left⟩
  by_cases hkey : t.key = m.key
  · exact .inl (h.eq_of_key ht hm hkey)
  · exact .inr ⟨ht, hkey⟩

theorem holds_set_tag {s : SeaOrmTagStore} {tags : List FlowTag} (hholds : Holds s tags) (hvalid : Valid tags)
    (flow_id tag version_id : String) (now : Int) :
    Holds (set_tag none s flow_id tag version_id now).1 (without tags (flow_id, tag) ++ [⟨flow_id, tag, version_id, now⟩]) := by
  have hrows : Valid s.flow_tag := ⟨(hholds.map _).nodup_iff.mpr hvalid.keys, fun t ht => hvalid.named t (hholds.mem_iff.mp ht)⟩
  have hwithout : (without s.flow_tag (flow_id, tag)).Perm (without tags (flow_id, tag)) := hholds.filter _
  rw [set_tag]
  split
  · rename_i hany
    obtain ⟨m, hm, hkey⟩ := List.any_eq_true.mp hany
    rw [decide_eq_true_eq] at hkey
    refine ((perm_without hrows hm).map _).trans ?_
    rw [List.map_cons, if_pos hkey, hkey]
    have hothers : (without s.flow_tag (flow_id, tag)).map (fun m => if m.key = (flow_id, tag) then
        { m with version_id, updated_at := now } else m) = without s.flow_tag (flow_id, tag) :=
      (List.map_congr_left fun t ht => if_neg (mem_without.mp ht).2).trans (List.map_id _)
    obtain ⟨hflow, htag⟩ := Prod.mk.inj hkey
    rw [hothers, hflow, htag]
    exact (hwithout.cons _).trans (List.perm_append_singleton _ _).symm
  · rename_i hany
    have hsame : without s.flow_tag (flow_id, tag) = s.flow_tag := by
      refine List.filter_eq_self.mpr fun t ht => ?_
      rw [decide_eq_true_eq]
      intro hkey
      exact hany (List.any_eq_true.mpr ⟨t, ht, decide_eq_true hkey⟩)
    rw [hsame] at hwithout
    exact hwithout.append_right _

theorem implements : Implements tag_store Holds where
  set_tag := by
    intro s tags fault flow_id tag version_id now hholds hvalid _ _
    cases fault with
    | some fault => exact hholds
    | none =>
      have hok : (tag_store.set_tag none s flow_id tag version_id now).2 = .ok () := by
        change (set_tag none s flow_id tag version_id now).2 = .ok ()
        rw [set_tag]
        split <;> rfl
      rw [effect, hok]
      exact holds_set_tag hholds hvalid flow_id tag version_id now
  delete_tag := by
    intro s tags fault flow_id tag hholds _ _ _
    cases fault with
    | some fault => exact hholds
    | none => exact hholds.filter _
  answers := by
    intro s tags hholds hvalid
    refine ⟨fun flow_id tag _ _ => ?_, fun flow_id _ => ?_, fun version_id => ?_, fun fault flow_id tag existed _ _ hdelete => ?_⟩
    · exact congrArg (fun found => Except.ok (found.map FlowTag.version_id)) (hvalid.find?_perm hholds)
    · have hrows : ∀ t ∈ s.flow_tag.filter (fun m => m.flow_id = flow_id), t ∈ tags ∧ t.flow_id = flow_id := by
        intro t ht
        obtain ⟨hmem, hflow⟩ := List.mem_filter.mp ht
        exact ⟨hholds.mem_iff.mp hmem, of_decide_eq_true hflow⟩
      exact congrArg Except.ok (keyed.sort_by_key_congr (hholds.filter _) (hvalid.tag_injOn hrows))
    · refine congrArg Except.ok ((keyed.map_sort_by_key _ _).trans ?_)
      exact keyed.sort_by_key_congr ((hholds.filter _).map _) Function.injective_id.injOn
    · cases fault with
      | some fault => cases hdelete
      | none =>
        cases hdelete
        rw [Bool.eq_iff_iff, decide_eq_true_eq, List.countP_pos_iff, List.any_eq_true]
        exact exists_congr fun t => and_congr_left fun _ => hholds.mem_iff

end seaorm

namespace file_store

section Names

theorem extension_tag {tag : String} (htag : tag ≠ "") : extension (tag ++ ".json") = some "json" := by
  have hname : tag ++ ".json" = tag ++ "." ++ "json" := by
    rw [String.append_assoc]
    rfl
  rw [hname]
  exact filesystem.extension_name htag (by decide)

/-- A name with that extension is the name of a tag. -/
theorem tag_of_extension {name : String} (h : extension name = some "json") : ∃ tag, tag ≠ "" ∧ name = tag ++ ".json" := by
  obtain ⟨tag, htag, rfl⟩ := filesystem.name_of_extension h
  exact ⟨tag, htag, String.append_assoc⟩

theorem named_tag (tag : String) : Named (tag ++ ".json") := filesystem.named_append tag rfl (by decide)

theorem named_temp (name : String) : Named (filesystem.with_extension name "json.tmp") :=
  filesystem.named_append _ rfl (by decide)

/-- The temporary file of a tag is the file of none. -/
theorem temp_ne_tag (name tag : String) : tag ++ ".json" ≠ filesystem.with_extension name "json.tmp" :=
  filesystem.append_ne_of_getLast? (c := 'n') (d := 'p') rfl rfl (by decide)

theorem named_of_component {name : String} (h : PathComponent name) : Named name := ⟨h.1, h.2.1, h.2.2.1⟩

theorem flow_dir_eq (s : FileTagStore) {flow_id : String} (h : PathComponent flow_id) : flow_dir s flow_id = s.tags_dir ++ [flow_id] :=
  s.tags_dir.join_of_single h.2.2.2

theorem tag_path_eq (s : FileTagStore) {flow_id tag : String} (hflow : PathComponent flow_id) (htag : PathComponent tag) :
    tag_path s flow_id tag = s.tags_dir ++ [flow_id] ++ [tag ++ ".json"] := by
  have hslash : '/' ∉ (tag ++ ".json").toList := by
    rw [String.toList_append, List.mem_append, not_or]
    exact ⟨htag.2.2.2, by decide⟩
  rw [tag_path, flow_dir_eq s hflow, Path.join_of_single _ hslash]

end Names

/-- Below the directory of tags are the directories of flows, with files in them. -/
structure Tree (tags_dir : Path) (root : Location) (disk : FileSystem String) : Prop where
  located : disk.directory_at tags_dir = .ok root
  flows : ∀ flow_id e, disk.entry (root ++ [flow_id]) = some e → PathComponent flow_id ∧ e = .directory
  files : ∀ flow_id name e, disk.entry (root ++ [flow_id] ++ [name]) = some e →
    disk.entry (root ++ [flow_id]) = some .directory ∧ e ≠ .directory

/-- What is in a file of a flow. -/
def file (root : Location) (disk : FileSystem String) (flow_id name : String) : Option String :=
  (disk.entry (root ++ [flow_id] ++ [name])).bind Entry.data?

/-- The place of a file tells its flow and its name. -/
theorem place_inj {root : Location} {flow_id other name name' : String} :
    (root ++ [other] ++ [name'] : Location) = root ++ [flow_id] ++ [name] ↔ other = flow_id ∧ name' = name := by
  simp

section Tree

variable {tags_dir : Path} {root : Location} {disk next : FileSystem String} {flow_id name : String}

theorem file_eq_some {data : String} :
    file root disk flow_id name = some data ↔ disk.entry (root ++ [flow_id] ++ [name]) = some (.file data) := by
  rw [file, Option.bind_eq_some_iff]
  constructor
  · rintro ⟨e, hentry, hdata⟩
    cases e with
    | directory => cases hdata
    | file other =>
      cases hdata
      exact hentry
  · exact fun hentry => ⟨_, hentry, rfl⟩

theorem Tree.entry (h : Tree tags_dir root disk) (flow_id name : String) :
    disk.entry (root ++ [flow_id] ++ [name]) = (file root disk flow_id name).map Entry.file := by
  cases hentry : disk.entry (root ++ [flow_id] ++ [name]) with
  | none => rw [file, hentry]; rfl
  | some e =>
    cases e with
    | directory => exact absurd rfl (h.files flow_id name _ hentry).2
    | file data => rw [file, hentry]; rfl

theorem Tree.locate (h : Tree tags_dir root disk) (hflow : PathComponent flow_id) (hname : Named name) {l : Location} :
    disk.locate (tags_dir ++ [flow_id] ++ [name]) = .ok l ↔
      disk.entry (root ++ [flow_id]) = some .directory ∧ l = root ++ [flow_id] ++ [name] := by
  rw [FileSystem.locate_eq_ok hname]
  constructor
  · rintro ⟨dir, hdir, rfl⟩
    obtain ⟨top, htop, rfl, hentry⟩ := FileSystem.directory_at_append.mp hdir
    cases h.located.symm.trans htop
    rw [(named_of_component hflow).toward] at hentry ⊢
    exact ⟨hentry, rfl⟩
  · rintro ⟨hentry, rfl⟩
    refine ⟨root ++ [flow_id], FileSystem.directory_at_append.mpr ⟨root, h.located, ?_⟩, rfl⟩
    rw [(named_of_component hflow).toward]
    exact ⟨rfl, hentry⟩

/-- What can be seen of a file. -/
theorem Tree.lookup (h : Tree tags_dir root disk) (hflow : PathComponent flow_id) (hname : Named name) :
    disk.lookup (tags_dir ++ [flow_id] ++ [name]) = (file root disk flow_id name).map Entry.file := by
  rw [← h.entry, FileSystem.lookup]
  by_cases hdir : disk.entry (root ++ [flow_id]) = some .directory
  · rw [(h.locate hflow hname).mpr ⟨hdir, rfl⟩]
    rfl
  · have hnone : disk.entry (root ++ [flow_id] ++ [name]) = none := by
      rw [Option.eq_none_iff_forall_ne_some]
      exact fun e hentry => hdir (h.files flow_id name e hentry).1
    have hlost : (disk.locate (tags_dir ++ [flow_id] ++ [name])).toOption = none := by
      rw [Option.eq_none_iff_forall_ne_some]
      exact fun l hl => hdir ((h.locate hflow hname).mp (fallible.toOption_eq_some.mp hl)).1
    rw [hnone, hlost]
    rfl

theorem Tree.read (h : Tree tags_dir root disk) (hflow : PathComponent flow_id) (hname : Named name) {data : String}
    (hfile : file root disk flow_id name = some data) : disk.read (tags_dir ++ [flow_id] ++ [name]) = .ok data := by
  have hentry := file_eq_some.mp hfile
  rw [FileSystem.read, (h.locate hflow hname).mpr ⟨(h.files _ _ _ hentry).1, rfl⟩]
  simp only [bind, Except.bind, hentry]
  rfl

/-- What is done to the files of a flow leaves the directories. -/
theorem Tree.of_files (h : Tree tags_dir root disk) (hdir : disk.entry (root ++ [flow_id]) = some .directory)
    (hentry : ∀ l, next.entry l = disk.entry l ∨ (∃ name, l = root ++ [flow_id] ++ [name]) ∧ next.entry l ≠ some .directory) :
    Tree tags_dir root next ∧ next.entry (root ++ [flow_id]) = some .directory := by
  have hflow : ∀ other, next.entry (root ++ [other]) = disk.entry (root ++ [other]) := by
    intro other
    refine (hentry _).resolve_right ?_
    rintro ⟨⟨name, heq⟩, _⟩
    simpa using congrArg List.length heq
  refine ⟨⟨FileSystem.directory_at_mono (fun l hl => ?_) h.located, fun other e he => h.flows other e ((hflow other).symm.trans he),
    fun other name e he => ?_⟩, (hflow flow_id).trans hdir⟩
  · obtain heq | ⟨⟨name, rfl⟩, _⟩ := hentry l
    · exact heq.trans hl
    · exact absurd rfl (h.files flow_id name _ hl).2
  · rw [hflow]
    obtain heq | ⟨⟨name', heq⟩, hne⟩ := hentry (root ++ [other] ++ [name])
    · exact h.files other name e (heq.symm.trans he)
    · have hflows : root ++ [other] = root ++ [flow_id] := (List.append_inj' heq rfl).1
      rw [hflows]
      exact ⟨hdir, fun hdirectory => hne (hdirectory ▸ he)⟩

theorem Tree.create_dir_all (h : Tree tags_dir root disk) (hflow : PathComponent flow_id) (fault : Option Fault) :
    Tree tags_dir root (create_dir_all fault disk (tags_dir ++ [flow_id])).1 ∧
      (∀ other name, file root (file_store.create_dir_all fault disk (tags_dir ++ [flow_id])).1 other name =
        file root disk other name) ∧
      ((file_store.create_dir_all fault disk (tags_dir ++ [flow_id])).2 = .ok () →
        (file_store.create_dir_all fault disk (tags_dir ++ [flow_id])).1.entry (root ++ [flow_id]) = some .directory) := by
  unfold file_store.create_dir_all
  split
  · exact ⟨h, fun _ _ => rfl, fun hok => by cases hok⟩
  · rw [FileSystem.create_dir_all, FileSystem.make_dirs_append h.located, FileSystem.make_dirs,
      (named_of_component hflow).toward]
    cases hentry : disk.entry (root ++ [flow_id]) with
    | some e =>
      obtain ⟨_, rfl⟩ := h.flows flow_id e hentry
      exact ⟨h, fun _ _ => rfl, fun _ => hentry⟩
    | none =>
      cases disk.refuses flow_id with
      | some text => exact ⟨h, fun _ _ => rfl, fun hok => by cases hok⟩
      | none =>
        dsimp only [FileSystem.make_dirs]
        have hinsert := @FileSystem.entry_insert _ disk (root ++ [flow_id]) (by simp) .directory
        have hfile : ∀ other name, (root ++ [other] ++ [name] : Location) ≠ root ++ [flow_id] :=
          fun other name heq => by simpa using congrArg List.length heq
        refine ⟨⟨FileSystem.directory_at_mono (fun l hl => ?_) h.located, fun other e he => ?_, fun other name e he => ?_⟩,
          fun other name => ?_, fun _ => (hinsert _).trans (if_pos rfl)⟩
        · rw [hinsert]
          split
          · rfl
          · exact hl
        · rw [hinsert] at he
          split at he
          · rename_i heq
            cases List.singleton_inj.mp (List.append_inj' heq rfl).2
            cases he
            exact ⟨hflow, rfl⟩
          · exact h.flows other e he
        · rw [hinsert, if_neg (hfile other name)] at he
          obtain ⟨hdir, hne⟩ := h.files other name e he
          refine ⟨?_, hne⟩
          rw [hinsert]
          split
          · rfl
          · exact hdir
        · rw [file, hinsert, if_neg (hfile other name)]
          rfl

/-- Writing a file of a flow. -/
theorem Tree.write (h : Tree tags_dir root disk) (hflow : PathComponent flow_id) (hname : Named name)
    (hdir : disk.entry (root ++ [flow_id]) = some .directory) (fault : Option Fault) (data : String) :
    Tree tags_dir root (write fault disk (tags_dir ++ [flow_id] ++ [name]) data).1 ∧
      (file_store.write fault disk (tags_dir ++ [flow_id] ++ [name]) data).1.entry (root ++ [flow_id]) = some .directory ∧
      (∀ other name', name' ≠ name → file root (file_store.write fault disk (tags_dir ++ [flow_id] ++ [name]) data).1 other name' =
        file root disk other name') ∧
      ((file_store.write fault disk (tags_dir ++ [flow_id] ++ [name]) data).2 = .ok () →
        file root (file_store.write fault disk (tags_dir ++ [flow_id] ++ [name]) data).1 flow_id name = some data) := by
  have hwritten : ∀ data next, disk.write (tags_dir ++ [flow_id] ++ [name]) data = .ok next → Tree tags_dir root next ∧
      next.entry (root ++ [flow_id]) = some .directory ∧
      (∀ other name', name' ≠ name → file root next other name' = file root disk other name') ∧
      file root next flow_id name = some data := by
    intro data next hwrite
    obtain ⟨l, hl, _, hentry⟩ := FileSystem.write_spec hwrite
    obtain ⟨_, rfl⟩ := (h.locate hflow hname).mp hl
    have hfiles : ∀ m, next.entry m = disk.entry m ∨
        (∃ name, m = root ++ [flow_id] ++ [name]) ∧ next.entry m ≠ some .directory := by
      intro m
      rw [hentry]
      split
      · rename_i heq
        exact .inr ⟨⟨name, heq⟩, by simp⟩
      · exact .inl rfl
    obtain ⟨htree, hdir'⟩ := h.of_files hdir hfiles
    refine ⟨htree, hdir', fun other name' hne => ?_, file_eq_some.mpr ((hentry _).trans (if_pos rfl))⟩
    rw [file, hentry, if_neg fun heq => hne (place_inj.mp heq).2]
    rfl
  have hsame : Tree tags_dir root disk ∧ disk.entry (root ++ [flow_id]) = some .directory ∧
      ∀ other name', name' ≠ name → file root disk other name' = file root disk other name' := ⟨h, hdir, fun _ _ _ => rfl⟩
  unfold file_store.write
  split
  · rename_i part text
    cases hpart : part.bind fun part => (disk.write (tags_dir ++ [flow_id] ++ [name]) part).toOption with
    | none => exact ⟨hsame.1, hsame.2.1, hsame.2.2, fun hok => by cases hok⟩
    | some next =>
      obtain ⟨part, _, hnext⟩ := Option.bind_eq_some_iff.mp hpart
      obtain ⟨htree, hdir', hothers, _⟩ := hwritten part next (fallible.toOption_eq_some.mp hnext)
      exact ⟨htree, hdir', hothers, fun hok => by cases hok⟩
  · cases hwrite : disk.write (tags_dir ++ [flow_id] ++ [name]) data with
    | error e => exact ⟨hsame.1, hsame.2.1, hsame.2.2, fun hok => by cases hok⟩
    | ok next =>
      obtain ⟨htree, hdir', hothers, hnew⟩ := hwritten data next hwrite
      exact ⟨htree, hdir', hothers, fun _ => hnew⟩

/-- Renaming a file of a flow. -/
theorem Tree.rename (h : Tree tags_dir root disk) (hflow : PathComponent flow_id) {temp : String} (htemp : Named temp)
    (hname : Named name) (hdir : disk.entry (root ++ [flow_id]) = some .directory) {data : String}
    (hdata : file root disk flow_id temp = some data) {fault : Option Fault}
    (hrename : rename fault disk (tags_dir ++ [flow_id] ++ [temp]) (tags_dir ++ [flow_id] ++ [name]) = .ok next) :
    Tree tags_dir root next ∧ ∀ other name', name' ≠ temp →
      file root next other name' = if other = flow_id ∧ name' = name then some data else file root disk other name' := by
  unfold file_store.rename at hrename
  split at hrename
  · cases hrename
  · obtain ⟨l, m, data', hl, hm, hdata', _, hentry⟩ := FileSystem.rename_spec hrename
    obtain ⟨_, rfl⟩ := (h.locate hflow htemp).mp hl
    obtain ⟨_, rfl⟩ := (h.locate hflow hname).mp hm
    cases (file_eq_some.mp hdata).symm.trans hdata'
    refine ⟨(h.of_files hdir fun k => ?_).1, fun other name' hne => ?_⟩
    · rw [hentry]
      split
      · rename_i heq
        exact .inr ⟨⟨name, heq⟩, by simp⟩
      · split
        · rename_i heq
          exact .inr ⟨⟨temp, heq⟩, by simp⟩
        · exact .inl rfl
    · rw [file, hentry]
      simp only [place_inj, hne, and_false, if_false]
      split <;> rfl

/-- Removing a file of a flow. -/
theorem Tree.remove_file (h : Tree tags_dir root disk) (hflow : PathComponent flow_id) (hname : Named name)
    {fault : Option Fault} (hremove : remove_file fault disk (tags_dir ++ [flow_id] ++ [name]) = .ok next) :
    Tree tags_dir root next ∧ ∀ other name',
      file root next other name' = if other = flow_id ∧ name' = name then none else file root disk other name' := by
  unfold file_store.remove_file at hremove
  split at hremove
  · cases hremove
  · obtain ⟨l, hl, _, hentry⟩ := FileSystem.remove_file_spec hremove
    obtain ⟨hdir, rfl⟩ := (h.locate hflow hname).mp hl
    refine ⟨(h.of_files hdir fun k => ?_).1, fun other name' => ?_⟩
    · rw [hentry]
      split
      · rename_i heq
        exact .inr ⟨⟨name, heq⟩, by simp⟩
      · exact .inl rfl
    · rw [file, hentry]
      simp only [place_inj]
      split <;> rfl

end Tree

/-- The files of the tags hold them, and no other files are of a tag. -/
structure Holds (serde : Serde) (root : Location) (s : FileTagStore) (tags : List FlowTag) : Prop where
  tree : Tree s.tags_dir root s.disk
  files : ∀ t ∈ tags, ∃ data, file root s.disk t.flow_id (t.tag ++ ".json") = some data ∧ serde.from_slice data = .ok t
  only : ∀ flow_id tag data, file root s.disk flow_id (tag ++ ".json") = some data → tag ≠ "" →
    ∃ t ∈ tags, t.key = (flow_id, tag)

section Holds

variable {serde : Serde} {root : Location} {s : FileTagStore} {tags : List FlowTag} {disk : FileSystem String}

/-- Files that are none of a tag do not matter. -/
theorem Holds.congr (h : Holds serde root s tags) (htree : Tree s.tags_dir root disk)
    (hsame : ∀ flow_id tag, file root disk flow_id (tag ++ ".json") = file root s.disk flow_id (tag ++ ".json")) :
    Holds serde root { s with disk } tags := by
  refine ⟨htree, fun t ht => ?_, fun flow_id tag data hfile htag => ?_⟩
  · rw [hsame]
    exact h.files t ht
  · rw [hsame] at hfile
    exact h.only flow_id tag data hfile htag

/-- The file of one tag changes. -/
theorem Holds.put (h : Holds serde root s tags) (htree : Tree s.tags_dir root disk) {flow_id tag : String} {t : FlowTag}
    (hkey : t.key = (flow_id, tag)) {data : String} (hread : serde.from_slice data = .ok t)
    (hfile : ∀ other name, file root disk other (name ++ ".json") =
      if other = flow_id ∧ name = tag then some data else file root s.disk other (name ++ ".json")) :
    Holds serde root { s with disk } (without tags (flow_id, tag) ++ [t]) := by
  obtain ⟨rfl, rfl⟩ := Prod.mk.inj hkey
  refine ⟨htree, fun other hother => ?_, fun flow_id' tag' data' hdata htag' => ?_⟩
  · rw [hfile]
    rw [List.mem_append, List.mem_singleton] at hother
    rcases hother with hother | rfl
    · obtain ⟨hmem, hne⟩ := mem_without.mp hother
      rw [if_neg fun heq => hne (Prod.ext heq.1 heq.2)]
      exact h.files other hmem
    · exact ⟨data, if_pos ⟨rfl, rfl⟩, hread⟩
  · rw [hfile] at hdata
    split at hdata
    · rename_i heq
      exact ⟨t, List.mem_append_right _ List.mem_cons_self, Prod.ext heq.1.symm heq.2.symm⟩
    · rename_i hne
      obtain ⟨other, hother, hkey'⟩ := h.only flow_id' tag' data' hdata htag'
      refine ⟨other, List.mem_append_left _ (mem_without.mpr ⟨hother, fun heq => hne ?_⟩), hkey'⟩
      exact Prod.mk.inj (hkey'.symm.trans heq)

/-- The file of one tag is removed. -/
theorem Holds.remove (h : Holds serde root s tags) (htree : Tree s.tags_dir root disk) {flow_id tag : String}
    (hfile : ∀ other name, file root disk other (name ++ ".json") =
      if other = flow_id ∧ name = tag then none else file root s.disk other (name ++ ".json")) :
    Holds serde root { s with disk } (without tags (flow_id, tag)) := by
  refine ⟨htree, fun other hother => ?_, fun flow_id' tag' data' hdata htag' => ?_⟩
  · rw [hfile]
    obtain ⟨hmem, hne⟩ := mem_without.mp hother
    rw [if_neg fun heq => hne (Prod.ext heq.1 heq.2)]
    exact h.files other hmem
  · rw [hfile] at hdata
    split at hdata
    · cases hdata
    · rename_i hne
      obtain ⟨other, hother, hkey⟩ := h.only flow_id' tag' data' hdata htag'
      exact ⟨other, mem_without.mpr ⟨hother, fun heq => hne (Prod.mk.inj (hkey.symm.trans heq))⟩, hkey⟩

/-- The tag that is read from an entry. -/
def tag_of (serde : Serde) (entry : String × Entry String) : Option FlowTag :=
  if extension entry.1 = some "json" then entry.2.data?.bind fun data => (serde.from_slice data).toOption else none

theorem read_tag_eq {entry : String × Entry String} (hentry : entry.2 ≠ .directory) :
    read_tag serde entry = .ok (tag_of serde entry) := by
  obtain ⟨name, e⟩ := entry
  unfold read_tag tag_of
  cases e with
  | directory => exact absurd rfl hentry
  | file data =>
    by_cases hextension : extension name = some "json"
    · rw [if_neg (not_not.mpr hextension), if_pos hextension]
      rfl
    · rw [if_pos hextension, if_neg hextension]

/-- Nothing is in the directory of a flow but its tags, as far as it is read. -/
theorem Holds.tag_of (h : Holds serde root s tags) {flow_id : String} {entry : String × Entry String}
    (hentry : entry ∈ s.disk.children (root ++ [flow_id])) {t : FlowTag} (hread : tag_of serde entry = some t) :
    t ∈ tags ∧ t.flow_id = flow_id ∧ entry.1 = t.tag ++ ".json" := by
  obtain ⟨name, e⟩ := entry
  rw [FileSystem.mem_children] at hentry
  rw [file_store.tag_of] at hread
  split at hread
  · rename_i hext
    obtain ⟨data, hdata, hfound⟩ := Option.bind_eq_some_iff.mp hread
    obtain ⟨tag, htag, rfl⟩ := tag_of_extension hext
    have hfile : file root s.disk flow_id (tag ++ ".json") = some data := by
      rw [file, hentry]
      exact hdata
    obtain ⟨other, hother, hkey⟩ := h.only flow_id tag data hfile htag
    obtain ⟨rfl, rfl⟩ := Prod.mk.inj hkey
    obtain ⟨data', hfile', hread'⟩ := h.files other hother
    cases hfile.symm.trans hfile'
    cases hread'.symm.trans (fallible.toOption_eq_some.mp hfound)
    exact ⟨hother, rfl, rfl⟩
  · cases hread

theorem Holds.perm_dir (h : Holds serde root s tags) (hvalid : Valid tags) (flow_id : String) :
    ((s.disk.children (root ++ [flow_id])).filterMap (file_store.tag_of serde)).Perm
      (tags.filter fun t => t.flow_id = flow_id) := by
  have hnodup : ((s.disk.children (root ++ [flow_id])).filterMap (file_store.tag_of serde)).Nodup := by
    rw [List.Nodup, List.pairwise_filterMap]
    refine (FileSystem.children_names_nodup s.disk _).imp_of_mem ?_
    rintro a b ha hb hdistinct t ht _ ht' rfl
    exact hdistinct ((h.tag_of ha ht).2.2.trans (h.tag_of hb ht').2.2.symm)
  refine (List.perm_ext_iff_of_nodup hnodup (hvalid.nodup.filter _)).mpr fun t => ?_
  rw [List.mem_filterMap, List.mem_filter, decide_eq_true_eq]
  constructor
  · rintro ⟨entry, hentry, hread⟩
    obtain ⟨hmem, hflow, _⟩ := h.tag_of hentry hread
    exact ⟨hmem, hflow⟩
  · rintro ⟨hmem, rfl⟩
    obtain ⟨data, hfile, hdata⟩ := h.files t hmem
    refine ⟨(t.tag ++ ".json", .file data), FileSystem.mem_children.mpr (file_eq_some.mp hfile), ?_⟩
    rw [file_store.tag_of, if_pos (extension_tag (hvalid.named t hmem))]
    exact (congrArg Except.toOption hdata).trans rfl

theorem Holds.list_tags (h : Holds serde root s tags) (hvalid : Valid tags) {flow_id : String} (hflow : PathComponent flow_id) :
    list_tags serde s flow_id = .ok (keyed.sort_by_key FlowTag.tag (tags.filter fun t => t.flow_id = flow_id)) := by
  have hperm := h.perm_dir hvalid flow_id
  have hrows : ∀ t ∈ (s.disk.children (root ++ [flow_id])).filterMap (file_store.tag_of serde), t ∈ tags ∧ t.flow_id = flow_id := by
    intro t ht
    obtain ⟨hmem, hflow⟩ := List.mem_filter.mp (hperm.mem_iff.mp ht)
    exact ⟨hmem, of_decide_eq_true hflow⟩
  rw [← keyed.sort_by_key_congr hperm (hvalid.tag_injOn hrows)]
  rw [file_store.list_tags, flow_dir_eq s hflow]
  cases hdir : s.disk.entry (root ++ [flow_id]) with
  | none =>
    have hlost : s.disk.lookup (s.tags_dir ++ [flow_id]) = none := by
      rw [FileSystem.lookup, FileSystem.locate_append, h.tree.located]
      simp only [Except.map, Except.toOption, Option.bind_some, (named_of_component hflow).toward, hdir]
    have hempty : s.disk.children (root ++ [flow_id]) = [] := by
      refine List.eq_nil_iff_forall_not_mem.mpr fun entry hentry => ?_
      cases hdir.symm.trans (h.tree.files _ _ _ (FileSystem.mem_children.mp hentry)).1
    rw [hlost, hempty]
    rfl
  | some e =>
    obtain ⟨_, rfl⟩ := h.tree.flows flow_id e hdir
    have hat : s.disk.directory_at (s.tags_dir ++ [flow_id]) = .ok (root ++ [flow_id]) := by
      refine FileSystem.directory_at_append.mpr ⟨root, h.tree.located, ?_⟩
      rw [(named_of_component hflow).toward]
      exact ⟨rfl, hdir⟩
    have hread : (s.disk.children (root ++ [flow_id])).mapM (read_tag serde) =
        .ok ((s.disk.children (root ++ [flow_id])).map (file_store.tag_of serde)) :=
      fallible.mapM_of_ok fun entry hentry => read_tag_eq (h.tree.files _ _ _ (FileSystem.mem_children.mp hentry)).2
    rw [FileSystem.lookup_of_directory_at hat, FileSystem.read_dir, hat]
    simp only [Except.map, Except.mapError, bind, Except.bind, hread, pure, Except.pure, List.filterMap_map, Function.id_comp]

/-- The directories hold all tags between them. -/
theorem Holds.perm_dirs (h : Holds serde root s tags) (hvalid : Valid tags) :
    (((s.disk.children root).filterMap flow_id_of).flatMap fun flow_id => tags.filter fun t => t.flow_id = flow_id).Perm tags := by
  have hflows : ((s.disk.children root).filterMap flow_id_of).Nodup := by
    rw [List.Nodup, List.pairwise_filterMap]
    refine (FileSystem.children_names_nodup s.disk _).imp ?_
    rintro ⟨name, e⟩ ⟨name', e'⟩ hdistinct flow_id hflow flow_id' hflow' rfl
    cases e with
    | file => cases hflow
    | directory =>
      cases e' with
      | file => cases hflow'
      | directory =>
        cases hflow
        cases hflow'
        exact hdistinct rfl
  have hnodup : (((s.disk.children root).filterMap flow_id_of).flatMap fun flow_id =>
      tags.filter fun t => t.flow_id = flow_id).Nodup := by
    rw [List.nodup_flatMap]
    refine ⟨fun _ _ => hvalid.nodup.filter _, hflows.imp fun hne t ht ht' => hne ?_⟩
    exact (of_decide_eq_true (List.mem_filter.mp ht).2).symm.trans (of_decide_eq_true (List.mem_filter.mp ht').2)
  refine (List.perm_ext_iff_of_nodup hnodup hvalid.nodup).mpr fun t => ?_
  rw [List.mem_flatMap]
  constructor
  · rintro ⟨_, _, ht⟩
    exact (List.mem_filter.mp ht).1
  · intro ht
    obtain ⟨data, hfile, _⟩ := h.files t ht
    have hdir := (h.tree.files _ _ _ (file_eq_some.mp hfile)).1
    refine ⟨t.flow_id, List.mem_filterMap.mpr ⟨(t.flow_id, .directory), FileSystem.mem_children.mpr hdir, rfl⟩, ?_⟩
    exact List.mem_filter.mpr ⟨ht, decide_eq_true rfl⟩

theorem Holds.tags_for_version (h : Holds serde root s tags) (hvalid : Valid tags) (version_id : String) :
    tags_for_version serde s version_id =
      .ok (keyed.sort_by_key id ((tags.filter fun t => t.version_id = version_id).map FlowTag.tag)) := by
  have hlists : ((s.disk.children root).filterMap flow_id_of).mapM (file_store.list_tags serde s) =
      .ok (((s.disk.children root).filterMap flow_id_of).map fun flow_id =>
        keyed.sort_by_key FlowTag.tag (tags.filter fun t => t.flow_id = flow_id)) := by
    refine fallible.mapM_of_ok fun flow_id hflow => h.list_tags hvalid ?_
    obtain ⟨⟨name, e⟩, hentry, heq⟩ := List.mem_filterMap.mp hflow
    obtain ⟨hname, rfl⟩ := h.tree.flows _ _ (FileSystem.mem_children.mp hentry)
    cases heq
    exact hname
  rw [file_store.tags_for_version, FileSystem.lookup_of_directory_at h.tree.located, FileSystem.read_dir, h.tree.located]
  simp only [Except.map, Except.mapError, bind, Except.bind, hlists, pure, Except.pure]
  refine congrArg Except.ok (keyed.sort_by_key_congr ?_ Function.injective_id.injOn)
  have hfilter : (tags.filter fun t => t.version_id = version_id).map FlowTag.tag =
      tags.filterMap fun t => if t.version_id = version_id then some t.tag else none := by
    rw [← List.filterMap_eq_map, List.filterMap_filter]
    refine List.filterMap_congr fun t _ => ?_
    by_cases hversion : t.version_id = version_id <;> simp [hversion]
  rw [hfilter, ← List.flatMap_def]
  refine List.Perm.filterMap _ ((List.Perm.flatMap_left _ fun flow_id _ => ?_).trans (h.perm_dirs hvalid))
  exact keyed.perm_sort_by_key

/-- The file of a tag that is set, and no file of another. -/
theorem Holds.file_cases (h : Holds serde root s tags) (hvalid : Valid tags) (flow_id : String) {tag : String} (htag : tag ≠ "") :
    (∃ data t, file root s.disk flow_id (tag ++ ".json") = some data ∧ serde.from_slice data = .ok t ∧
      tags.find? (fun t => t.key = (flow_id, tag)) = some t) ∨
    file root s.disk flow_id (tag ++ ".json") = none ∧ tags.find? (fun t => t.key = (flow_id, tag)) = none := by
  cases hfile : file root s.disk flow_id (tag ++ ".json") with
  | some data =>
    obtain ⟨t, ht, hkey⟩ := h.only flow_id tag data hfile htag
    obtain ⟨data', hfile', hread⟩ := h.files t ht
    obtain ⟨rfl, rfl⟩ := Prod.mk.inj hkey
    cases hfile.symm.trans hfile'
    exact .inl ⟨data, t, rfl, hread, hvalid.find?_eq_some.mpr ⟨ht, rfl⟩⟩
  | none =>
    refine .inr ⟨rfl, List.find?_eq_none.mpr fun t ht hkey => ?_⟩
    obtain ⟨data, hfile', _⟩ := h.files t ht
    obtain ⟨rfl, rfl⟩ := Prod.mk.inj (of_decide_eq_true hkey)
    cases hfile.symm.trans hfile'

theorem Holds.answers (h : Holds serde root s tags) (hvalid : Valid tags) : Answers (tag_store serde) s tags := by
  refine ⟨fun flow_id tag hflow htag => ?_, fun flow_id hflow => h.list_tags hvalid hflow,
    fun version_id => h.tags_for_version hvalid version_id, fun fault flow_id tag existed hflow htag hdelete => ?_⟩
  · change file_store.get_tag serde s flow_id tag = _
    rw [file_store.get_tag, tag_path_eq s hflow htag, h.tree.lookup hflow (named_tag tag)]
    rcases h.file_cases hvalid flow_id htag.1 with ⟨data, t, hdata, hread, hfind⟩ | ⟨hdata, hfind⟩
    · rw [h.tree.read hflow (named_tag tag) hdata, hdata, hfind]
      simp only [Option.map_some, hread]
    · rw [hdata, hfind]
      rfl
  · change (file_store.delete_tag s fault flow_id tag).2 = _ at hdelete
    rw [file_store.delete_tag, tag_path_eq s hflow htag, h.tree.lookup hflow (named_tag tag)] at hdelete
    rw [← List.isSome_find?]
    rcases h.file_cases hvalid flow_id htag.1 with ⟨data, t, hdata, _, hfind⟩ | ⟨hdata, hfind⟩
    · rw [hfind]
      rw [hdata] at hdelete
      dsimp only [Option.map_some] at hdelete
      split at hdelete
      · cases hdelete
      · cases hdelete
        rfl
    · rw [hfind]
      rw [hdata] at hdelete
      cases hdelete
      rfl

theorem holds_set_tag (hserde : ∀ t data, serde.to_vec_pretty t = .ok data → serde.from_slice data = .ok t)
    (h : Holds serde root s tags) (fault : Option Fault) {flow_id tag : String} (hflow : PathComponent flow_id)
    (htag : PathComponent tag) (version_id : String) (now : Int) :
    Holds serde root (set_tag serde s fault flow_id tag version_id now).1
      (effect (tag_store serde) s tags (.set_tag fault flow_id tag version_id now)) := by
  rw [effect]
  dsimp only [tag_store]
  unfold set_tag
  rw [flow_dir_eq s hflow, tag_path_eq s hflow htag]
  dsimp only
  rw [Path.with_extension_append]
  obtain ⟨htree, hfiles, hdir⟩ := h.tree.create_dir_all hflow fault
  have hcreated := h.congr htree fun other name => hfiles other _
  split
  · rename_i disk e hcreate
    rw [hcreate] at hcreated
    exact hcreated
  · rename_i disk _ hcreate
    rw [hcreate] at hcreated htree hdir
    split
    · exact hcreated
    · rename_i data hdata
      obtain ⟨htree', hdir', hothers, hnew⟩ :=
        htree.write hflow (named_temp (tag ++ ".json")) (hdir rfl) fault data
      have hwritten := hcreated.congr htree' fun other name => hothers other _ (temp_ne_tag _ name)
      split
      · rename_i disk' e hwrite
        rw [hwrite] at hwritten
        exact hwritten
      · rename_i disk' _ hwrite
        rw [hwrite] at hwritten htree' hdir' hnew
        split
        · exact hwritten
        · rename_i last hrename
          obtain ⟨hlast, hfile⟩ := htree'.rename hflow (named_temp _) (named_tag tag) hdir' (hnew rfl) hrename
          refine hwritten.put hlast rfl (hserde _ _ hdata) fun other name => ?_
          rw [hfile other _ (temp_ne_tag _ name)]
          simp only [String.append_left_inj]

theorem holds_delete_tag (h : Holds serde root s tags) (fault : Option Fault) {flow_id tag : String}
    (hflow : PathComponent flow_id) (htag : PathComponent tag) :
    Holds serde root (delete_tag s fault flow_id tag).1 (effect (tag_store serde) s tags (.delete_tag fault flow_id tag)) := by
  rw [effect]
  dsimp only [tag_store]
  unfold delete_tag
  rw [tag_path_eq s hflow htag, h.tree.lookup hflow (named_tag tag)]
  cases hfile : file root s.disk flow_id (tag ++ ".json") with
  | none =>
    have hsame : without tags (flow_id, tag) = tags := by
      refine List.filter_eq_self.mpr fun t ht => decide_eq_true ?_
      intro hkey
      obtain ⟨data, hfile', _⟩ := h.files t ht
      obtain ⟨rfl, rfl⟩ := Prod.mk.inj hkey
      cases hfile.symm.trans hfile'
    change Holds serde root s (without tags (flow_id, tag))
    rw [hsame]
    exact h
  | some data =>
    dsimp only [Option.map_some]
    cases hremove : remove_file fault s.disk (s.tags_dir ++ [flow_id] ++ [tag ++ ".json"]) with
    | error e => exact h
    | ok disk =>
      obtain ⟨htree, hothers⟩ := h.tree.remove_file hflow (named_tag tag) hremove
      refine h.remove htree fun other name => ?_
      rw [hothers]
      simp only [String.append_left_inj]

theorem implements (hserde : ∀ t data, serde.to_vec_pretty t = .ok data → serde.from_slice data = .ok t) (root : Location) :
    Implements (tag_store serde) (Holds serde root) where
  set_tag h _ hflow htag := holds_set_tag hserde h _ hflow htag _ _
  delete_tag h _ hflow htag := holds_delete_tag h _ hflow htag
  answers h hvalid := h.answers hvalid

end Holds

end file_store

/-- A store without tags. -/
def Backend.Fresh : (backend : Backend) → backend.State → Prop
  | .file => fun s => ∃ root, s.disk.directory_at s.tags_dir = .ok root ∧
    ∀ name rest, s.disk.entry (root ++ name :: rest) = none
  | .database => fun s => s = seaorm.new

/-- Whichever calls fail and wherever they do, both stores answer every query as the tags do that
the successful calls have set. -/
theorem tag_stores_answer {serde : Serde} (hserde : ∀ t data, serde.to_vec_pretty t = .ok data → serde.from_slice data = .ok t)
    (backend : Backend) {start : backend.State} (hfresh : backend.Fresh start) {actions : List (TagAction backend.Fault)}
    (hactions : ∀ action ∈ actions, action.Proper) :
    Answers (backend.tag_store serde) (called (backend.tag_store serde) start actions).1
      (called (backend.tag_store serde) start actions).2 := by
  cases backend with
  | file =>
    obtain ⟨root, hroot, hnone⟩ := hfresh
    have hfile : ∀ flow_id name, start.disk.entry (root ++ [flow_id] ++ [name]) = none :=
      fun flow_id name => (congrArg _ (List.append_assoc _ _ _)).trans (hnone flow_id [name])
    have hstart : file_store.Holds serde root start [] := by
      refine ⟨⟨hroot, fun flow_id e he => ?_, fun flow_id name e he => ?_⟩, fun _ h => by (cases h), fun flow_id tag data hdata _ => ?_⟩
      · cases (hnone flow_id []).symm.trans he
      · cases (hfile flow_id name).symm.trans he
      · cases (hfile flow_id _).symm.trans (file_store.file_eq_some.mp hdata)
    obtain ⟨hholds, hvalid⟩ := (file_store.implements hserde root).called hstart hactions
    exact hholds.answers hvalid
  | database =>
    cases hfresh
    have hnew : seaorm.Holds seaorm.new [] := .nil
    obtain ⟨hholds, hvalid⟩ := seaorm.implements.called hnew hactions
    exact seaorm.implements.answers hholds hvalid

/-- A store in an empty file system. -/
def sample_store : file_store.FileTagStore :=
  ⟨⟨((∅ : Std.TreeMap Location (Entry String)).insert ["data"] .directory).insert ["data", "tags"] .directory, fun _ => none⟩,
    ["data", "tags"]⟩

example : file_store.new ⟨∅, fun _ => none⟩ ["data"] = .ok sample_store := rfl

theorem sample_store_fresh : Backend.file.Fresh sample_store := by
  refine ⟨["data", "tags"], rfl, fun name rest => ?_⟩
  unfold FileSystem.entry
  simp [sample_store]

def prod_tag : FlowTag := ⟨"flow", "prod", "v1", 0⟩

def prod_text : String :=
  "\x7b\n  \"flow_id\": \"flow\",\n  \"tag\": \"prod\",\n  \"version_id\": \"v1\",\n  \"updated_at\": \"1970-01-01T00:00:00Z\"\n\x7d"

def sample_serde : Serde where
  to_vec_pretty t := if t = prod_tag then .ok prod_text else .error "unknown"
  from_slice data := if data = prod_text then .ok prod_tag else .error "EOF while parsing a value at line 1 column 0"

/-- A tag is set, its file is not renamed over a second time, and it is not removed. -/
def sample_calls : List (TagAction Backend.file.Fault) :=
  [.set_tag (some (.write (some "\x7b") "No space left on device (os error 28)")) "flow" "prod" "v1" 0,
    .set_tag none "flow" "prod" "v1" 0,
    .set_tag (some (.rename "Permission denied (os error 13)")) "flow" "prod" "v1" 0,
    .delete_tag (some (.remove "Permission denied (os error 13)")) "flow" "prod", .delete_tag none "flow" "dev"]

theorem tag_stores_answer_sample :
    (called (file_store.tag_store sample_serde) sample_store sample_calls).2 = [prod_tag] ∧
    Answers (file_store.tag_store sample_serde) (called (file_store.tag_store sample_serde) sample_store sample_calls).1
      (called (file_store.tag_store sample_serde) sample_store sample_calls).2 := by
  refine ⟨by decide +kernel, tag_stores_answer ?_ .file sample_store_fresh ?_⟩
  · intro t data hdata
    simp only [sample_serde] at hdata
    split at hdata
    · rename_i ht
      cases hdata
      subst ht
      rfl
    · cases hdata
  · intro action haction
    have hflow : PathComponent "flow" := by decide
    have hprod : PathComponent "prod" := by decide
    have hdev : PathComponent "dev" := by decide
    simp only [sample_calls, List.mem_cons, List.not_mem_nil, or_false] at haction
    rcases haction with rfl | rfl | rfl | rfl | rfl
    · exact ⟨hflow, hprod⟩
    · exact ⟨hflow, hprod⟩
    · exact ⟨hflow, hprod⟩
    · exact ⟨hflow, hprod⟩
    · exact ⟨hflow, hdev⟩

end flow_engine.flow_tags
