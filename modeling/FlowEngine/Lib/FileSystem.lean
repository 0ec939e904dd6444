import FlowEngine.Lib.Fallible
import Mathlib.Data.List.Basic
import Mathlib.Data.String.Basic
import Std.Data.TreeMap.Lemmas

namespace filesystem

/-- What follows the last dot of a file name, unless nothing stands before the dot. -/
def extension (name : String) : Option String :=
  match name.toList.reverse.dropWhile fun c => c ≠ '.' with
  | _ :: _ :: _ => some (String.ofList (name.toList.reverse.takeWhile fun c => c ≠ '.').reverse)
  | _ => none

def file_stem (name : String) : String :=
  match name.toList.reverse.dropWhile fun c => c ≠ '.' with
  | _ :: c :: before => String.ofList (c :: before).reverse
  | _ => name

def with_extension (name extension : String) : String := file_stem name ++ "." ++ extension

/-- The directories down to an entry, from the root, and its name. -/
abbrev Location := List String

/-- An absolute path as it is written. The empty name and `.` stay in their directory, `..` leaves
it. -/
abbrev Path := List String

/-- The names in a path. -/
def names (s : String) : List String := (s.toList.splitOn '/').map String.ofList

namespace Path

/-- A path behind another one. An absolute path takes the place of the other. -/
def join (p : Path) (s : String) : Path := if s.toList.head? = some '/' then names s else p ++ names s

/-- The path with another extension of its last name. -/
def with_extension (p : Path) (extension : String) : Path :=
  match p.getLast? with
  | some name => p.dropLast ++ [filesystem.with_extension name extension]
  | none => p

end Path

inductive Entry (δ : Type) where
  | directory
  | file (data : δ)

def Entry.data? {δ : Type} : Entry δ → Option δ
  | .directory => none
  | .file data => some data

/-- Why an operation fails. -/
inductive IoError where
  | not_found
  | not_a_directory
  | is_a_directory
  | already_exists
  | refused (text : String)

def IoError.text : IoError → String
  | .not_found => "No such file or directory (os error 2)"
  | .not_a_directory => "Not a directory (os error 20)"
  | .is_a_directory => "Is a directory (os error 21)"
  | .already_exists => "File exists (os error 17)"
  | .refused text => text

/-- The entries below the root, and the error for a name that no entry can have. -/
structure FileSystem (δ : Type) where
  entries : Std.TreeMap Location (Entry δ)
  refuses : String → Option String

/-- Where a name leads from a directory. -/
def toward (dir : Location) (name : String) : Location :=
  if name = "" ∨ name = "." then dir else if name = ".." then dir.dropLast else dir ++ [name]

namespace FileSystem

variable {δ : Type} (fs : FileSystem δ)

def entry (l : Location) : Option (Entry δ) := if l = [] then some .directory else fs.entries[l]?

def enter (dir : Location) (name : String) : Except IoError Location :=
  match fs.entry (toward dir name) with
  | some .directory => .ok (toward dir name)
  | some (.file _) => .error .not_a_directory
  | none => .error .not_found

/-- The directory at the end of a path, each name of which leads to one. -/
def directory_at (p : Path) : Except IoError Location := p.foldlM fs.enter []

/-- Where the entry of a path is, or would be. -/
def locate (p : Path) : Except IoError Location :=
  match p.getLast? with
  | some name => (fs.directory_at p.dropLast).map fun dir => toward dir name
  | none => .ok []

/-- What is at a path, if anything can be seen there. -/
def lookup (p : Path) : Option (Entry δ) := (fs.locate p).toOption.bind fs.entry

def read (p : Path) : Except IoError δ := do
  match fs.entry (← fs.locate p) with
  | some (.file data) => return data
  | some .directory => .error .is_a_directory
  | none => .error .not_found

/-- A file is put at a location, in place of another one. -/
def place (l : Location) (data : δ) : Except IoError (FileSystem δ) :=
  match fs.entry l, fs.refuses (l.getLast?.getD "") with
  | some .directory, _ => .error .is_a_directory
  | _, some text => .error (.refused text)
  | _, none => .ok { fs with entries := fs.entries.insert l (.file data) }

def write (p : Path) (data : δ) : Except IoError (FileSystem δ) := do fs.place (← fs.locate p) data

/-- A file is renamed, in place of another one. -/
def rename (source target : Path) : Except IoError (FileSystem δ) := do
  let source ← fs.locate source
  let target ← fs.locate target
  match fs.entry source with
  | some (.file data) => FileSystem.place { fs with entries := fs.entries.erase source } target data
  | some .directory => .error .is_a_directory
  | none => .error .not_found

def remove_file (p : Path) : Except IoError (FileSystem δ) := do
  let l ← fs.locate p
  match fs.entry l with
  | some (.file _) => .ok { fs with entries := fs.entries.erase l }
  | some .directory => .error .is_a_directory
  | none => .error .not_found

/-- The directories of a path are made where they are missing. Those that have been made stay when a
later one cannot be. -/
def make_dirs (fs : FileSystem δ) : Location → Path → FileSystem δ × Except IoError Location
  | dir, [] => (fs, .ok dir)
  | dir, name :: rest =>
    match fs.entry (toward dir name), fs.refuses name with
    | some .directory, _ => make_dirs fs (toward dir name) rest
    | some (.file _), _ => (fs, .error (if rest = [] then .already_exists else .not_a_directory))
    | none, some text => (fs, .error (.refused text))
    | none, none => make_dirs { fs with entries := fs.entries.insert (toward dir name) .directory } (toward dir name) rest

def create_dir_all (p : Path) : FileSystem δ × Except IoError Location := fs.make_dirs [] p

/-- The entries of a directory. Their order is not specified. -/
def children (dir : Location) : List (String × Entry δ) :=
  fs.entries.toList.filterMap fun e =>
    match e.1.getLast? with
    | some name => if e.1.dropLast = dir then some (name, e.2) else none
    | none => none

def read_dir (p : Path) : Except IoError (List (String × Entry δ)) := (fs.directory_at p).map fs.children

end FileSystem

section Names

variable {stem ext : String}

/-- A name that is made of a stem and an extension. -/
theorem reversed_name (stem ext : String) :
    (stem ++ "." ++ ext).toList.reverse = ext.toList.reverse ++ '.' :: stem.toList.reverse := by
  simp [String.toList_append]

theorem dropWhile_name (hext : '.' ∉ ext.toList) :
    ((stem ++ "." ++ ext).toList.reverse.dropWhile fun c => c ≠ '.') = '.' :: stem.toList.reverse := by
  rw [reversed_name, List.dropWhile_append_of_pos]
  · rfl
  · intro c hc
    rw [decide_eq_true_eq]
    rintro rfl
    exact hext (List.mem_reverse.mp hc)

theorem takeWhile_name (hext : '.' ∉ ext.toList) :
    ((stem ++ "." ++ ext).toList.reverse.takeWhile fun c => c ≠ '.') = ext.toList.reverse := by
  rw [reversed_name, List.takeWhile_append_of_pos]
  · exact List.append_nil _
  · intro c hc
    rw [decide_eq_true_eq]
    rintro rfl
    exact hext (List.mem_reverse.mp hc)

theorem reversed_stem (hstem : stem ≠ "") : ∃ c before, stem.toList.reverse = c :: before := by
  cases hchars : stem.toList.reverse with
  | nil =>
    rw [List.reverse_eq_nil_iff, String.toList_eq_nil_iff] at hchars
    exact absurd hchars hstem
  | cons c before => exact ⟨c, before, rfl⟩

theorem extension_name (hstem : stem ≠ "") (hext : '.' ∉ ext.toList) : extension (stem ++ "." ++ ext) = some ext := by
  obtain ⟨c, before, hchars⟩ := reversed_stem hstem
  rw [extension, dropWhile_name hext, takeWhile_name hext, hchars]
  simp

/-- A name with an extension is made of a stem and it. -/
theorem name_of_extension {name : String} (h : extension name = some ext) :
    ∃ stem, stem ≠ "" ∧ name = stem ++ "." ++ ext := by
  rw [extension] at h
  split at h
  · rename_i dot c before hdrop
    have hdot : dot = '.' := by
      have hhead := List.head?_dropWhile_not (fun c => decide (c ≠ '.')) name.toList.reverse
      rw [hdrop] at hhead
      simpa using hhead
    have hafter : (name.toList.reverse.takeWhile fun c => c ≠ '.').reverse = ext.toList := by
      rw [← Option.some.inj h, String.toList_ofList]
    have hchars : name.toList = (c :: before).reverse ++ '.' :: ext.toList := by
      have hwhole := @List.takeWhile_append_dropWhile _ (fun c => decide (c ≠ '.')) name.toList.reverse
      rw [hdrop, hdot] at hwhole
      rw [← List.reverse_reverse name.toList, ← hwhole, List.reverse_append, List.reverse_cons, hafter, List.append_assoc]
      rfl
    refine ⟨String.ofList (c :: before).reverse, ?_, ?_⟩
    · intro hempty
      simpa using congrArg String.toList hempty
    · apply String.toList_injective
      rw [hchars]
      simp [String.toList_append]
  · cases h

/-- Texts that end differently differ. -/
theorem append_ne_of_getLast? {s t end_s end_t : String} {c d : Char} (hs : end_s.toList.getLast? = some c)
    (ht : end_t.toList.getLast? = some d) (hne : c ≠ d) : s ++ end_s ≠ t ++ end_t := by
  intro heq
  have hlast := congrArg (fun s => s.toList.getLast?) heq
  simp only [String.toList_append, List.getLast?_append, hs, ht, Option.some_or] at hlast
  exact hne (Option.some.inj hlast)

theorem names_of_single {s : String} (h : '/' ∉ s.toList) : names s = [s] := by
  rw [names, List.splitOn_eq_singleton h, List.map_singleton, String.ofList_toList]

/-- What a text ends with, its last name ends with. -/
theorem names_append (s : String) (hext : '/' ∉ ext.toList) : ∃ before stem, names (s ++ ext) = before ++ [stem ++ ext] := by
  have hchars : ∀ chars : List Char, ∃ before stem,
      (chars ++ ext.toList).splitOn '/' = before ++ [stem ++ ext.toList] := by
    intro chars
    induction chars with
    | nil => exact ⟨[], [], List.splitOn_eq_singleton hext⟩
    | cons c rest ih =>
      obtain ⟨before, stem, hsplit⟩ := ih
      rw [List.cons_append, List.splitOn_cons_eq_if_modifyHead, hsplit]
      by_cases hslash : c = '/'
      · exact ⟨[] :: before, stem, by simp [hslash]⟩
      · cases before with
        | nil => exact ⟨[], c :: stem, by simp [hslash]⟩
        | cons name before => exact ⟨(c :: name) :: before, stem, by simp [hslash]⟩
  obtain ⟨before, stem, hsplit⟩ := hchars s.toList
  refine ⟨before.map String.ofList, String.ofList stem, ?_⟩
  rw [names, String.toList_append, hsplit, List.map_append, List.map_singleton]
  refine congrArg (fun name => before.map String.ofList ++ [name]) (String.toList_injective ?_)
  simp [String.toList_append]

end Names

namespace Path

variable (p : Path)

theorem join_of_single {s : String} (h : '/' ∉ s.toList) : p.join s = p ++ [s] := by
  rw [join, names_of_single h, if_neg]
  exact fun habsolute => h (List.mem_of_mem_head? habsolute)

theorem join_append (s : String) {ext : String} (hext : '/' ∉ ext.toList) :
    ∃ before stem, p.join (s ++ ext) = before ++ [stem ++ ext] := by
  obtain ⟨before, stem, hnames⟩ := names_append s hext
  rw [join, hnames]
  split
  · exact ⟨before, stem, rfl⟩
  · exact ⟨p ++ before, stem, (List.append_assoc _ _ _).symm⟩

theorem with_extension_append (name ext : String) :
    Path.with_extension (p ++ [name]) ext = p ++ [filesystem.with_extension name ext] := by
  rw [Path.with_extension, List.getLast?_concat, List.dropLast_concat]

end Path

/-- A name that leads to an entry of the directory itself. -/
structure Named (name : String) : Prop where
  ne_empty : name ≠ ""
  ne_dot : name ≠ "."
  ne_dots : name ≠ ".."

theorem Named.toward {name : String} (h : Named name) (dir : Location) : toward dir name = dir ++ [name] := by
  rw [filesystem.toward, if_neg (not_or.mpr ⟨h.ne_empty, h.ne_dot⟩), if_neg h.ne_dots]

/-- A name that ends in neither a dot nor nothing. -/
theorem named_append (stem : String) {ext : String} {c : Char} (hlast : ext.toList.getLast? = some c) (hdot : c ≠ '.') :
    Named (stem ++ ext) := by
  have hends : (stem ++ ext).toList.getLast? = some c := by
    rw [String.toList_append, List.getLast?_append, hlast, Option.some_or]
  constructor
  · intro h
    rw [h] at hends
    cases hends
  · intro h
    rw [h] at hends
    exact hdot (Option.some.inj hends).symm
  · intro h
    rw [h] at hends
    exact hdot (Option.some.inj hends).symm

namespace FileSystem

variable {δ : Type} {fs next : FileSystem δ}

theorem locate_append (fs : FileSystem δ) (p : Path) (name : String) :
    fs.locate (p ++ [name]) = (fs.directory_at p).map fun dir => toward dir name := by
  rw [locate, List.getLast?_concat, List.dropLast_concat]

theorem locate_eq_ok {p : Path} {name : String} {l : Location} (hname : Named name) :
    fs.locate (p ++ [name]) = .ok l ↔ ∃ dir, fs.directory_at p = .ok dir ∧ l = dir ++ [name] := by
  rw [locate_append]
  cases fs.directory_at p with
  | error e => simp [Except.map]
  | ok dir => simp [Except.map, hname.toward, eq_comm]

theorem enter_eq_ok {dir l : Location} {name : String} :
    fs.enter dir name = .ok l ↔ l = toward dir name ∧ fs.entry l = some .directory := by
  unfold enter
  constructor
  · intro h
    split at h
    · rename_i hentry
      cases h
      exact ⟨rfl, hentry⟩
    · cases h
    · cases h
  · rintro ⟨rfl, hentry⟩
    rw [hentry]

theorem directory_at_append {p : Path} {name : String} {l : Location} :
    fs.directory_at (p ++ [name]) = .ok l ↔
      ∃ dir, fs.directory_at p = .ok dir ∧ l = toward dir name ∧ fs.entry l = some .directory := by
  rw [directory_at, List.foldlM_append, fallible.bind_eq_ok]
  refine exists_congr fun dir => and_congr_right fun _ => ?_
  rw [List.foldlM_cons, fallible.bind_eq_ok]
  simp only [List.foldlM_nil, enter_eq_ok]
  constructor
  · rintro ⟨m, ⟨rfl, hentry⟩, heq⟩
    cases heq
    exact ⟨rfl, hentry⟩
  · rintro ⟨rfl, hentry⟩
    exact ⟨_, ⟨rfl, hentry⟩, rfl⟩

/-- A directory is seen at its path. -/
theorem lookup_of_directory_at {p : Path} {l : Location} (h : fs.directory_at p = .ok l) : fs.lookup p = some .directory := by
  rcases List.eq_nil_or_concat p with rfl | ⟨p, name, rfl⟩
  · rfl
  · rw [List.concat_eq_append] at h ⊢
    obtain ⟨dir, hdir, rfl, hentry⟩ := directory_at_append.mp h
    rw [lookup, locate_append, hdir]
    exact hentry

/-- Where directories stay, paths lead to the same ones. -/
theorem directory_at_mono (hdirs : ∀ l, fs.entry l = some .directory → next.entry l = some .directory) {p : Path} {l : Location}
    (h : fs.directory_at p = .ok l) : next.directory_at p = .ok l := by
  refine fallible.foldlM_ok_mono (fun dir name m hm => ?_) p [] l h
  rw [enter_eq_ok] at hm ⊢
  exact ⟨hm.1, hdirs m hm.2⟩

/-- The directories of one are those of the other, and so are the names they refuse. -/
structure SameDirs (fs next : FileSystem δ) : Prop where
  refuses : next.refuses = fs.refuses
  directory : ∀ l, next.entry l = some .directory ↔ fs.entry l = some .directory

theorem SameDirs.refl (fs : FileSystem δ) : SameDirs fs fs := ⟨rfl, fun _ => Iff.rfl⟩

theorem SameDirs.trans {last : FileSystem δ} (h : SameDirs fs next) (h' : SameDirs next last) : SameDirs fs last :=
  ⟨h'.refuses.trans h.refuses, fun l => (h'.directory l).trans (h.directory l)⟩

theorem SameDirs.directory_at (h : SameDirs fs next) (p : Path) (l : Location) :
    next.directory_at p = .ok l ↔ fs.directory_at p = .ok l := by
  refine fallible.foldlM_ok_congr (fun dir name l => ?_) p [] l
  rw [enter_eq_ok, enter_eq_ok, h.directory]

theorem SameDirs.locate (h : SameDirs fs next) (p : Path) (l : Location) : next.locate p = .ok l ↔ fs.locate p = .ok l := by
  rcases List.eq_nil_or_concat p with rfl | ⟨p, name, rfl⟩
  · rfl
  · rw [List.concat_eq_append, locate_append, locate_append, fallible.map_eq_ok, fallible.map_eq_ok]
    exact exists_congr fun dir => and_congr_left fun _ => h.directory_at p dir

theorem ne_nil_of_entry {l : Location} (h : fs.entry l ≠ some .directory) : l ≠ [] := by
  rintro rfl
  exact h rfl

theorem entry_insert {l : Location} (hl : l ≠ []) (e : Entry δ) (m : Location) :
    FileSystem.entry { fs with entries := fs.entries.insert l e } m = if m = l then some e else fs.entry m := by
  unfold FileSystem.entry
  rw [Std.TreeMap.getElem?_insert]
  by_cases hm : m = l
  · rw [if_pos hm, if_pos (Std.LawfulEqCmp.compare_eq_iff_eq.mpr hm.symm), if_neg (hm ▸ hl)]
  · rw [if_neg hm, if_neg fun h => hm (Std.LawfulEqCmp.eq_of_compare h).symm]

theorem entry_erase {l : Location} (hl : l ≠ []) (m : Location) :
    FileSystem.entry { fs with entries := fs.entries.erase l } m = if m = l then none else fs.entry m := by
  unfold FileSystem.entry
  rw [Std.TreeMap.getElem?_erase]
  by_cases hm : m = l
  · rw [if_pos hm, if_pos (Std.LawfulEqCmp.compare_eq_iff_eq.mpr hm.symm), if_neg (hm ▸ hl)]
  · rw [if_neg hm, if_neg fun h => hm (Std.LawfulEqCmp.eq_of_compare h).symm]

/-- What is done about a file is done to no directory. -/
theorem same_dirs_of_entry {l : Location} {e : Option (Entry δ)} (hrefuses : next.refuses = fs.refuses)
    (hl : fs.entry l ≠ some .directory) (he : e ≠ some .directory)
    (hentry : ∀ m, next.entry m = if m = l then e else fs.entry m) : SameDirs fs next := by
  refine ⟨hrefuses, fun m => ?_⟩
  rw [hentry]
  split
  · rename_i hm
    exact iff_of_false he (hm ▸ hl)
  · exact Iff.rfl

theorem place_spec {l : Location} {data : δ} (h : fs.place l data = .ok next) :
    SameDirs fs next ∧ ∀ m, next.entry m = if m = l then some (.file data) else fs.entry m := by
  unfold place at h
  split at h
  · cases h
  · cases h
  · rename_i hnot
    cases h
    have hfile : fs.entry l ≠ some .directory := fun heq => hnot heq
    have hentry := @entry_insert δ fs l (ne_nil_of_entry hfile) (.file data)
    exact ⟨same_dirs_of_entry rfl hfile (by simp) hentry, hentry⟩

theorem write_spec {p : Path} {data : δ} (h : fs.write p data = .ok next) :
    ∃ l, fs.locate p = .ok l ∧ SameDirs fs next ∧ ∀ m, next.entry m = if m = l then some (.file data) else fs.entry m := by
  obtain ⟨l, hl, hplace⟩ := fallible.bind_eq_ok.mp h
  exact ⟨l, hl, place_spec hplace⟩

theorem rename_spec {source target : Path} (h : fs.rename source target = .ok next) :
    ∃ l m data, fs.locate source = .ok l ∧ fs.locate target = .ok m ∧ fs.entry l = some (.file data) ∧ SameDirs fs next ∧
      ∀ k, next.entry k = if k = m then some (.file data) else if k = l then none else fs.entry k := by
  obtain ⟨l, hl, h⟩ := fallible.bind_eq_ok.mp h
  obtain ⟨m, hm, h⟩ := fallible.bind_eq_ok.mp h
  split at h
  · rename_i data hentry
    have hfile : fs.entry l ≠ some .directory := by rw [hentry]; simp
    obtain ⟨hdirs, hplaced⟩ := place_spec h
    have herased := @entry_erase δ fs l (ne_nil_of_entry hfile)
    have hsame : SameDirs fs { fs with entries := fs.entries.erase l } := same_dirs_of_entry rfl hfile (by simp) herased
    exact ⟨l, m, data, hl, hm, hentry, hsame.trans hdirs, fun k => by rw [hplaced, herased]⟩
  · cases h
  · cases h

theorem remove_file_spec {p : Path} (h : fs.remove_file p = .ok next) :
    ∃ l, fs.locate p = .ok l ∧ SameDirs fs next ∧ ∀ m, next.entry m = if m = l then none else fs.entry m := by
  obtain ⟨l, hl, h⟩ := fallible.bind_eq_ok.mp h
  split at h
  · rename_i hentry
    cases h
    have hfile : fs.entry l ≠ some .directory := by rw [hentry]; simp
    have herased := @entry_erase δ fs l (ne_nil_of_entry hfile)
    exact ⟨l, hl, same_dirs_of_entry rfl hfile (by simp) herased, herased⟩
  · cases h
  · cases h

/-- A file that is written beside its place and renamed is in its place, and nothing else has changed
but the other file. -/
theorem replaced_spec {middle : FileSystem δ} {p : Path} {temp name : String} {data : δ} (htemp : Named temp)
    (hname : Named name) (hwrite : fs.write (p ++ [temp]) data = .ok middle)
    (hrename : middle.rename (p ++ [temp]) (p ++ [name]) = .ok next) :
    ∃ dir, fs.directory_at p = .ok dir ∧ SameDirs fs next ∧
      ∀ l, l ≠ dir ++ [temp] → next.entry l = if l = dir ++ [name] then some (.file data) else fs.entry l := by
  obtain ⟨l, hl, hwritten, hentry⟩ := write_spec hwrite
  obtain ⟨dir, hdir, rfl⟩ := (locate_eq_ok htemp).mp hl
  obtain ⟨l', m, data', hl', hm, hdata, hrenamed, hentry'⟩ := rename_spec hrename
  rw [hwritten.locate, hl] at hl'
  cases hl'
  obtain ⟨dir', hdir', rfl⟩ := (locate_eq_ok hname).mp hm
  rw [hwritten.directory_at, hdir] at hdir'
  cases hdir'
  rw [hentry, if_pos rfl] at hdata
  cases hdata
  refine ⟨dir, hdir, hwritten.trans hrenamed, fun l hne => ?_⟩
  rw [hentry', hentry, if_neg hne, if_neg hne]

/-- The directories of a path that are there stay as they are. -/
theorem make_dirs_append {dir last : Location} {p : Path} (hp : p.foldlM fs.enter dir = .ok last) (q : Path) :
    fs.make_dirs dir (p ++ q) = fs.make_dirs last q := by
  induction p generalizing dir with
  | nil =>
    cases hp
    rfl
  | cons name rest ih =>
    rw [List.foldlM_cons] at hp
    obtain ⟨middle, hmiddle, hrest⟩ := fallible.bind_eq_ok.mp hp
    obtain ⟨rfl, hentry⟩ := enter_eq_ok.mp hmiddle
    rw [List.cons_append, make_dirs, hentry]
    exact ih hrest

theorem mem_children {dir : Location} {name : String} {e : Entry δ} :
    (name, e) ∈ fs.children dir ↔ fs.entry (dir ++ [name]) = some e := by
  unfold children FileSystem.entry
  rw [if_neg (List.append_ne_nil_of_right_ne_nil _ (List.cons_ne_nil _ _)), ← Std.TreeMap.mem_toList_iff_getElem?_eq_some,
    List.mem_filterMap]
  constructor
  · rintro ⟨⟨l, e'⟩, hmem, hchild⟩
    dsimp only at hchild
    split at hchild
    · rename_i last hlast
      split at hchild
      · rename_i hdir
        cases hchild
        rw [← hdir, List.dropLast_append_getLast? _ hlast]
        exact hmem
      · cases hchild
    · cases hchild
  · intro hmem
    exact ⟨_, hmem, by simp⟩

theorem children_names_nodup (fs : FileSystem δ) (dir : Location) : (fs.children dir).Pairwise fun a b => a.1 ≠ b.1 := by
  unfold children
  rw [List.pairwise_filterMap]
  refine Std.TreeMap.distinct_keys_toList.imp ?_
  rintro a b hdistinct child hchild child' hchild' hsame
  split at hchild
  · rename_i last hlast
    split at hchild
    · rename_i hdir
      cases hchild
      split at hchild'
      · rename_i last' hlast'
        split at hchild'
        · rename_i hdir'
          cases hchild'
          cases hsame
          refine hdistinct (Std.LawfulEqCmp.compare_eq_iff_eq.mpr ?_)
          rw [← List.dropLast_append_getLast? _ hlast, ← List.dropLast_append_getLast? _ hlast', hdir, hdir']
        · cases hchild'
      · cases hchild'
    · cases hchild
  · cases hchild

end FileSystem

end filesystem
