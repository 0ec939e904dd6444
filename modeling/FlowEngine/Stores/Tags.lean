import FlowEngine.Lib.FileSystem
import FlowEngine.Lib.KeyedLog
import Mathlib.Data.String.Basic
import Std.Data.TreeMap.Lemmas

namespace flow_engine.flow_tags

open filesystem (Entry FileSystem IoError Path extension)

/-- A tag of a flow, with the version it points at and the time of its last update. -/
structure FlowTag where
  flow_id : String
  tag : String
  version_id : String
  updated_at : Int
  deriving DecidableEq

/-- A flow has one tag of a name at most. -/
def FlowTag.key (t : FlowTag) : String × String := (t.flow_id, t.tag)

/-- Mutable tag mappings for flow versions, whose writes may run into a fault. An error is the
message of a `FlowStoreError`. -/
structure TagStore (State Fault : Type) where
  set_tag : Option Fault → State → String → String → String → Int → State × Except String Unit
  delete_tag : Option Fault → State → String → String → State × Except String Bool
  get_tag : State → String → String → Except String (Option String)
  list_tags : State → String → Except String (List FlowTag)
  tags_for_version : State → String → Except String (List String)

/-- `serde_json` on tags. -/
structure Serde where
  to_vec_pretty : FlowTag → Except String String
  from_slice : String → Except String FlowTag

namespace file_store

/-- The file system, with the path of the directory of tags. -/
structure FileTagStore where
  disk : FileSystem String
  tags_dir : Path

/-- Where a write can fail by itself: with the directory, with the temporary file, of which some part
may have been written, with its renaming, or with the removal of a file. -/
inductive Fault where
  | create_dir (text : String)
  | write (data : Option String) (text : String)
  | rename (text : String)
  | remove (text : String)

def new (disk : FileSystem String) (base_dir : Path) : Except String FileTagStore :=
  let tags_dir := base_dir.join "tags"
  match disk.create_dir_all tags_dir with
  | (_, .error e) => .error ("failed to create tags directory: " ++ e.text)
  | (disk, .ok _) => .ok ⟨disk, tags_dir⟩

section Calls

variable (fault : Option Fault) (disk : FileSystem String)

def create_dir_all (dir : Path) : FileSystem String × Except IoError Unit :=
  match fault with
  | some (.create_dir text) => (disk, .error (.refused text))
  | _ => ((disk.create_dir_all dir).1, (disk.create_dir_all dir).2.map fun _ => ())

def write (path : Path) (data : String) : FileSystem String × Except IoError Unit :=
  match fault with
  | some (.write part text) => ((part.bind fun part => (disk.write path part).toOption).getD disk, .error (.refused text))
  | _ =>
    match disk.write path data with
    | .error e => (disk, .error e)
    | .ok disk => (disk, .ok ())

def rename (source target : Path) : Except IoError (FileSystem String) :=
  match fault with
  | some (.rename text) => .error (.refused text)
  | _ => disk.rename source target

def remove_file (path : Path) : Except IoError (FileSystem String) :=
  match fault with
  | some (.remove text) => .error (.refused text)
  | _ => disk.remove_file path

end Calls

section Operations

variable (serde : Serde) (s : FileTagStore)

/-- The flow id is not checked: it may be several names, or none. -/
def flow_dir (flow_id : String) : Path := s.tags_dir.join flow_id

def tag_path (flow_id tag : String) : Path := (flow_dir s flow_id).join (tag ++ ".json")

def set_tag (fault : Option Fault) (flow_id tag version_id : String) (now : Int) : FileTagStore × Except String Unit :=
  match create_dir_all fault s.disk (flow_dir s flow_id) with
  | (disk, .error e) => ({ s with disk }, .error ("failed to create tag directory: " ++ e.text))
  | (disk, .ok _) =>
    match serde.to_vec_pretty ⟨flow_id, tag, version_id, now⟩ with
    | .error e => ({ s with disk }, .error ("failed to serialize tag: " ++ e))
    | .ok data =>
      let path := tag_path s flow_id tag
      let temp := path.with_extension "json.tmp"
      match write fault disk temp data with
      | (disk, .error e) => ({ s with disk }, .error ("failed to write tag file: " ++ e.text))
      | (disk, .ok _) =>
        match rename fault disk temp path with
        | .error e => ({ s with disk }, .error ("failed to rename tag file: " ++ e.text))
        | .ok disk => ({ s with disk }, .ok ())

def get_tag (flow_id tag : String) : Except String (Option String) :=
  match s.disk.lookup (tag_path s flow_id tag) with
  | none => .ok none
  | some _ =>
    match s.disk.read (tag_path s flow_id tag) with
    | .error e => .error ("failed to read tag file: " ++ e.text)
    | .ok data =>
      match serde.from_slice data with
      | .ok flow_tag => .ok (some flow_tag.version_id)
      | .error e => .error ("failed to deserialize tag: " ++ e)

/-- The tag in an entry of a directory, if it is one of a tag. -/
def read_tag (entry : String × Entry String) : Except String (Option FlowTag) :=
  if extension entry.1 ≠ some "json" then .ok none
  else
    match entry.2 with
    | .directory => .error ("failed to read tag file: " ++ IoError.is_a_directory.text)
    | .file data => .ok (serde.from_slice data).toOption

def list_tags (flow_id : String) : Except String (List FlowTag) :=
  match s.disk.lookup (flow_dir s flow_id) with
  | none => .ok []
  | some _ => do
    let entries ← (s.disk.read_dir (flow_dir s flow_id)).mapError fun e => "failed to read tags directory: " ++ e.text
    let tags ← entries.mapM (read_tag serde)
    return keyed.sort_by_key FlowTag.tag (tags.filterMap id)

def delete_tag (fault : Option Fault) (flow_id tag : String) : FileTagStore × Except String Bool :=
  match s.disk.lookup (tag_path s flow_id tag) with
  | none => (s, .ok false)
  | some _ =>
    match remove_file fault s.disk (tag_path s flow_id tag) with
    | .error e => (s, .error ("failed to delete tag file: " ++ e.text))
    | .ok disk => ({ s with disk }, .ok true)

/-- The flow id of an entry of the directory of tags, if it is a directory. -/
def flow_id_of (entry : String × Entry String) : Option String :=
  match entry.2 with
  | .directory => some entry.1
  | .file _ => none

def tags_for_version (version_id : String) : Except String (List String) :=
  match s.disk.lookup s.tags_dir with
  | none => .ok []
  | some _ => do
    let entries ← (s.disk.read_dir s.tags_dir).mapError fun e => "failed to read tags directory: " ++ e.text
    let tags ← (entries.filterMap flow_id_of).mapM (list_tags serde s)
    return keyed.sort_by_key id (tags.flatten.filterMap fun t => if t.version_id = version_id then some t.tag else none)

end Operations

/-- File-system backed store for flow version tags. -/
def tag_store (serde : Serde) : TagStore FileTagStore Fault where
  set_tag fault s := set_tag serde s fault
  delete_tag fault s := delete_tag s fault
  get_tag := get_tag serde
  list_tags := list_tags serde
  tags_for_version := tags_for_version serde

end file_store

namespace seaorm

/-- The rows of `flow_tag`, in the order of their insertion. -/
structure SeaOrmTagStore where
  flow_tag : List FlowTag

/-- A statement that the database refuses, with its error. -/
structure Fault where
  message : String

def new : SeaOrmTagStore := ⟨[]⟩

/-- Insert a row, or update the one of the tag. -/
def set_tag (fault : Option Fault) (s : SeaOrmTagStore) (flow_id tag version_id : String) (now : Int) :
    SeaOrmTagStore × Except String Unit :=
  match fault with
  | some fault => (s, .error fault.message)
  | none =>
    if s.flow_tag.any fun m => m.key = (flow_id, tag) then
      (⟨s.flow_tag.map fun m => if m.key = (flow_id, tag) then { m with version_id, updated_at := now } else m⟩, .ok ())
    else (⟨s.flow_tag ++ [⟨flow_id, tag, version_id, now⟩]⟩, .ok ())

def get_tag (s : SeaOrmTagStore) (flow_id tag : String) : Option String :=
  (s.flow_tag.find? fun m => m.key = (flow_id, tag)).map FlowTag.version_id

def list_tags (s : SeaOrmTagStore) (flow_id : String) : List FlowTag :=
  keyed.sort_by_key FlowTag.tag (s.flow_tag.filter fun m => m.flow_id = flow_id)

def delete_tag (fault : Option Fault) (s : SeaOrmTagStore) (flow_id tag : String) : SeaOrmTagStore × Except String Bool :=
  match fault with
  | some fault => (s, .error fault.message)
  | none =>
    let rows_affected := s.flow_tag.countP fun m => m.key = (flow_id, tag)
    (⟨s.flow_tag.filter fun m => m.key ≠ (flow_id, tag)⟩, .ok (0 < rows_affected))

def tags_for_version (s : SeaOrmTagStore) (version_id : String) : List String :=
  (keyed.sort_by_key FlowTag.tag (s.flow_tag.filter fun m => m.version_id = version_id)).map FlowTag.tag

/-- Database-backed store for flow version tags. -/
def tag_store : TagStore SeaOrmTagStore Fault where
  set_tag := set_tag
  delete_tag := delete_tag
  get_tag s flow_id tag := .ok (get_tag s flow_id tag)
  list_tags s flow_id := .ok (list_tags s flow_id)
  tags_for_version s version_id := .ok (tags_for_version s version_id)

end seaorm

/-- The implementations of `TagStore`. -/
inductive Backend where
  | file
  | database

namespace Backend

abbrev State : Backend → Type
  | .file => file_store.FileTagStore
  | .database => seaorm.SeaOrmTagStore

abbrev Fault : Backend → Type
  | .file => file_store.Fault
  | .database => seaorm.Fault

def tag_store (serde : Serde) : (backend : Backend) → TagStore backend.State backend.Fault
  | .file => file_store.tag_store serde
  | .database => seaorm.tag_store

end Backend

/-- A call that changes the tags, with the fault it runs into. -/
inductive TagAction (Fault : Type) where
  | set_tag (fault : Option Fault) (flow_id tag version_id : String) (now : Int)
  | delete_tag (fault : Option Fault) (flow_id tag : String)

/-- A name that is one component of a path. -/
def PathComponent (name : String) : Prop := name ≠ "" ∧ name ≠ "." ∧ name ≠ ".." ∧ '/' ∉ name.toList

instance (name : String) : Decidable (PathComponent name) := inferInstanceAs (Decidable (_ ∧ _ ∧ _ ∧ _))

def TagAction.Proper {Fault : Type} : TagAction Fault → Prop
  | .set_tag _ flow_id tag _ _ => PathComponent flow_id ∧ PathComponent tag
  | .delete_tag _ flow_id tag => PathComponent flow_id ∧ PathComponent tag

/-- The tags without that one. -/
def without (tags : List FlowTag) (key : String × String) : List FlowTag := tags.filter fun t => t.key ≠ key

section Calls

variable {State Fault : Type} (store : TagStore State Fault)

def tag_step (s : State) : TagAction Fault → State
  | .set_tag fault flow_id tag version_id now => (store.set_tag fault s flow_id tag version_id now).1
  | .delete_tag fault flow_id tag => (store.delete_tag fault s flow_id tag).1

/-- The tags after a call: those that are set, if the call says that it has succeeded. -/
def effect (s : State) (tags : List FlowTag) : TagAction Fault → List FlowTag
  | .set_tag fault flow_id tag version_id now =>
    match (store.set_tag fault s flow_id tag version_id now).2 with
    | .ok _ => without tags (flow_id, tag) ++ [⟨flow_id, tag, version_id, now⟩]
    | .error _ => tags
  | .delete_tag fault flow_id tag =>
    match (store.delete_tag fault s flow_id tag).2 with
    | .ok _ => without tags (flow_id, tag)
    | .error _ => tags

/-- A store after some calls, and the tags that the successful ones have left. -/
def called (start : State) (actions : List (TagAction Fault)) : State × List FlowTag :=
  actions.foldl (fun s action => (tag_step store s.1 action, effect store s.1 s.2 action)) (start, [])

/-- The answers of a store are those that the tags give, where flow ids and tags are names. -/
structure Answers (s : State) (tags : List FlowTag) : Prop where
  get_tag : ∀ flow_id tag, PathComponent flow_id → PathComponent tag →
    store.get_tag s flow_id tag = .ok ((tags.find? fun t => t.key = (flow_id, tag)).map FlowTag.version_id)
  list_tags : ∀ flow_id, PathComponent flow_id →
    store.list_tags s flow_id = .ok (keyed.sort_by_key FlowTag.tag (tags.filter fun t => t.flow_id = flow_id))
  tags_for_version : ∀ version_id, store.tags_for_version s version_id =
    .ok (keyed.sort_by_key id ((tags.filter fun t => t.version_id = version_id).map FlowTag.tag))
  delete_tag : ∀ fault flow_id tag existed, PathComponent flow_id → PathComponent tag →
    (store.delete_tag fault s flow_id tag).2 = .ok existed → existed = tags.any fun t => t.key = (flow_id, tag)

end Calls

end flow_engine.flow_tags
