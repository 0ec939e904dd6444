import FlowEngine.Lib.FileSystem
import FlowEngine.Versioning.FlowStore
import Mathlib.Data.List.Sort
import Std.Data.TreeMap.Lemmas

namespace flow_engine.versioning

open filesystem (Entry FileSystem IoError Path extension)

variable {Graph : Type}

namespace file_store

/-- The file system, with the paths of the two directories. -/
structure FileFlowStore where
  disk : FileSystem String
  flows_dir : Path
  versions_dir : Path

/-- Create a new store rooted at `base_dir`, with its directories if they don't exist. -/
def new (disk : FileSystem String) (base_dir : Path) : Except String FileFlowStore :=
  let flows_dir := base_dir.join "flows"
  let versions_dir := base_dir.join "versions"
  match disk.create_dir_all flows_dir with
  | (_, .error e) => .error ("failed to create flows directory: " ++ e.text)
  | (disk, .ok _) =>
    match disk.create_dir_all versions_dir with
    | (_, .error e) => .error ("failed to create versions directory: " ++ e.text)
    | (disk, .ok _) => .ok ⟨disk, flows_dir, versions_dir⟩

/-- Atomic write: serialize to temp file, then rename over the target. -/
def atomic_write (disk : FileSystem String) (path : Path) (data : String) : Except String (FileSystem String) :=
  let temp_path := path.with_extension "json.tmp"
  match disk.write temp_path data with
  | .error e => .error ("failed to write temp file: " ++ e.text)
  | .ok disk =>
    match disk.rename temp_path path with
    | .error e => .error ("failed to rename temp file: " ++ e.text)
    | .ok disk => .ok disk

def version_path (s : FileFlowStore) (version_id : String) : Path := s.versions_dir.join (version_id ++ ".json")

/-- The flow id is not checked: it may lead out of the directory. -/
def head_path (s : FileFlowStore) (flow_id : String) : Path := s.flows_dir.join (flow_id ++ ".json")

/-- The text of a record is written to its file. -/
def put_record (what : String) (data : Except String String) (s : FileFlowStore) (path : Path) : Except String FileFlowStore :=
  match data with
  | .error e => .error ("failed to serialize " ++ what ++ ": " ++ e)
  | .ok data => (atomic_write s.disk path data).map fun disk => { s with disk }

def put_version (serde : Serde Graph) (s : FileFlowStore) (version : FlowVersion Graph) : Except String FileFlowStore :=
  put_record "version" (serde.version_to_vec_pretty version) s (version_path s version.version_id)

def put_head (serde : Serde Graph) (s : FileFlowStore) (head : FlowHead) : Except String FileFlowStore :=
  put_record "head" (serde.head_to_vec_pretty head) s (head_path s head.flow_id)

/-- The record in a file, if there is one. -/
def get_record {α : Type} (what : String) (from_slice : String → Except String α) (s : FileFlowStore) (path : Path) :
    Except String (Option α) :=
  match s.disk.lookup path with
  | none => .ok none
  | some _ =>
    match s.disk.read path with
    | .error e => .error ("failed to read flow " ++ what ++ ": " ++ e.text)
    | .ok data =>
      match from_slice data with
      | .ok record => .ok (some record)
      | .error e => .error ("failed to deserialize flow " ++ what ++ ": " ++ e)

def get_head (serde : Serde Graph) (s : FileFlowStore) (flow_id : String) : Except String (Option FlowHead) :=
  get_record "head" serde.head_from_slice s (head_path s flow_id)

def get_version (serde : Serde Graph) (s : FileFlowStore) (version_id : String) :
    Except String (Option (FlowVersion Graph)) :=
  get_record "version" serde.version_from_slice s (version_path s version_id)

/-- The version in an entry of the directory, if it is one of the flow. Files that hold none are
passed over. -/
def listed_version (serde : Serde Graph) (flow_id : String) (entry : String × Entry String) :
    Except String (Option (FlowVersion Graph)) :=
  if extension entry.1 ≠ some "json" then .ok none
  else
    match entry.2 with
    | .directory => .error ("failed to read version file: " ++ IoError.is_a_directory.text)
    | .file data => .ok ((serde.version_from_slice data).toOption.filter fun version => version.flow_id = flow_id)

def list_versions (serde : Serde Graph) (s : FileFlowStore) (flow_id : String) (limit offset : Nat) :
    Except String (List (FlowVersion Graph)) := do
  let entries ← (s.disk.read_dir s.versions_dir).mapError fun e => "failed to read versions directory: " ++ e.text
  let versions ← entries.mapM (listed_version serde flow_id)
  let sorted := (versions.filterMap id).insertionSort fun a b =>
    newest_first (a.created_at, a.version_id) (b.created_at, b.version_id)
  return (sorted.drop offset).take limit

/-- File-system backed store for flow definitions and versions. -/
def flow_store (serde : Serde Graph) : FlowStore Graph FileFlowStore where
  put_version := put_version serde
  put_head := put_head serde
  get_head := get_head serde
  get_version := get_version serde
  list_versions := list_versions serde

end file_store

namespace seaorm

/-- A row of `flow_version`. -/
structure FlowVersionModel where
  version_id : String
  flow_id : String
  graph : Value
  created_at : Int
  created_by : Option String
  message : Option String

/-- The tables `flow_head` and `flow_version`, by their primary keys. -/
structure SeaOrmFlowStore where
  flow_head : Std.TreeMap String FlowHead
  flow_version : Std.TreeMap String FlowVersionModel

def new : SeaOrmFlowStore := ⟨∅, ∅⟩

def model_to_version (serde : Serde Graph) (m : FlowVersionModel) : Except String (FlowVersion Graph) := do
  let graph ← serde.graph_from_value m.graph
  return ⟨m.version_id, m.flow_id, graph, m.created_at, m.created_by, m.message⟩

/-- Insert a row, unless there is one with the id. -/
def put_version (serde : Serde Graph) (s : SeaOrmFlowStore) (version : FlowVersion Graph) : Except String SeaOrmFlowStore := do
  let graph ← serde.graph_to_value version.graph
  let model : FlowVersionModel :=
    ⟨version.version_id, version.flow_id, graph, version.created_at, version.created_by, version.message⟩
  return { s with flow_version := s.flow_version.insertIfNew version.version_id model }

/-- Insert a row, or update the one of the flow. -/
def put_head (s : SeaOrmFlowStore) (head : FlowHead) : SeaOrmFlowStore :=
  { s with flow_head := s.flow_head.insert head.flow_id head }

def get_version (serde : Serde Graph) (s : SeaOrmFlowStore) (version_id : String) :
    Except String (Option (FlowVersion Graph)) :=
  match s.flow_version[version_id]? with
  | none => .ok none
  | some model => (model_to_version serde model).map some

def list_versions (serde : Serde Graph) (s : SeaOrmFlowStore) (flow_id : String) (limit offset : Nat) :
    Except String (List (FlowVersion Graph)) :=
  let models := ((s.flow_version.toList.map Prod.snd).filter fun model => model.flow_id = flow_id).insertionSort fun a b =>
    newest_first (a.created_at, a.version_id) (b.created_at, b.version_id)
  ((models.drop offset).take limit).mapM (model_to_version serde)

/-- Database-backed store for flow definitions and versions. -/
def flow_store (serde : Serde Graph) : FlowStore Graph SeaOrmFlowStore where
  put_version := put_version serde
  put_head s head := .ok (put_head s head)
  get_head s flow_id := .ok s.flow_head[flow_id]?
  get_version := get_version serde
  list_versions := list_versions serde

end seaorm

/-- The implementations of `FlowStore`. -/
inductive Backend where
  | file
  | database

namespace Backend

abbrev State : Backend → Type
  | .file => file_store.FileFlowStore
  | .database => seaorm.SeaOrmFlowStore

def flow_store (serde : Serde Graph) : (backend : Backend) → FlowStore Graph backend.State
  | .file => file_store.flow_store serde
  | .database => seaorm.flow_store serde

end Backend

end flow_engine.versioning
