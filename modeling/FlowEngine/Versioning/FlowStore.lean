import FlowEngine.Lib.Program
import FlowEngine.Json

namespace flow_engine.versioning

open program (Program Semantics)

/-- An immutable, content-addressed snapshot of a flow graph. -/
structure FlowVersion (Graph : Type) where
  version_id : String
  flow_id : String
  graph : Graph
  created_at : Int
  created_by : Option String
  message : Option String

/-- Pointer to the latest version of a flow. -/
structure FlowHead where
  flow_id : String
  name : String
  current_version_id : String
  updated_at : Int

/-- Persistence for flow definitions and versions, over what an implementation keeps. An error
is the message of a `FlowStoreError`. -/
structure FlowStore (Graph State : Type) where
  put_version : State → FlowVersion Graph → Except String State
  put_head : State → FlowHead → Except String State
  get_head : State → String → Except String (Option FlowHead)
  get_version : State → String → Except String (Option (FlowVersion Graph))
  list_versions : State → String → Nat → Nat → Except String (List (FlowVersion Graph))

/-- `serde_json` on versions and heads, as text, and on graphs, as values. -/
structure Serde (Graph : Type) where
  version_to_vec_pretty : FlowVersion Graph → Except String String
  version_from_slice : String → Except String (FlowVersion Graph)
  head_to_vec_pretty : FlowHead → Except String String
  head_from_slice : String → Except String FlowHead
  graph_to_value : Graph → Except String Value
  graph_from_value : Value → Except String Graph

/-- The canonical JSON of a graph and SHA-256, whose digests have 32 bytes. -/
structure Hashing (Graph : Type) where
  to_vec : Graph → String
  sha256 : String → List UInt8
  sha256_length : ∀ data, (sha256 data).length = 32

/-- A digit of a lowercase hexadecimal number. -/
def hex_digit (n : Nat) : Char := if n < 10 then Char.ofNat (48 + n) else Char.ofNat (87 + n)

/-- Bytes in lowercase hexadecimal. -/
def hex (bytes : List UInt8) : String :=
  String.ofList (bytes.flatMap fun byte => [hex_digit (byte.toNat / 16), hex_digit (byte.toNat % 16)])

section Service

variable {Graph State : Type}

/-- Compute a content-addressed version ID for a graph. -/
def compute_version_id (hashing : Hashing Graph) (graph : Graph) : String := hex (hashing.sha256 (hashing.to_vec graph))

/-- A call of `FlowVersioning::save`, with the times at which it makes its records. -/
structure SaveCall (Graph : Type) where
  flow_id : String
  name : String
  graph : Graph
  created_by : Option String
  message : Option String
  created_at : Int
  updated_at : Int

/-- The version a call makes, unless there is one with its id. -/
def new_version (hashing : Hashing Graph) (call : SaveCall Graph) : FlowVersion Graph where
  version_id := compute_version_id hashing call.graph
  flow_id := call.flow_id
  graph := call.graph
  created_at := call.created_at
  created_by := call.created_by
  message := call.message

def new_head (hashing : Hashing Graph) (call : SaveCall Graph) : FlowHead where
  flow_id := call.flow_id
  name := call.name
  current_version_id := compute_version_id hashing call.graph
  updated_at := call.updated_at

/-- The operations of a store that `save` calls. -/
inductive StoreOp (Graph : Type) where
  | get_version (version_id : String)
  | put_version (version : FlowVersion Graph)
  | put_head (head : FlowHead)

abbrev Answer : StoreOp Graph → Type
  | .get_version _ => Option (FlowVersion Graph)
  | .put_version _ | .put_head _ => Unit

def FlowStore.apply (store : FlowStore Graph State) : Semantics State (StoreOp Graph) Answer
  | s, .get_version version_id => (store.get_version s version_id).map fun version => (version, s)
  | s, .put_version version => (store.put_version s version).map fun next => ((), next)
  | s, .put_head head => (store.put_head s head).map fun next => ((), next)

/-- The part of `save` after its check. -/
def put_new (hashing : Hashing Graph) (call : SaveCall Graph) : Program (StoreOp Graph) Answer (FlowVersion Graph) :=
  .call (.put_version (new_version hashing call)) fun _ =>
    .call (.put_head (new_head hashing call)) fun _ => .ret (new_version hashing call)

/-- Save a new flow version, or return the existing one with the same hash. -/
def save (hashing : Hashing Graph) (call : SaveCall Graph) : Program (StoreOp Graph) Answer (FlowVersion Graph) :=
  .call (.get_version (compute_version_id hashing call.graph)) fun existing =>
    match existing with
    | some existing => .ret existing
    | none => put_new hashing call

/-- Get the current version of a flow. -/
def get_current (store : FlowStore Graph State) (s : State) (flow_id : String) :
    Except String (Option (FlowVersion Graph)) := do
  match ← store.get_head s flow_id with
  | some head => store.get_version s head.current_version_id
  | none => return none

/-- Retrieve a specific historical version by its content-addressed ID. -/
def get_at_version (store : FlowStore Graph State) (s : State) (version_id : String) :
    Except String (Option (FlowVersion Graph)) :=
  store.get_version s version_id

end Service

/-- The order of a version list: by time of creation descending, then by id descending. -/
def newest_first (first second : Int × String) : Bool :=
  second.1 < first.1 || first.1 = second.1 && second.2 ≤ first.2

end flow_engine.versioning
