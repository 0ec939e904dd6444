import Mathlib.Algebra.Ring.Nat
import Mathlib.Data.List.Basic
import Mathlib.Data.Nat.Cast.Basic

namespace flow_engine

/-- The three representations behind a JSON number: an unsigned integer, a
negative integer, or the bit pattern of a binary64 float. -/
inductive Number where
  | pos_int (n : UInt64)
  | neg_int (n : Int64)
  | float (bits : UInt64)
  deriving DecidableEq

/-- A JSON value. An object lists its fields in ascending key order, the order
of the `BTreeMap` behind `serde_json::Map`. -/
inductive Value where
  | null
  | bool (b : Bool)
  | number (n : Number)
  | string (s : String)
  | array (items : List Value)
  | object (fields : List (String × Value))

instance : Inhabited Value := ⟨.null⟩

/-- Field access by name; only objects have fields. -/
def Value.get : Value → String → Option Value
  | .object fields, key => fields.lookup key
  | _, _ => none

@[simp] theorem Value.get_object (fields : List (String × Value)) (key : String) :
    (Value.object fields).get key = fields.lookup key := rfl

@[simp] theorem Value.get_array (items : List Value) (key : String) :
    (Value.array items).get key = none := rfl

/-- The text of a JSON string. -/
def Value.as_str : Value → Option String
  | .string s => some s
  | _ => none

def Value.as_array : Value → Option (List Value)
  | .array items => some items
  | _ => none

def Value.as_u64 : Value → Option Nat
  | .number (.pos_int n) => some n.toNat
  | _ => none

/-- The text of a field. -/
def Value.get_str (raw : Value) (key : String) : Option String := (raw.get key).bind Value.as_str

/-- Insertion into an ordered map: a present key keeps its place and takes the
new value, an absent one is placed in key order. -/
def Map.insert : List (String × Value) → String → Value → List (String × Value)
  | [], key, value => [(key, value)]
  | (k, v) :: rest, key, value =>
    if key < k then (key, value) :: (k, v) :: rest
    else if key = k then (key, value) :: rest
    else (k, v) :: Map.insert rest key value

end flow_engine
