import DocumentStore.Value.Basic

/-! # Fields addressed by paths

A list of keys leads through nested maps to a field. Writing at a path makes the maps it needs and
replaces whatever else stands in the way; removing at a path leaves alone what is not there. The
leaves of a record are the places where a merge writes. -/

namespace DocumentStore.Fields

/-- The value at the end of a list of keys, descending through maps only. -/
def get? : List String → Fields → Option Value
  | [], _ => none
  | [key], fields => Entries.find? key fields
  | key :: keys, fields =>
    match Entries.find? key fields with
    | some (.map inner) => get? keys inner
    | _ => none

/-- The fields of the map at a key, empty when no map is there. -/
def inner (key : String) (fields : Fields) : Fields :=
  match Entries.find? key fields with
  | some (.map inner) => inner
  | _ => []

/-- Writes a value at the end of a list of keys. -/
def put : List String → Value → Fields → Fields
  | [], _, fields => fields
  | [key], v, fields => Entries.insert key v fields
  | key :: keys, v, fields => Entries.insert key (.map (put keys v (inner key fields))) fields

/-- Removes what is at the end of a list of keys. -/
def remove : List String → Fields → Fields
  | [], fields => fields
  | [key], fields => Entries.erase key fields
  | key :: keys, fields =>
    match Entries.find? key fields with
    | some (.map inner) => Entries.insert key (.map (remove keys inner)) fields
    | _ => fields

end DocumentStore.Fields

namespace DocumentStore.Value

mutual

/-- The leaves below a value with the keys that lead to them: everything but the maps that have
fields. -/
def leaves : Value → List (List String × Value)
  | .map fields => if fields.isEmpty then [([], .map fields)] else leavesOf fields
  | v => [([], v)]

def leavesOf : Entries Value → List (List String × Value)
  | [] => []
  | (key, v) :: fields => (leaves v).map (fun (keys, leaf) => (key :: keys, leaf)) ++ leavesOf fields

end

end DocumentStore.Value
