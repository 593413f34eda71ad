import DocumentStore.Write.Operation
import DocumentStore.Write.Sentinel

/-! # Applying writes to documents

A set replaces a document by its resolved data, or merges the leaves of the data into it. An update
replaces the named fields and leaves the others. Markers are resolved against the document as it was
before the write. A field marked for removal is removed by an update only; a set stores the record
that marks it. -/

namespace DocumentStore

namespace Value

mutual

/-- The value that a set stores at a place where `prior` was. -/
def resolveForSet (prior : Option Value) (now : Timestamp) : Value → Option Value
  | .deleteField => some deletionRecord
  | .map fields => some (.map (resolveFields ((prior.bind asMap?).getD []) now fields))
  | v => resolve prior now v

/-- The fields that a set stores in place of the fields `prior`. -/
def resolveFields (prior : Fields) (now : Timestamp) : Entries Value → Fields
  | [] => []
  | (key, v) :: fields =>
    match resolveForSet (Entries.find? key prior) now v with
    | some next => (key, next) :: resolveFields prior now fields
    | none => resolveFields prior now fields

end

end Value

namespace Fields

/-- The value at the end of a list of keys that is a valid path. -/
def atPath? (keys : List String) (fields : Fields) : Option Value :=
  if "" ∈ keys then none else get? keys fields

/-- The value that a merge writes for a leaf. -/
def resolveLeaf (prior : Option Value) (now : Timestamp) : Value → Value
  | .deleteField => Value.deletionRecord
  | v => (v.resolve prior now).getD .null

/-- Writes leaves one after another, each resolved against the document `prior`. -/
def mergeLeaves (prior : Fields) (now : Timestamp) : List (List String × Value) → Fields → Fields
  | [], fields => fields
  | (keys, v) :: leaves, fields =>
    mergeLeaves prior now leaves (put keys (resolveLeaf (atPath? keys prior) now v) fields)

def applySet (prior : Option Fields) (data : Fields) (merge : Bool) (now : Timestamp) : Fields :=
  if merge then mergeLeaves (prior.getD []) now (Value.leavesOf data) (prior.getD [])
  else Value.resolveFields (prior.getD []) now data

/-- Writes the data at each path, resolved against the document `prior`. Paths at which there is no
data are passed over. -/
def updatePaths (prior : Fields) (data : Fields) (now : Timestamp) :
    List FieldPath → Fields → Fields
  | [], fields => fields
  | path :: paths, fields =>
    match get? path.segments data with
    | none => updatePaths prior data now paths fields
    | some v =>
      match v.resolve (get? path.segments prior) now with
      | some next => updatePaths prior data now paths (put path.segments next fields)
      | none => updatePaths prior data now paths (remove path.segments fields)

def applyUpdate (prior data : Fields) (paths : List FieldPath) (now : Timestamp) : Fields :=
  updatePaths prior data now paths prior

end Fields

end DocumentStore
