import DocumentStore.Json.Shape
import DocumentStore.Path.DocumentKey
import DocumentStore.Query.Plan
import DocumentStore.Value.Fields
import DocumentStore.Value.PlainJson

/-! # Snapshots

A snapshot is what a store knew of a document when it was read: its key and, if it existed, its
fields. The result of a query is a list of snapshots in the order of the query. -/

namespace DocumentStore

/-- A document read at a point in time. -/
structure Snapshot where
  key : DocumentKey
  fields? : Option Fields

namespace Snapshot

/-- The snapshot of a document that does not exist. -/
def missing (key : DocumentKey) : Snapshot := ⟨key, none⟩

def exists? (s : Snapshot) : Bool := s.fields?.isSome

def path (s : Snapshot) : String := s.key.text

/-- The value at a path of the document, if the document and the field exist. -/
def get? (s : Snapshot) (field : FieldPath) : Option Value :=
  s.fields?.bind (Fields.get? field.segments)

def toJson (s : Snapshot) : Except ValueFault (Option Json) :=
  match s.fields? with
  | none => .ok none
  | some fields => (Fields.toJson fields).map some

end Snapshot

/-- What can be wrong with a document read as a table of integers. -/
inductive ModelFault where
  | value (fault : ValueFault)
  /-- A field holds something else than an integer. -/
  | notInteger (path : String) (found : Json)

def ModelFault.message : ModelFault → String
  | .value fault => fault.message
  | .notInteger path found =>
    s!"Failed to deserialize '{path}': invalid type: {found.describe}, expected i64"

namespace Snapshot

/-- The members of an object as integers, or the first member that is none. -/
def integerMembers (path : String) :
    List (String × Json) → Except ModelFault (List (String × Int))
  | [] => .ok []
  | (name, .int n) :: members => do
    let rest ← integerMembers path members
    return (name, n) :: rest
  | (_, found) :: _ => .error (.notInteger path found)

/-- The document as a table of integers, if it exists. -/
def toIntegers (s : Snapshot) : Except ModelFault (Option (List (String × Int))) :=
  match s.fields? with
  | none => .ok none
  | some fields =>
    match Value.toJsonFields fields with
    | .error fault => .error (.value fault)
    | .ok members => (integerMembers s.path members).map some

end Snapshot

/-- The documents that a query found, in the order of the query. -/
structure QueryResult where
  query : Query
  documents : List Snapshot

namespace QueryResult

def ids (r : QueryResult) : List String := r.documents.map fun s => s.key.id

end QueryResult

end DocumentStore
