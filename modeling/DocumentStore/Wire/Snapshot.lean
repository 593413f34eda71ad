import DocumentStore.Snapshot
import DocumentStore.Wire.Value

/-! # Snapshots received from a remote store

A snapshot is a record with a path, a flag that tells whether the document exists, and its fields. A
list of them comes bare or as the member of a response. -/

namespace DocumentStore.Wire

def decodeKey (record : Json) : Except DecodeFault DocumentKey :=
  match record.member? "path" with
  | some (.string path) => (DocumentKey.ofString path).mapError .documentPath
  | _ => .error .snapshotPath

/-- Tells whether a record says that its document exists. -/
def claimsExistence (record : Json) : Bool :=
  match record.member? "exists" with
  | some (.bool b) => b
  | _ => false

def decodeSnapshot (record : Json) : Except DecodeFault Snapshot := do
  let key ← decodeKey record
  if claimsExistence record then
    match record.member? "fields" with
    | some fields => return ⟨key, some (← decodeFields fields)⟩
    | none => return ⟨key, some []⟩
  else return Snapshot.missing key

def decodeSnapshots (records : List Json) : Except DecodeFault (List Snapshot) :=
  records.mapM decodeSnapshot

def decodeDocuments (response : Json) : Except DecodeFault (List Snapshot) :=
  match response with
  | .array records => decodeSnapshots records
  | .object members =>
    match Entries.find? "documents" members with
    | some (.array records) => decodeSnapshots records
    | none => .ok []
    | some _ => .error .documentsType
  | _ => .error .notDocuments

end DocumentStore.Wire
