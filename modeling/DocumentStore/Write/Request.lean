import DocumentStore.Error
import DocumentStore.Write.Operation
import DocumentStore.Write.Payload

/-! # Requests for writes

A caller asks for a write by the text of a path and by data that nobody has looked at yet. The check
of a request looks at the path first and at the data second, and its result is a write that every
store accepts. -/

namespace DocumentStore

def documentKey (path : String) : Except Error DocumentKey :=
  (DocumentKey.ofString path).mapError .resource

/-- A write as a caller asks for it. -/
inductive WriteRequest where
  /-- Replaces the document, or merges the leaves of the data into it. -/
  | set (path : String) (data : Fields) (merge : Bool)
  /-- Replaces fields of an existing document; the keys of the data are dotted paths. -/
  | update (path : String) (data : Fields)
  /-- Removes the document. -/
  | delete (path : String)

namespace WriteRequest

/-- The path of the document that a request is about. -/
def path : WriteRequest → String
  | .set p _ _ => p
  | .update p _ => p
  | .delete p => p

/-- The operation by whose name a request is refused. -/
def operation : WriteRequest → ClientOperation
  | .set .. => .set
  | .update .. => .update
  | .delete _ => .delete

/-- The write that a request about a given document asks for. -/
def payload (key : DocumentKey) : WriteRequest → Except PayloadFault WriteOperation
  | .set _ data merge => (Payload.encodeSet data).map fun encoded => .set key encoded merge
  | .update _ data =>
    (Payload.encodeUpdate data).map fun encoded => .update key encoded.data encoded.paths
  | .delete _ => .ok (.delete key)

/-- The write that a request asks for, or the first fault of the request. -/
def check (request : WriteRequest) : Except Error WriteOperation := do
  let key ← documentKey request.path
  (request.payload key).mapError .payload

end WriteRequest

end DocumentStore
