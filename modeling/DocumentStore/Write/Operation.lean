import DocumentStore.Path.DocumentKey
import DocumentStore.Value.Basic

/-! # Writes

The three mutations of a single document. -/

namespace DocumentStore

/-- A mutation of one document. -/
inductive WriteOperation where
  /-- Replaces the document, or merges the leaves of the data into it. -/
  | set (key : DocumentKey) (data : Fields) (merge : Bool)
  /-- Replaces the named fields of an existing document. -/
  | update (key : DocumentKey) (data : Fields) (paths : List FieldPath)
  /-- Removes the document. -/
  | delete (key : DocumentKey)

def WriteOperation.key : WriteOperation → DocumentKey
  | .set key _ _ => key
  | .update key _ _ => key
  | .delete key => key

end DocumentStore
