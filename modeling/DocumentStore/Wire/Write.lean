import DocumentStore.Wire.Value
import DocumentStore.Write.Operation

/-! # Writes sent to a remote store

Each write is a record that names the mutation, the path of the document and, unless it deletes the
document, the typed fields with what a set or an update needs beside them. -/

namespace DocumentStore.Wire

def pathTexts (paths : List FieldPath) : Json := .array (paths.map fun path => .string path.text)

def encodeWrite : WriteOperation → Except ValueFault Json
  | .set key data merge => do
    let fields ← encodeFields data
    return Json.ofMembers
      [("op", .string "set"), ("path", .string key.text), ("fields", .object fields),
        ("merge", .bool merge)]
  | .update key data paths => do
    let fields ← encodeFields data
    return Json.ofMembers
      [("op", .string "update"), ("path", .string key.text), ("fields", .object fields),
        ("fieldPaths", pathTexts paths)]
  | .delete key =>
    .ok (Json.ofMembers [("op", .string "delete"), ("path", .string key.text)])

def encodeWrites (writes : List WriteOperation) : Except ValueFault (List Json) :=
  writes.mapM encodeWrite

end DocumentStore.Wire
