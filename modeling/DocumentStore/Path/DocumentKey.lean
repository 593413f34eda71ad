import DocumentStore.Path.Resource

/-! # Document keys

The key of a document is its path: a collection path and an identifier in that collection. -/

namespace DocumentStore

/-- The path of a single document. -/
structure DocumentKey where
  path : ResourcePath
  two_le : 2 ≤ path.length
  even : path.length % 2 = 0
deriving DecidableEq

namespace DocumentKey

/-- The key of a path with an even, positive number of segments. -/
def ofPath (path : ResourcePath) : Except PathFault DocumentKey :=
  if h : 2 ≤ path.length ∧ path.length % 2 = 0 then .ok ⟨path, h.1, h.2⟩
  else .error (.notDocument path.text)

def ofString (text : String) : Except PathFault DocumentKey :=
  (ResourcePath.ofString text).bind ofPath

/-- The path of the collection that holds the document. -/
def collection (key : DocumentKey) : ResourcePath := key.path.parent

def id (key : DocumentKey) : String := key.path.last?.getD ""

def text (key : DocumentKey) : String := key.path.text

end DocumentKey

end DocumentStore
