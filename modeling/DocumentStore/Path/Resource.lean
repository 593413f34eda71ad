import DocumentStore.Lexicographic
import DocumentStore.Text.Blank
import DocumentStore.Text.Split

/-! # Resource paths

A path leads through alternating collections and documents. Its text joins the segments by slashes;
reading a text removes blanks and then slashes from both ends and refuses empty segments. -/

namespace DocumentStore

/-- A path to a collection or a document. -/
structure ResourcePath where
  segments : List String
deriving DecidableEq, Inhabited

/-- What can be wrong with a path. -/
inductive PathFault where
  /-- The text has two slashes in a row between its ends. -/
  | emptySegment (text : String)
  /-- A document path has an even, positive number of segments. -/
  | notDocument (path : String)
deriving DecidableEq

def PathFault.message : PathFault → String
  | .emptySegment text => s!"Found empty segment in resource path '{text}'"
  | .notDocument path => s!"Document paths must have an even number of segments, got '{path}'"

namespace ResourcePath

def root : ResourcePath := ⟨[]⟩

/-- What remains of a path's text without the blanks and the slashes at its ends. -/
def core (text : String) : List Char :=
  Text.strip (· == '/') (Text.strip Text.isBlank text.toList)

def ofString (text : String) : Except PathFault ResourcePath :=
  match core text with
  | [] => .ok root
  | cs =>
    let pieces := Text.splitChars '/' cs
    if [] ∈ pieces then .error (.emptySegment text)
    else .ok ⟨pieces.map String.ofList⟩

def text (path : ResourcePath) : String := Text.join '/' path.segments

def length (path : ResourcePath) : Nat := path.segments.length

def append (path : ResourcePath) (segments : List String) : ResourcePath :=
  ⟨path.segments ++ segments⟩

def parent (path : ResourcePath) : ResourcePath := ⟨path.segments.dropLast⟩

def last? (path : ResourcePath) : Option String := path.segments.getLast?

/-- Tells whether a path begins with the segments of another. -/
def isPrefixOf (path other : ResourcePath) : Bool := path.segments.isPrefixOf other.segments

/-- Comparison of paths segment by segment, the shorter first where one begins the other. -/
def order (a b : ResourcePath) : Ordering := lexOrder compare a.segments b.segments

end ResourcePath

end DocumentStore
