import DocumentStore.Text.Blank
import DocumentStore.Text.LetterCase
import DocumentStore.Text.Split

/-! # Field paths

A field path names a field of a document by the keys that lead to it through nested maps. Its text
joins the keys by dots. The reserved path `__name__` stands for the identifier of the document. -/

namespace DocumentStore

/-- A path to a field: one or more keys, none of them empty. -/
structure FieldPath where
  segments : List String
  nonempty : segments ≠ []
  filled : "" ∉ segments
deriving DecidableEq

/-- What can be wrong with a field path. -/
inductive FieldPathFault where
  | noSegments
  | emptySegment
  | blank
deriving DecidableEq

def FieldPathFault.message : FieldPathFault → String
  | .noSegments => "FieldPath must contain at least one segment"
  | .emptySegment => "FieldPath segments cannot be empty"
  | .blank => "FieldPath string cannot be empty"

namespace FieldPath

def new (segments : List String) : Except FieldPathFault FieldPath :=
  if nonempty : segments = [] then .error .noSegments
  else if filled : "" ∈ segments then .error .emptySegment
  else .ok ⟨segments, nonempty, filled⟩

/-- The path of a text with dots between the keys. -/
def ofString (text : String) : Except FieldPathFault FieldPath :=
  if Text.trim text = "" then .error .blank else new (Text.split '.' text)

def text (path : FieldPath) : String := Text.join '.' path.segments

def documentIdName : String := "__name__"

/-- The path that stands for the identifier of the document. -/
def documentId : FieldPath := ⟨[documentIdName], by simp, by simp [documentIdName]⟩

def isDocumentId (path : FieldPath) : Bool := path.segments == [documentIdName]

/-- Tells whether one list of keys begins with the other. -/
def overlap (a b : List String) : Bool := a.isPrefixOf b || b.isPrefixOf a

end FieldPath

/-- Replaces the first character of every dot-separated part of a name by its image. -/
def mapHeads (image : Char → List Char) (name : String) : String :=
  let mapHead : List Char → List Char
    | [] => []
    | c :: cs => image c ++ cs
  String.ofList (Text.joinChars '.' ((Text.splitChars '.' name.toList).map mapHead))

/-- The name of a field as it is stored: every part begins in lower case. -/
def wireName (name : String) : String := mapHeads Text.lowerImage name

/-- The name of a field as models declare it: every part begins in upper case. -/
def modelName (name : String) : String := mapHeads Text.upperImage name

end DocumentStore
