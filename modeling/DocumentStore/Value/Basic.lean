import DocumentStore.Entries
import DocumentStore.Number.Double
import DocumentStore.Path.Field
import DocumentStore.Time.Timestamp

/-! # Document values

The values that documents hold, and five markers that may stand in their place in a write. A marker
asks for something that depends on the stored document: the time of the write, a sum, a changed array
or the removal of the field. -/

namespace DocumentStore

/-- A document value or a marker for one. -/
inductive Value where
  | null
  | boolean (b : Bool)
  | integer (n : Int64)
  | double (d : Double)
  | timestamp (t : Timestamp)
  | string (s : String)
  | bytes (bs : List UInt8)
  | reference (path : String)
  | array (elements : List Value)
  | map (fields : List (String × Value))
  /-- Stands for the time at which the write is accepted. -/
  | serverTimestamp
  /-- Stands for the stored number plus the operand. -/
  | increment (operand : Value)
  /-- Stands for the stored array with the elements it lacks at its end. -/
  | arrayUnion (elements : List Value)
  /-- Stands for the stored array without the elements. -/
  | arrayRemove (elements : List Value)
  /-- Stands for no field at all. -/
  | deleteField
deriving Inhabited

/-- The fields of a document or of a map, by their keys. -/
abbrev Fields := Entries Value

namespace Value

/-- Tells the markers from the values that can be stored. -/
def isSentinel : Value → Bool
  | .serverTimestamp | .increment _ | .arrayUnion _ | .arrayRemove _ | .deleteField => true
  | _ => false

def isNull : Value → Bool
  | .null => true
  | _ => false

def asBoolean? : Value → Option Bool
  | .boolean b => some b
  | _ => none

def asInteger? : Value → Option Int64
  | .integer n => some n
  | _ => none

/-- The number of an integer or a double, as a double. -/
def asDouble? : Value → Option Double
  | .integer n => some (Double.ofInt n.toInt)
  | .double d => some d
  | _ => none

def asString? : Value → Option String
  | .string s => some s
  | _ => none

def asArray? : Value → Option (List Value)
  | .array elements => some elements
  | _ => none

def asMap? : Value → Option Fields
  | .map fields => some fields
  | _ => none

mutual

/-- Tells the values without a marker at any depth. -/
def isPlain : Value → Bool
  | .array elements => allPlain elements
  | .map fields => allPlainFields fields
  | .serverTimestamp | .increment _ | .arrayUnion _ | .arrayRemove _ | .deleteField => false
  | _ => true

/-- Tells the lists of values without a marker at any depth. -/
def allPlain : List Value → Bool
  | [] => true
  | v :: vs => isPlain v && allPlain vs

/-- Tells the fields without a marker at any depth. -/
def allPlainFields : Entries Value → Bool
  | [] => true
  | (_, v) :: fields => isPlain v && allPlainFields fields

end

end Value

end DocumentStore
