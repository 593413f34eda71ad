import DocumentStore.Write.Operation
import DocumentStore.Write.Sentinel

/-! # Payloads of writes

The data that callers hand to a write is checked before it becomes a write. Keys must make valid
field paths, a marker may only stand where a whole field is written, an increment needs a number, and
the paths of an update must not overlap. -/

namespace DocumentStore

/-- What can be wrong with the data of a write. -/
inductive PayloadFault where
  | fieldPath (fault : FieldPathFault)
  /-- A marker stands inside a value. -/
  | nestedSentinel (path : String)
  /-- An increment adds a number. -/
  | incrementOperand (path : String)
  /-- An update names at least one field. -/
  | emptyUpdate
  /-- Two paths of an update lead to the same place or one through the other. -/
  | overlap (earlier later : String)
deriving DecidableEq

def PayloadFault.message : PayloadFault → String
  | .fieldPath fault => fault.message
  | .nestedSentinel path =>
    s!"Invalid data. Sentinel values cannot be nested inside arrays or update values (field '{path}')."
  | .incrementOperand path => s!"increment() on '{path}' requires a numeric operand"
  | .emptyUpdate => "update_doc requires at least one field/value pair"
  | .overlap earlier later =>
    s!"Field paths '{earlier}' and '{later}' overlap in the same update"

namespace Payload

def pathText (keys : List String) : String := Text.join '.' keys

/-- Checks a marker that stands in the place of the field at `keys`. -/
def checkSentinel (keys : List String) : Value → Except PayloadFault Unit
  | .arrayUnion elements | .arrayRemove elements =>
    if Value.allPlain elements then .ok () else .error (.nestedSentinel (pathText keys))
  | .increment (.integer _) | .increment (.double _) => .ok ()
  | .increment _ => .error (.incrementOperand (pathText keys))
  | _ => .ok ()

/-- Checks the value to be written at `keys` as a whole: a marker by its own rule, anything else for
markers inside it. -/
def checkWhole (keys : List String) (v : Value) : Except PayloadFault Unit :=
  if v.isSentinel then checkSentinel keys v
  else if v.isPlain then .ok ()
  else .error (.nestedSentinel (pathText keys))

mutual

/-- The value that a set writes at `keys`; the maps in it may hold markers in their turn. -/
def setValue (keys : List String) : Value → Except PayloadFault Value
  | .deleteField => .ok Value.deletionRecord
  | .map fields => (setFields keys fields).map .map
  | v => (checkWhole keys v).map fun _ => v

def setFields (keys : List String) : Entries Value → Except PayloadFault Fields
  | [] => .ok []
  | (key, v) :: fields =>
    if key = "" then .error (.fieldPath .emptySegment)
    else
      match setValue (keys ++ [key]) v with
      | .error fault => .error fault
      | .ok next =>
        match setFields keys fields with
        | .error fault => .error fault
        | .ok rest => .ok ((key, next) :: rest)

end

/-- The data of a set in the form in which it is written. -/
def encodeSet (data : Fields) : Except PayloadFault Fields := setFields [] data

/-- The data of an update in the form in which it is written: the nested record, and the paths in
the order of the payload. -/
structure UpdateData where
  data : Fields
  paths : List FieldPath

/-- Adds one field of an update to those before it. -/
def UpdateData.add (earlier : UpdateData) (name : String) (v : Value) :
    Except PayloadFault UpdateData := do
  let path ← (FieldPath.ofString name).mapError .fieldPath
  match earlier.paths.find? fun p => FieldPath.overlap p.segments path.segments with
  | some conflict => .error (.overlap conflict.text path.text)
  | none =>
    checkWhole path.segments v
    return ⟨Fields.put path.segments v earlier.data, earlier.paths ++ [path]⟩

/-- Adds the fields of an update one after another. -/
def addUpdates : UpdateData → List (String × Value) → Except PayloadFault UpdateData
  | earlier, [] => .ok earlier
  | earlier, (name, v) :: rest => do
    let next ← earlier.add name v
    addUpdates next rest

/-- The data of an update whose keys are dotted paths. -/
def encodeUpdate (data : Fields) : Except PayloadFault UpdateData :=
  if data.isEmpty then .error .emptyUpdate else addUpdates ⟨[], []⟩ data

end Payload

end DocumentStore
