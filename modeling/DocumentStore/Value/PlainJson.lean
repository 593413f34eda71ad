import DocumentStore.Json.Basic
import DocumentStore.Text.Base64
import DocumentStore.Time.Rfc3339
import DocumentStore.Value.Fault

/-! # Values as plain JSON

Plain JSON is what models are made of. Numbers keep their kind both ways. Timestamps, bytes and
references have a text form in JSON and do not come back as what they were. -/

namespace DocumentStore.Value

/-- The value of a JSON number given as an integer; one beyond 64 bits becomes the nearest double. -/
def ofJsonInteger (n : Int) : Value :=
  if -0x8000000000000000 ≤ n ∧ n < 0x8000000000000000 then .integer (Int64.ofInt n)
  else .double (Double.ofInt n)

mutual

def ofJson : Json → Value
  | .null => .null
  | .bool b => .boolean b
  | .int n => ofJsonInteger n
  | .float d => .double d
  | .string s => .string s
  | .array items => .array (ofJsonList items)
  | .object members => .map (ofJsonMembers members)

/-- The values that a list of JSON values stands for. -/
def ofJsonList : List Json → List Value
  | [] => []
  | item :: items => ofJson item :: ofJsonList items

/-- The fields that the members of an object stand for. -/
def ofJsonMembers : List (String × Json) → Entries Value
  | [] => []
  | (name, member) :: members => (name, ofJson member) :: ofJsonMembers members

end

mutual

/-- The JSON value of a document value, if it has one. -/
def toJson : Value → Except ValueFault Json
  | .null => .ok .null
  | .boolean b => .ok (.bool b)
  | .integer n => .ok (.int n.toInt)
  | .double d => if d.isFinite then .ok (.float d) else .error (.notFinite d)
  | .timestamp t =>
    match t.writeExact? with
    | some s => .ok (.string s)
    | none => .error .timestampRange
  | .string s => .ok (.string s)
  | .bytes bs => .ok (.string (Text.Base64.encode bs))
  | .reference path => .ok (.string path)
  | .array elements => (toJsonList elements).map .array
  | .map fields => (toJsonFields fields).map .object
  | .serverTimestamp | .increment _ | .arrayUnion _ | .arrayRemove _ | .deleteField =>
    .error .sentinel

/-- The JSON values of a list, or the first reason why one of them has none. -/
def toJsonList : List Value → Except ValueFault (List Json)
  | [] => .ok []
  | v :: vs =>
    match toJson v with
    | .error fault => .error fault
    | .ok item =>
      match toJsonList vs with
      | .error fault => .error fault
      | .ok items => .ok (item :: items)

/-- The JSON members of fields, or the first reason why one of them has none. -/
def toJsonFields : Entries Value → Except ValueFault (List (String × Json))
  | [] => .ok []
  | (key, v) :: fields =>
    match toJson v with
    | .error fault => .error fault
    | .ok member =>
      match toJsonFields fields with
      | .error fault => .error fault
      | .ok members => .ok ((key, member) :: members)

end

end DocumentStore.Value

namespace DocumentStore.Fields

/-- The fields of a document given as plain JSON. -/
def ofJson (j : Json) : Except ValueFault Fields :=
  match Value.ofJson j with
  | .map fields => .ok fields
  | other => .error (.notObject other)

def toJson (fields : Fields) : Except ValueFault Json := (Value.map fields).toJson

end DocumentStore.Fields
