import DocumentStore.Json.Basic
import DocumentStore.Number.Literal
import DocumentStore.Path.Resource
import DocumentStore.Text.Base64
import DocumentStore.Text.Decimal
import DocumentStore.Time.Rfc3339
import DocumentStore.Value.Fault
import DocumentStore.Write.Sentinel

/-! # Typed JSON

Between the client and a remote store a value travels as an object with one member, whose name gives
the kind of the value. Integers travel as texts. A marker travels as a record with a tag, which no
value is mistaken for. Reading looks for the kinds in a fixed order. -/

namespace DocumentStore

/-- What can be wrong with typed JSON that was received. -/
inductive DecodeFault where
  | notTyped
  | booleanType
  | integerText (fault : Text.IntegerFault)
  | integerRange
  | integerType
  | doubleText (fault : Double.LiteralFault)
  | doubleType
  | timestampType
  | timestampText (fault : Timestamp.ReadFault)
  | stringType
  | bytesType
  | bytesText (fault : Text.Base64.Fault)
  | referenceType
  | notFields
  | unknownKind
  | snapshotPath
  | documentPath (fault : PathFault)
  | documentsType
  | notDocuments
  | noSnapshot
deriving DecidableEq

def DecodeFault.message : DecodeFault → String
  | .notTyped => "Expected a typed value object"
  | .booleanType => "booleanValue must be bool"
  | .integerText fault => s!"Invalid integerValue: {fault.message}"
  | .integerRange => "Integer out of range"
  | .integerType => "integerValue must be a string or number"
  | .doubleText fault => s!"Invalid doubleValue: {fault.message}"
  | .doubleType => "doubleValue must be a number or string"
  | .timestampType => "timestampValue must be string"
  | .timestampText fault => s!"Invalid timestamp: {fault.message}"
  | .stringType => "stringValue must be string"
  | .bytesType => "bytesValue must be base64 string"
  | .bytesText fault => s!"Invalid bytesValue: {fault.message}"
  | .referenceType => "referenceValue must be string"
  | .notFields => "Expected an object of fields"
  | .unknownKind => "Unknown typed value"
  | .snapshotPath => "Snapshot is missing its 'path'"
  | .documentPath fault => fault.message
  | .documentsType => "'documents' must be an array"
  | .notDocuments => "Expected a document list"
  | .noSnapshot => "Listen event carries no snapshot"

namespace Wire

def typed (kind : String) (content : Json) : Json := .object [(kind, content)]

def encodeOperand : Value → Except ValueFault Json
  | .integer n => .ok (.int n.toInt)
  | .double d => .ok (Json.ofDouble d)
  | other => .error (.incrementOperand other)

mutual

def encodeValue : Value → Except ValueFault Json
  | .null => .ok (typed "nullValue" .null)
  | .boolean b => .ok (typed "booleanValue" (.bool b))
  | .integer n => .ok (typed "integerValue" (.string (Text.writeInteger n.toInt)))
  | .double d => .ok (typed "doubleValue" (Json.ofDouble d))
  | .timestamp t =>
    match t.writeFull? with
    | some s => .ok (typed "timestampValue" (.string s))
    | none => .error .timestampRange
  | .string s => .ok (typed "stringValue" (.string s))
  | .bytes bs => .ok (typed "bytesValue" (.string (Text.Base64.encode bs)))
  | .reference path => .ok (typed "referenceValue" (.string path))
  | .array elements =>
    (encodeList elements).map fun items => typed "arrayValue" (.object [("values", .array items)])
  | .map fields =>
    (encodeFields fields).map fun members =>
      typed "mapValue" (.object [("fields", .object members)])
  | .serverTimestamp => .ok (.object [(Value.tagKey, .string "serverTimestamp")])
  | .increment operand =>
    (encodeOperand operand).map fun n =>
      .object [(Value.tagKey, .string "increment"), ("value", n)]
  | .arrayUnion elements =>
    (encodeList elements).map fun items =>
      .object [(Value.tagKey, .string "arrayUnion"), ("elements", .array items)]
  | .arrayRemove elements =>
    (encodeList elements).map fun items =>
      .object [(Value.tagKey, .string "arrayRemove"), ("elements", .array items)]
  | .deleteField => .ok (.object [(Value.tagKey, .string "delete")])

/-- The typed JSON of the values of a list. -/
def encodeList : List Value → Except ValueFault (List Json)
  | [] => .ok []
  | v :: vs =>
    match encodeValue v with
    | .error fault => .error fault
    | .ok item =>
      match encodeList vs with
      | .error fault => .error fault
      | .ok items => .ok (item :: items)

def encodeFields : Entries Value → Except ValueFault (List (String × Json))
  | [] => .ok []
  | (key, v) :: fields =>
    match encodeValue v with
    | .error fault => .error fault
    | .ok member =>
      match encodeFields fields with
      | .error fault => .error fault
      | .ok members => .ok ((key, member) :: members)

end

def decodeInteger : Json → Except DecodeFault Int64
  | .string s => (Text.readInteger s).mapError .integerText
  | .int n =>
    match exactInteger? n with
    | some i => .ok i
    | none => .error .integerRange
  | .float _ => .error .integerRange
  | _ => .error .integerType

def decodeDouble : Json → Except DecodeFault Double
  | .float d => .ok d
  | .int n => .ok (Double.ofInt n)
  | .string s => (Double.read s).mapError .doubleText
  | _ => .error .doubleType

/-- The text of a typed value that is written as text. -/
def decodeText (fault : DecodeFault) : Json → Except DecodeFault String
  | .string s => .ok s
  | _ => .error fault

/-- The value of the first simple kind, in the order of kinds, that an object has. -/
def decodeSimple? (members : List (String × Json)) : Option (Except DecodeFault Value) :=
  let find := fun kind => Entries.find? kind members
  if (find "nullValue").isSome then some (.ok .null)
  else if let some j := find "booleanValue" then
    some <| match j with
      | .bool b => .ok (.boolean b)
      | _ => .error .booleanType
  else if let some j := find "integerValue" then some ((decodeInteger j).map .integer)
  else if let some j := find "doubleValue" then some ((decodeDouble j).map .double)
  else if let some j := find "timestampValue" then
    some <| do
      let s ← decodeText .timestampType j
      return .timestamp (← (Timestamp.read s).mapError .timestampText)
  else if let some j := find "stringValue" then some ((decodeText .stringType j).map .string)
  else if let some j := find "bytesValue" then
    some <| do
      let s ← decodeText .bytesType j
      return .bytes (← (Text.Base64.decode s).mapError .bytesText)
  else if let some j := find "referenceValue" then
    some ((decodeText .referenceType j).map .reference)
  else none

mutual

def decodeValue : Json → Except DecodeFault Value
  | .object members =>
    match decodeSimple? members with
    | some result => result
    | none =>
      match arrayMember? members with
      | some result => result.map .array
      | none =>
        match mapMember? members with
        | some result => result.map .map
        | none => .error .unknownKind
  | _ => .error .notTyped
termination_by structural j => j

def decodeList : List Json → Except DecodeFault (List Value)
  | [] => .ok []
  | item :: items =>
    match decodeValue item with
    | .error fault => .error fault
    | .ok v =>
      match decodeList items with
      | .error fault => .error fault
      | .ok vs => .ok (v :: vs)
termination_by structural items => items

def decodeMembers : List (String × Json) → Except DecodeFault Fields
  | [] => .ok []
  | (key, member) :: members =>
    match decodeValue member with
    | .error fault => .error fault
    | .ok v =>
      match decodeMembers members with
      | .error fault => .error fault
      | .ok fields => .ok ((key, v) :: fields)
termination_by structural members => members

/-- The elements of the array that an object holds, if it holds one. -/
def arrayMember? : List (String × Json) → Option (Except DecodeFault (List Value))
  | [] => none
  | (name, j) :: members => if name = "arrayValue" then some (elements j) else arrayMember? members
termination_by structural members => members

/-- The elements below an array; what is no list counts as empty. -/
def elements : Json → Except DecodeFault (List Value)
  | .object members => elementsIn members
  | _ => .ok []
termination_by structural j => j

def elementsIn : List (String × Json) → Except DecodeFault (List Value)
  | [] => .ok []
  | (name, j) :: members => if name = "values" then elementList j else elementsIn members
termination_by structural members => members

def elementList : Json → Except DecodeFault (List Value)
  | .array items => decodeList items
  | _ => .ok []
termination_by structural j => j

/-- The fields of the map that an object holds, if it holds one. -/
def mapMember? : List (String × Json) → Option (Except DecodeFault Fields)
  | [] => none
  | (name, j) :: members => if name = "mapValue" then some (mapFields j) else mapMember? members
termination_by structural members => members

/-- The fields below a map; a map without fields is empty. -/
def mapFields : Json → Except DecodeFault Fields
  | .object members => mapFieldsIn members
  | _ => .ok []
termination_by structural j => j

def mapFieldsIn : List (String × Json) → Except DecodeFault Fields
  | [] => .ok []
  | (name, j) :: members => if name = "fields" then decodeFields j else mapFieldsIn members
termination_by structural members => members

/-- The fields of a JSON value, which has to be an object. -/
def decodeFields : Json → Except DecodeFault Fields
  | .object members => decodeMembers members
  | _ => .error .notFields
termination_by structural j => j

end

end Wire

end DocumentStore
