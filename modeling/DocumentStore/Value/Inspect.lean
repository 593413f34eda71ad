import DocumentStore.Number.Shortest
import DocumentStore.Text.Decimal
import DocumentStore.Text.Quoted
import DocumentStore.Value.Basic

/-! # Values shown in messages

A message that complains about a value shows it with the name of its kind and its whole content. -/

namespace DocumentStore

def commaSeparated (parts : List String) : String := ", ".intercalate parts

namespace Value

def nested (content : String) : String :=
  "FirestoreValue \x7b kind: " ++ content ++ " \x7d"

mutual

def inspect : Value → String
  | .null => "Null"
  | .boolean b => if b then "Boolean(true)" else "Boolean(false)"
  | .integer n => "Integer(" ++ Text.writeInteger n.toInt ++ ")"
  | .double d => "Double(" ++ d.text ++ ")"
  | .timestamp t =>
    "Timestamp(Timestamp \x7b seconds: " ++ Text.writeInteger t.seconds ++ ", nanos: " ++
      Text.writeInteger t.nanos ++ " \x7d)"
  | .string s => "String(" ++ Text.quote s ++ ")"
  | .bytes bs =>
    "Bytes(BytesValue([" ++ commaSeparated (bs.map fun b => Text.writeInteger b.toNat) ++ "]))"
  | .reference path => "Reference(" ++ Text.quote path ++ ")"
  | .array elements =>
    "Array(ArrayValue \x7b values: [" ++ commaSeparated (inspectList elements) ++ "] \x7d)"
  | .map fields =>
    "Map(MapValue \x7b fields: \x7b" ++ commaSeparated (inspectFields fields) ++ "\x7d \x7d)"
  | .serverTimestamp => "Sentinel(ServerTimestamp)"
  | .increment operand => "Sentinel(NumericIncrement(" ++ nested (inspect operand) ++ "))"
  | .arrayUnion elements =>
    "Sentinel(ArrayUnion([" ++ commaSeparated (inspectList elements) ++ "]))"
  | .arrayRemove elements =>
    "Sentinel(ArrayRemove([" ++ commaSeparated (inspectList elements) ++ "]))"
  | .deleteField => "Sentinel(DeleteField)"

/-- The texts that show the values of a list. -/
def inspectList : List Value → List String
  | [] => []
  | v :: vs => nested (inspect v) :: inspectList vs

def inspectFields : Entries Value → List String
  | [] => []
  | (key, v) :: fields => (Text.quote key ++ ": " ++ nested (inspect v)) :: inspectFields fields

end

end Value

end DocumentStore
