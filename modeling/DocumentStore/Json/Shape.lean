import DocumentStore.Json.Basic
import DocumentStore.Number.Shortest
import DocumentStore.Text.Quoted

/-! # JSON values of an unexpected shape

A reader that finds the wrong kind of value says what it found. -/

namespace DocumentStore.Json

def describe : Json → String
  | .null => "null"
  | .bool b => if b then "boolean `true`" else "boolean `false`"
  | .int n => "integer `" ++ Text.writeInteger n ++ "`"
  | .float d => "floating point `" ++ d.jsonText ++ "`"
  | .string s => "string " ++ Text.quote s
  | .array _ => "sequence"
  | .object _ => "map"

end DocumentStore.Json
