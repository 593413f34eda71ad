import DocumentStore.Entries
import DocumentStore.Number.Double

/-! # JSON values

Integers and floating-point numbers are different numbers, and the members of an object are kept in
the order of their names. -/

namespace DocumentStore

/-- A JSON value. -/
inductive Json where
  | null
  | bool (b : Bool)
  | int (n : Int)
  | float (d : Double)
  | string (s : String)
  | array (items : List Json)
  | object (members : List (String × Json))
deriving Inhabited

namespace Json

def ofMembers (members : List (String × Json)) : Json := .object (Entries.ofList members)

/-- The member of an object; other values have none. -/
def member? (name : String) : Json → Option Json
  | .object members => Entries.find? name members
  | _ => none

/-- A floating-point number as JSON can hold it: infinities and not-a-number become null. -/
def ofDouble (d : Double) : Json := if d.isFinite then .float d else .null

end Json

end DocumentStore
