import DocumentStore.Expr.Fold
import DocumentStore.Value.Fields
import DocumentStore.Value.Order

/-! # Resolving markers

A marker in a write is replaced by a value computed from the value that the field had before and
from the time of the write. Integer sums stop at the ends of the range. -/

namespace DocumentStore.Value

/-- The sum of two integers, cut off at the ends of the range. -/
def saturatingAdd (a b : Int64) : Int64 := Int64.ofIntClamp (a.toInt + b.toInt)

/-- The value of a field after an increment. What is not a number counts as no prior value. -/
def incremented (prior : Option Value) (operand : Value) : Value :=
  match prior, operand with
  | some (.integer current), .integer delta => .integer (saturatingAdd current delta)
  | some (.integer current), operand =>
    .double (Double.ofInt current.toInt + operand.asDouble?.getD (Double.ofRank false 0))
  | some (.double current), operand =>
    .double (current + operand.asDouble?.getD (Double.ofRank false 0))
  | _, operand => operand

/-- The elements of the array that a field held, none if it held no array. -/
def priorElements (prior : Option Value) : List Value := (prior.bind asArray?).getD []

/-- Appends the elements that the list lacks, one after another. -/
def union (elements : List Value) : List Value → List Value
  | [] => elements
  | v :: vs => if v.containedIn elements then union elements vs else union (elements ++ [v]) vs

/-- Drops the elements that equal one of the removed ones. -/
def without (elements removed : List Value) : List Value :=
  elements.filter fun element => !removed.any fun r => element.equal r

/-- The value that a marker stands for, none if the field is to go. Other values stand for
themselves. -/
def resolve (prior : Option Value) (now : Timestamp) : Value → Option Value
  | .serverTimestamp => some (.timestamp now)
  | .increment operand => some (incremented prior operand)
  | .arrayUnion elements => some (.array (union (priorElements prior) elements))
  | .arrayRemove elements => some (.array (without (priorElements prior) elements))
  | .deleteField => none
  | v => some v

/-- The key of the record that is stored or sent in place of a marker. -/
def tagKey : String := "__fieldValue__"

/-- The name of a marker in such a record. -/
def tag : Value → String
  | .serverTimestamp => "serverTimestamp"
  | .increment _ => "increment"
  | .arrayUnion _ => "arrayUnion"
  | .arrayRemove _ => "arrayRemove"
  | _ => "delete"

/-- The record that a set stores for a field marked for removal. -/
def deletionRecord : Value := .map [(tagKey, .string (tag .deleteField))]

end DocumentStore.Value
