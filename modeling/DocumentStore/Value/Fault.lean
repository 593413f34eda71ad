import DocumentStore.Number.Shortest
import DocumentStore.Value.Inspect

/-! # Values without a written form

The reasons why a value cannot be given as JSON, or a JSON value cannot be a document. -/

namespace DocumentStore

/-- A reason for refusing to convert a value. -/
inductive ValueFault where
  /-- JSON has no infinities and no not-a-number. -/
  | notFinite (d : Double)
  /-- The timestamp has no calendar date. -/
  | timestampRange
  /-- A marker stands for no value of its own. -/
  | sentinel
  /-- An increment adds a number. -/
  | incrementOperand (operand : Value)
  /-- A document is a record of fields. -/
  | notObject (found : Value)

def ValueFault.message : ValueFault → String
  | .notFinite d => s!"{d.text} cannot be represented as JSON"
  | .timestampRange => "Timestamp out of range"
  | .sentinel => "Sentinel values are write-only and have no JSON representation"
  | .incrementOperand operand =>
    s!"increment() requires a numeric operand, got {operand.inspect}"
  | .notObject found => s!"Document models must serialize to an object, got {found.inspect}"

end DocumentStore
