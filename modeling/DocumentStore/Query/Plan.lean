import DocumentStore.Path.DocumentKey
import DocumentStore.Query.Fault

/-! # Query plans

A plan lists what a query asks for: clauses that all have to hold, an ordering by several fields, an
offset, a limit counted from the front or from the end, and a cursor on either side. -/

namespace DocumentStore

/-- One clause of a plan. -/
structure FieldFilter where
  field : FieldPath
  operator : FilterOperator
  operand : Value

/-- The clause with the given parts. A marker is no operand, and the operators that take candidates
want at least one. -/
def FieldFilter.new (field : FieldPath) (operator : FilterOperator) (operand : Value) :
    Except PlanFault FieldFilter :=
  if operand.isSentinel then .error (.sentinelOperand field.text)
  else if operator.takesArray then
    match operand with
    | .array (_ :: _) => .ok ⟨field, operator, operand⟩
    | _ => .error (.candidatesMissing operator field.text)
  else .ok ⟨field, operator, operand⟩

/-- One field of an ordering. -/
structure OrderBy where
  field : FieldPath
  direction : Direction
deriving DecidableEq

/-- A position in the order of a query, given by values for its first orderings. -/
structure Bound where
  values : List Value
  /-- Tells whether documents at the position belong to the result. -/
  inclusive : Bool

/-- The end of the result from which a limit counts. -/
inductive LimitSide where
  | first
  | last
deriving DecidableEq, Repr

/-- A compiled query without its collection. -/
structure QueryPlan where
  filters : List FieldFilter
  orders : List OrderBy
  limit : Option Nat
  limitSide : LimitSide
  offset : Option Nat
  start : Option Bound
  stop : Option Bound

namespace QueryPlan

def empty : QueryPlan :=
  { filters := [], orders := [], limit := none, limitSide := .first, offset := none,
    start := none, stop := none }

instance : Inhabited QueryPlan := ⟨empty⟩

def bounds (plan : QueryPlan) : List Bound := plan.start.toList ++ plan.stop.toList

/-- Tells whether a plan keeps a number of documents counted from the end. -/
def keepsLast (plan : QueryPlan) : Bool := plan.limitSide == .last && plan.limit.isSome

/-- Checks what every executor relies on: cursors and limits from the end need an order, and a
cursor is no longer than the order. -/
def validate (plan : QueryPlan) : Except PlanFault Unit :=
  if !plan.bounds.isEmpty && plan.orders.isEmpty then .error .planCursorUnordered
  else
    match plan.bounds.find? fun b => plan.orders.length < b.values.length with
    | some b => .error (.planCursorTooLong b.values.length plan.orders.length)
    | none =>
      if plan.keepsLast && plan.orders.isEmpty then .error .lastUnordered else .ok ()

end QueryPlan

/-- A query over the documents directly inside one collection. -/
structure Query where
  collection : ResourcePath
  plan : QueryPlan
deriving Inhabited

namespace Query

def collectionId (query : Query) : String := query.collection.last?.getD ""

/-- A path is that of a collection when it has an odd number of segments. -/
def IsCollection (path : ResourcePath) : Prop := path.length % 2 = 1

instance (path : ResourcePath) : Decidable (IsCollection path) :=
  inferInstanceAs (Decidable (_ = _))

end Query

end DocumentStore
