import DocumentStore.Query.Plan
import DocumentStore.Wire.Value

/-! # Queries sent to a remote store

A remote store understands clauses, an ordering, a limit from the front and cursors with a flag that
puts them before or after the documents at their position. A limit from the end is sent with every
direction flipped and the cursors swapped; whoever sends it reverses the answer. -/

namespace DocumentStore

/-- What keeps a query from being sent. -/
inductive RequestFault where
  | plan (fault : PlanFault)
  | value (fault : ValueFault)

def RequestFault.message : RequestFault → String
  | .plan fault => fault.message
  | .value fault => fault.message

namespace Wire

/-- The name of the operator under which an equality with null or not-a-number travels. -/
def unaryName? (filter : FieldFilter) : Option String :=
  match filter.operator, filter.operand with
  | .equal, .null => some "IS_NULL"
  | .notEqual, .null => some "IS_NOT_NULL"
  | .equal, .double .nan => some "IS_NAN"
  | .notEqual, .double .nan => some "IS_NOT_NAN"
  | _, _ => none

def fieldReference (path : FieldPath) : Json := .object [("fieldPath", .string path.text)]

def encodeFilter (filter : FieldFilter) : Except ValueFault Json :=
  match unaryName? filter with
  | some name =>
    .ok <| .object
      [("unaryFilter", .object [("field", fieldReference filter.field), ("op", .string name)])]
  | none => do
    let value ← encodeValue filter.operand
    return .object
      [("fieldFilter", .object
        [("field", fieldReference filter.field), ("op", .string filter.operator.name),
          ("value", value)])]

def encodeFilters (filters : List FieldFilter) : Except ValueFault Json :=
  match filters with
  | [filter] => encodeFilter filter
  | filters => do
    let clauses ← filters.mapM encodeFilter
    return .object
      [("compositeFilter", .object [("filters", .array clauses), ("op", .string "AND")])]

def encodeOrder (reversed : Bool) (order : OrderBy) : Json :=
  let direction := if reversed then order.direction.flipped else order.direction
  .object [("direction", .string direction.name), ("field", fieldReference order.field)]

/-- A cursor, with the flag that puts it before the documents at its position. -/
def encodeCursor (start : Bool) (bound : Bound) : Except ValueFault Json := do
  let values ← encodeList bound.values
  return .object
    [("before", .bool (if start then bound.inclusive else !bound.inclusive)),
      ("values", .array values)]

def optionalMember (name : String) (content : Option (Except ValueFault Json)) :
    Except ValueFault (List (String × Json)) :=
  match content with
  | none => .ok []
  | some result => result.map fun j => [(name, j)]

def structuredMembers (query : Query) : Except ValueFault (List (String × Json)) := do
  let plan := query.plan
  let reversed := plan.keepsLast
  let source := [("from", Json.array [.object [("collectionId", .string query.collectionId)]])]
  let clauses ← optionalMember "where"
    (if plan.filters.isEmpty then none else some (encodeFilters plan.filters))
  let orders :=
    if plan.orders.isEmpty then []
    else [("orderBy", Json.array (plan.orders.map (encodeOrder reversed)))]
  let limit := plan.limit.toList.map fun (n : Nat) => ("limit", Json.int (n : Nat))
  let start ← optionalMember "startAt"
    ((if reversed then plan.stop else plan.start).map (encodeCursor true))
  let stop ← optionalMember "endAt"
    ((if reversed then plan.start else plan.stop).map (encodeCursor false))
  return source ++ clauses ++ orders ++ limit ++ start ++ stop

/-- A structured query. Plans with an offset cannot be sent. -/
def encodeStructuredQuery (query : Query) : Except RequestFault Json := do
  query.plan.validate.mapError .plan
  if query.plan.offset.isSome then .error (.plan .offset)
  let members ← (structuredMembers query).mapError .value
  return Json.ofMembers members

def encodeQueryRequest (query : Query) : Except RequestFault Json := do
  let structured ← encodeStructuredQuery query
  return Json.ofMembers
    [("parent", .string query.collection.parent.text), ("structuredQuery", structured)]

end Wire

end DocumentStore
