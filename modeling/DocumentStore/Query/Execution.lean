import DocumentStore.Snapshot
import DocumentStore.Value.Order

/-! # Running a query over documents

The documents of the collection that satisfy every clause and have every field of the ordering are
put in order, cut at the cursors, and counted off by the offset and the limit. Ties of the ordering
are broken by the path, so the result does not depend on the order in which documents are given. -/

namespace DocumentStore

/-- The value of a document at a field. The reserved field is a reference to the document. -/
def Snapshot.fieldValue? (s : Snapshot) (field : FieldPath) : Option Value :=
  if field.isDocumentId then some (.reference s.path) else s.get? field

/-- Tells whether a value stands in the relation of an operator to an operand. -/
def FilterOperator.holds (op : FilterOperator) (value operand : Value) : Bool :=
  match op with
  | .equal => value.equal operand
  | .notEqual => !value.equal operand
  | .lessThan => value.orderWithinKind? operand == some .lt
  | .lessThanOrEqual =>
    value.orderWithinKind? operand == some .lt || value.orderWithinKind? operand == some .eq
  | .greaterThan => value.orderWithinKind? operand == some .gt
  | .greaterThanOrEqual =>
    value.orderWithinKind? operand == some .gt || value.orderWithinKind? operand == some .eq
  | .arrayContains =>
    match value.asArray? with
    | some elements => operand.containedIn elements
    | none => false
  | .arrayContainsAny =>
    match value.asArray?, operand.asArray? with
    | some elements, some needles => needles.any fun needle => needle.containedIn elements
    | _, _ => false
  | .isIn =>
    match operand.asArray? with
    | some candidates => value.containedIn candidates
    | none => false
  | .notIn =>
    match operand.asArray? with
    | some candidates => !value.isNull && !value.containedIn candidates
    | none => false

namespace FieldFilter

/-- A document satisfies a clause when it has the field and the field stands in the relation. -/
def accepts (filter : FieldFilter) (s : Snapshot) : Bool :=
  match s.fieldValue? filter.field with
  | some value => filter.operator.holds value filter.operand
  | none => false

end FieldFilter

namespace OrderBy

def value (order : OrderBy) (s : Snapshot) : Value := (s.fieldValue? order.field).getD .null

def compare (order : OrderBy) (s t : Snapshot) : Ordering :=
  order.direction.apply ((order.value s).order (order.value t))

/-- A cursor value as it is compared with a document. For the reserved field a text without a slash
is the identifier of a document of the same collection. -/
def cursorValue (order : OrderBy) (s : Snapshot) (v : Value) : Value :=
  match v with
  | .string id =>
    if order.field.isDocumentId && !id.toList.contains '/' then
      .reference (s.key.collection.append [id]).text
    else .string id
  | v => v

/-- The comparison of a document with one value of a cursor. -/
def compareToCursor (order : OrderBy) (s : Snapshot) (v : Value) : Ordering :=
  order.direction.apply ((order.value s).order (order.cursorValue s v))

end OrderBy

/-- The comparison of two documents by a chain of fields. -/
def compareByChain : List OrderBy → Snapshot → Snapshot → Ordering
  | [], _, _ => .eq
  | order :: orders, s, t => (order.compare s t).then (compareByChain orders s t)

/-- The order of a result: by the chain and then by the path. -/
def compareDocuments (orders : List OrderBy) (s t : Snapshot) : Ordering :=
  (compareByChain orders s t).then (s.key.path.order t.key.path)

/-- The comparison of a document with a cursor, over the orderings for which it has values. -/
def compareToBound : List OrderBy → List Value → Snapshot → Ordering
  | order :: orders, v :: vs, s => (order.compareToCursor s v).then (compareToBound orders vs s)
  | _, _, _ => .eq

namespace Bound

/-- Tells the documents at or after a start cursor. -/
def admitsFrom (bound : Bound) (orders : List OrderBy) (s : Snapshot) : Bool :=
  match compareToBound orders bound.values s with
  | .lt => false
  | .eq => bound.inclusive
  | .gt => true

/-- Tells the documents at or before an end cursor. -/
def admitsUpTo (bound : Bound) (orders : List OrderBy) (s : Snapshot) : Bool :=
  match compareToBound orders bound.values s with
  | .lt => true
  | .eq => bound.inclusive
  | .gt => false

end Bound

namespace Query

/-- The documents a query speaks of: they exist, lie in the collection, satisfy every clause and have
every field of the ordering. -/
def selects (query : Query) (s : Snapshot) : Bool :=
  s.exists? && s.key.collection == query.collection &&
    query.plan.filters.all (fun filter => filter.accepts s) &&
    query.plan.orders.all (fun order => (s.fieldValue? order.field).isSome)

def withinBounds (query : Query) (s : Snapshot) : Bool :=
  query.plan.start.all (fun bound => bound.admitsFrom query.plan.orders s) &&
    query.plan.stop.all (fun bound => bound.admitsUpTo query.plan.orders s)

end Query

namespace QueryPlan

/-- Skips the offset and keeps as many documents as the limit says. -/
def cut {α : Type} (plan : QueryPlan) (documents : List α) : List α :=
  let rest := documents.drop (plan.offset.getD 0)
  match plan.limit with
  | none => rest
  | some limit =>
    match plan.limitSide with
    | .first => rest.take limit
    | .last => rest.drop (rest.length - limit)

end QueryPlan

namespace Query

/-- The result of a query over a list of documents. -/
def run (query : Query) (documents : List Snapshot) : Except PlanFault (List Snapshot) := do
  query.plan.validate
  let selected := documents.filter query.selects
  let sorted := selected.mergeSort fun s t => compareDocuments query.plan.orders s t != .gt
  return query.plan.cut (sorted.filter query.withinBounds)

end Query

end DocumentStore
