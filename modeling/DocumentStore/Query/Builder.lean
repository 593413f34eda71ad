import DocumentStore.Error
import DocumentStore.Expr.Predicate

/-! # Building queries

A query starts as everything in a collection and is narrowed by calls, each of which returns a new
query or refuses. A refused call leaves the query as it was. -/

namespace DocumentStore

/-- A call that narrows a query. -/
inductive BuildCall where
  /-- Adds the clauses of a predicate. -/
  | matching (predicate : Expr)
  /-- Adds one clause. -/
  | field (field : String) (operator : FilterOperator) (operand : Value)
  /-- Adds a field to the ordering. -/
  | orderBy (field : String) (direction : Direction)
  /-- Adds the field of an expression to the ordering. -/
  | orderByExpr (e : Expr) (direction : Direction)
  /-- Keeps a number of documents from the front. -/
  | limit (n : Nat)
  /-- Keeps a number of documents from the end. -/
  | limitToLast (n : Nat)
  /-- Skips a number of documents. -/
  | skip (n : Nat)
  /-- Cuts the result at a position. -/
  | cursor (method : CursorMethod) (values : List Value)

/-- The cursor of a method, checked against the orderings of a plan. -/
def QueryPlan.boundOf (plan : QueryPlan) (method : CursorMethod) (values : List Value) :
    Except PlanFault Bound :=
  if plan.orders.isEmpty then .error (.cursorUnordered method)
  else if values.isEmpty then .error (.cursorEmpty method)
  else if plan.orders.length < values.length then
    .error (.cursorTooLong method values.length plan.orders.length)
  else if values.any Value.isSentinel then .error (.cursorSentinel method)
  else .ok ⟨values, method.inclusive⟩

namespace Query

def ofCollection (path : String) : Except Error Query := do
  let collection ← (ResourcePath.ofString path).mapError .resource
  if IsCollection collection then return ⟨collection, QueryPlan.empty⟩
  else .error (.notCollection path)

def fieldPath (name : String) : Except Error FieldPath :=
  (FieldPath.ofString name).mapError .fieldPath

def addFilters (query : Query) (filters : List FieldFilter) : Query :=
  { query with plan := { query.plan with filters := query.plan.filters ++ filters } }

/-- The query with one more field in its ordering. -/
def addOrder (query : Query) (order : OrderBy) : Query :=
  { query with plan := { query.plan with orders := query.plan.orders ++ [order] } }

/-- The query with a limit in place of any other. -/
def withLimit (query : Query) (n : Nat) (side : LimitSide) : Query :=
  { query with plan := { query.plan with limit := some n, limitSide := side } }

/-- The query with a cursor in place of the one on the same side. -/
def withBound (query : Query) (method : CursorMethod) (bound : Bound) : Query :=
  if method.isStart then { query with plan := { query.plan with start := some bound } }
  else { query with plan := { query.plan with stop := some bound } }

/-- The query after a call, if the call is not refused. -/
def apply (query : Query) : BuildCall → Except Error Query
  | .matching predicate => do
    let filters ← predicate.compile.mapError .plan
    return query.addFilters filters
  | .field field operator operand => do
    let path ← fieldPath field
    let filter ← (FieldFilter.new path operator operand).mapError .plan
    return query.addFilters [filter]
  | .orderBy field direction => do
    let path ← fieldPath field
    return query.addOrder ⟨path, direction⟩
  | .orderByExpr e direction => do
    let order ← (e.compileOrder direction).mapError .plan
    return query.addOrder order
  | .limit n => if n = 0 then .error (.plan .zeroLimit) else .ok (query.withLimit n .first)
  | .limitToLast n =>
    if n = 0 then .error (.plan .zeroLimitToLast)
    else if query.plan.orders.isEmpty then .error (.plan .lastUnordered)
    else .ok (query.withLimit n .last)
  | .skip n => .ok { query with plan := { query.plan with offset := some n } }
  | .cursor method values => do
    let bound ← (query.plan.boundOf method values).mapError .plan
    return query.withBound method bound

/-- The query after a call, where a refused call changes nothing. -/
def attempt (query : Query) (call : BuildCall) : Query :=
  match query.apply call with
  | .ok next => next
  | .error _ => query

/-- The query after a list of calls, where refused calls change nothing. -/
def attemptAll (query : Query) (calls : List BuildCall) : Query := calls.foldl attempt query

/-- The query after a list of calls, up to the first refusal. -/
def applyAll (query : Query) (calls : List BuildCall) : Except Error Query :=
  calls.foldlM apply query

end Query

end DocumentStore
