import DocumentStore.Expr.Basic
import DocumentStore.Query.Operator
import DocumentStore.Value.Inspect

/-! # What can be wrong with a query

Every way in which a predicate, a clause, a limit, a cursor or a whole plan can be refused. -/

namespace DocumentStore

/-- The cursor methods of a query. -/
inductive CursorMethod where
  | startAt
  | startAfter
  | endAt
  | endBefore
deriving DecidableEq, Repr

namespace CursorMethod

def name : CursorMethod → String
  | .startAt => "start_at"
  | .startAfter => "start_after"
  | .endAt => "end_at"
  | .endBefore => "end_before"

/-- Tells whether documents at the cursor belong to the result. -/
def inclusive : CursorMethod → Bool
  | .startAt | .endAt => true
  | .startAfter | .endBefore => false

/-- Tells whether the cursor bounds the result from below. -/
def isStart : CursorMethod → Bool
  | .startAt | .startAfter => true
  | .endAt | .endBefore => false

end CursorMethod

/-- A reason for refusing a query. -/
inductive PlanFault where
  /-- A marker is no operand of a clause. -/
  | sentinelOperand (field : String)
  /-- The operator wants a list of candidates. -/
  | candidatesMissing (operator : FilterOperator) (field : String)
  /-- Only a bare field can be ordered by. -/
  | orderNotField (found : Expr)
  /-- Alternatives are no conjunction of clauses. -/
  | disjunction
  /-- The predicate does not mention a field. -/
  | noField (found : Expr)
  /-- The negation has no clause. -/
  | notNegatable (found : Expr)
  /-- Both sides of a comparison are fields. -/
  | twoFields (left right : String)
  /-- Neither side of a comparison is a bare field. -/
  | noBareField
  /-- The receiver of a membership test is not a list. -/
  | receiverNotList (field : String)
  /-- No clause says that an array lacks an element. -/
  | negatedArrayContains (field : String)
  /-- A membership test needs one field and one constant. -/
  | containsShape
  /-- Only truth values can be negated. -/
  | negatedConstant
  /-- A field stands where a constant is needed. -/
  | fieldInOperand (field : String)
  /-- The expression denotes no constant. -/
  | notConstant (found : Expr)
  /-- The operands of an arithmetic operation have no result. -/
  | cannotFold (op : Arithmetic) (left right : Value)
  /-- The name of a field is not a field path. -/
  | fieldReference (name : String) (fault : FieldPathFault)
  /-- A limit of no documents. -/
  | zeroLimit
  /-- A limit of no documents from the end. -/
  | zeroLimitToLast
  /-- A limit from the end without an order. -/
  | lastUnordered
  /-- A cursor without an order. -/
  | cursorUnordered (method : CursorMethod)
  /-- A cursor without values. -/
  | cursorEmpty (method : CursorMethod)
  /-- A cursor with more values than there are orderings. -/
  | cursorTooLong (method : CursorMethod) (values orders : Nat)
  /-- A cursor with a marker among its values. -/
  | cursorSentinel (method : CursorMethod)
  /-- A plan with a cursor and no order. -/
  | planCursorUnordered
  /-- A plan with a cursor longer than its order. -/
  | planCursorTooLong (values orders : Nat)
  /-- A plan with an offset, for a store that pages by cursors only. -/
  | offset

def PlanFault.message : PlanFault → String
  | .sentinelOperand field =>
    s!"Sentinel values cannot be used as filter operands (field '{field}')"
  | .candidatesMissing operator field =>
    s!"Operator {operator.name} on '{field}' requires a non-empty array operand"
  | .orderNotField found =>
    s!"Ordering requires a direct field reference, got {found.describe}"
  | .disjunction =>
    "Disjunctions (OR) are not supported by the backing store; run separate queries instead"
  | .noField found => s!"Predicate {found.describe} does not reference any field"
  | .notNegatable found =>
    s!"Negation of {found.describe} cannot be expressed as a query clause"
  | .twoFields left right =>
    s!"Comparison between two fields ('{left}' and '{right}') is not supported"
  | .noBareField => "Comparison must have a direct field reference on exactly one side"
  | .receiverNotList field =>
    s!"contains() on '{field}' requires a list of constants as the receiver"
  | .negatedArrayContains field => s!"Negated array-contains on '{field}' is not supported"
  | .containsShape =>
    "contains() must be called on a field with a constant, or on a list of constants with a field"
  | .negatedConstant => "Negation of a non-boolean constant"
  | .fieldInOperand field => s!"Field '{field}' cannot appear inside a computed operand"
  | .notConstant found => s!"{found.describe} cannot be reduced to a constant"
  | .cannotFold op left right =>
    s!"Cannot fold {op.name} over {left.inspect} and {right.inspect}"
  | .fieldReference name fault => s!"Invalid field reference '{name}': {fault.message}"
  | .zeroLimit => "limit must be greater than zero"
  | .zeroLimitToLast => "limit_to_last must be greater than zero"
  | .lastUnordered => "limit_to_last requires at least one order_by clause"
  | .cursorUnordered method =>
    s!"{method.name}() requires the query to be ordered; call order_by() first"
  | .cursorEmpty method => s!"{method.name}() requires at least one value"
  | .cursorTooLong method values orders =>
    s!"{method.name}() has {values} values but the query only orders by {orders} fields"
  | .cursorSentinel method => s!"{method.name}() values cannot be sentinels"
  | .planCursorUnordered =>
    "Cursors (start_at/start_after/end_at/end_before) require at least one order_by clause"
  | .planCursorTooLong values orders =>
    s!"Cursor has {values} values but the query only orders by {orders} fields"
  | .offset =>
    "Offsets are not supported by the remote store; paginate with cursors instead"

end DocumentStore
