import DocumentStore.Expr.Fold
import DocumentStore.Query.Plan

/-! # Predicates as clauses

A predicate is compiled into clauses that all have to hold, in the order in which its atoms are
written. Negations are pushed to the atoms, where each has a clause of its own or none at all. -/

namespace DocumentStore

/-- The operator of a comparison whose field stands on the left. -/
def Comparison.operator : Comparison → FilterOperator
  | .eq => .equal
  | .ne => .notEqual
  | .lt => .lessThan
  | .le => .lessThanOrEqual
  | .gt => .greaterThan
  | .ge => .greaterThanOrEqual

namespace Expr

/-- The field path of a name in a predicate. -/
def fieldPath (name : String) : Except PlanFault FieldPath :=
  (FieldPath.ofString name).mapError (.fieldReference name)

/-- The clause between a named field and a constant expression. The name is looked at first. -/
def clause (name : String) (operator : FilterOperator) (operand : Expr) :
    Except PlanFault FieldFilter := do
  let field ← fieldPath name
  let value ← operand.reduce
  FieldFilter.new field operator value

/-- The clause of a comparison; a field on the right swaps the sides. -/
def compileComparison (op : Comparison) (left right : Expr) : Except PlanFault FieldFilter :=
  match left, right with
  | .field l, .field r => .error (.twoFields l r)
  | .field name, operand => clause name op.operator operand
  | operand, .field name => clause name op.operator.swapped operand
  | _, _ => .error .noBareField

/-- The clause that a field is, or is not, one of a list of constants. -/
def compileMembership (candidates : Expr) (name : String) (negated : Bool) :
    Except PlanFault FieldFilter := do
  match ← candidates.reduce with
  | .array values =>
    let field ← fieldPath name
    FieldFilter.new field (if negated then .notIn else .isIn) (.array values)
  | _ => .error (.receiverNotList name)

def compileContains (collection element : Expr) (negated : Bool) :
    Except PlanFault FieldFilter :=
  match collection, element with
  | .field name, .field _ =>
    if negated then .error (.negatedArrayContains name) else .error .containsShape
  | .field name, operand =>
    if negated then .error (.negatedArrayContains name)
    else clause name .arrayContains operand
  | candidates, .field name => compileMembership candidates name negated
  | _, _ => .error .containsShape

/-- The clause that a field holds a given truth value. -/
def compileFlag (name : String) (b : Bool) : Except PlanFault FieldFilter := do
  let field ← fieldPath name
  FieldFilter.new field .equal (.boolean b)

mutual

def compile : Expr → Except PlanFault (List FieldFilter)
  | .and left right =>
    match compile left with
    | .error fault => .error fault
    | .ok first =>
      match compile right with
      | .error fault => .error fault
      | .ok second => .ok (first ++ second)
  | .or _ _ => .error .disjunction
  | .compare op left right => (compileComparison op left right).map ([·])
  | .contains collection element => (compileContains collection element false).map ([·])
  | .not inner => compileNegation inner
  | .field name => (compileFlag name true).map ([·])
  | .constant v => .error (.noField (.constant v))
  | .captured v => .error (.noField (.captured v))
  | .list items => .error (.noField (.list items))
  | .arithmetic op left right => .error (.noField (.arithmetic op left right))
termination_by structural e => e

def compileNegation : Expr → Except PlanFault (List FieldFilter)
  | .not inner => compile inner
  | .compare .eq left right => (compileComparison .ne left right).map ([·])
  | .compare .ne left right => (compileComparison .eq left right).map ([·])
  | .contains collection element => (compileContains collection element true).map ([·])
  | .field name => (compileFlag name false).map ([·])
  | other => .error (.notNegatable other)
termination_by structural e => e

end

/-- The ordering by an expression, which has to be a bare field. -/
def compileOrder (e : Expr) (direction : Direction) : Except PlanFault OrderBy :=
  match e with
  | .field name => (fieldPath name).map fun field => ⟨field, direction⟩
  | other => .error (.orderNotField other)

end Expr

end DocumentStore
