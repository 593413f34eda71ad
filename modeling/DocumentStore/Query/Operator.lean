/-! # Operators and directions of queries

The ten comparisons a clause can make and the two directions of an ordering, each with its name in
requests. -/

namespace DocumentStore

/-- The comparison that a clause makes between a field and its operand. -/
inductive FilterOperator where
  | equal
  | notEqual
  | lessThan
  | lessThanOrEqual
  | greaterThan
  | greaterThanOrEqual
  | arrayContains
  | arrayContainsAny
  | isIn
  | notIn
deriving DecidableEq, Repr

namespace FilterOperator

def all : List FilterOperator :=
  [.equal, .notEqual, .lessThan, .lessThanOrEqual, .greaterThan, .greaterThanOrEqual,
    .arrayContains, .arrayContainsAny, .isIn, .notIn]

def name : FilterOperator → String
  | .equal => "EQUAL"
  | .notEqual => "NOT_EQUAL"
  | .lessThan => "LESS_THAN"
  | .lessThanOrEqual => "LESS_THAN_OR_EQUAL"
  | .greaterThan => "GREATER_THAN"
  | .greaterThanOrEqual => "GREATER_THAN_OR_EQUAL"
  | .arrayContains => "ARRAY_CONTAINS"
  | .arrayContainsAny => "ARRAY_CONTAINS_ANY"
  | .isIn => "IN"
  | .notIn => "NOT_IN"

def ofName? (s : String) : Option FilterOperator := all.find? fun op => op.name == s

/-- The operator that holds with the operands on swapped sides. -/
def swapped : FilterOperator → FilterOperator
  | .lessThan => .greaterThan
  | .lessThanOrEqual => .greaterThanOrEqual
  | .greaterThan => .lessThan
  | .greaterThanOrEqual => .lessThanOrEqual
  | op => op

/-- Tells the operators whose operand is a list of candidates. -/
def takesArray : FilterOperator → Bool
  | .isIn | .notIn | .arrayContainsAny => true
  | _ => false

end FilterOperator

/-- The direction of an ordering. -/
inductive Direction where
  | ascending
  | descending
deriving DecidableEq, Repr

namespace Direction

def name : Direction → String
  | .ascending => "ASCENDING"
  | .descending => "DESCENDING"

def flipped : Direction → Direction
  | .ascending => .descending
  | .descending => .ascending

def apply : Direction → Ordering → Ordering
  | .ascending, o => o
  | .descending, o => o.swap

end Direction

end DocumentStore
