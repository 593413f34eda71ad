import DocumentStore.Text.Quoted
import DocumentStore.Value.Basic

/-! # Predicate expressions

Expressions are plain data. They are given a meaning only when a query turns them into clauses, so a
tree may have any shape, also one that no clause can express. -/

namespace DocumentStore

/-- The comparisons of the expression language. -/
inductive Comparison where
  | eq | ne | lt | le | gt | ge
deriving DecidableEq, Repr

/-- The arithmetic operations of the expression language. -/
inductive Arithmetic where
  | add | sub | mul | div
deriving DecidableEq, Repr

def Arithmetic.name : Arithmetic → String
  | .add => "Add"
  | .sub => "Sub"
  | .mul => "Mul"
  | .div => "Div"

/-- A predicate, an ordering or an operand. -/
inductive Expr where
  /-- A document field by its stored name. -/
  | field (name : String)
  | constant (value : Value)
  /-- A value that the caller computes when the expression is compiled. -/
  | captured (value : Value)
  | list (items : List Expr)
  | compare (op : Comparison) (left right : Expr)
  | arithmetic (op : Arithmetic) (left right : Expr)
  | contains (collection element : Expr)
  | and (left right : Expr)
  | or (left right : Expr)
  | not (inner : Expr)
deriving Inhabited

namespace Expr

/-- The field with a declared name; the name is put into stored letter case. -/
def ofDeclaredName (name : String) : Expr := .field (wireName name)

/-- What an expression is, in the words of messages. -/
def describe : Expr → String
  | .field _ => "a field reference"
  | .constant _ => "a constant"
  | .captured _ => "a captured value"
  | .list _ => "a list"
  | .compare .. => "a comparison"
  | .arithmetic .. => "an arithmetic expression"
  | .contains .. => "a contains() call"
  | .and .. => "a conjunction"
  | .or .. => "a disjunction"
  | .not _ => "a negation"

def isField : Expr → Bool
  | .field _ => true
  | _ => false

end Expr

/-- A handle on one field, from which predicates and single-field updates are made. -/
structure FieldHandle where
  name : String
deriving DecidableEq

namespace FieldHandle

def new (declared : String) : FieldHandle := ⟨wireName declared⟩

def verbatim (stored : String) : FieldHandle := ⟨stored⟩

def declaredName (f : FieldHandle) : String := modelName f.name

def inspect (f : FieldHandle) : String := "Field(" ++ Text.quote f.name ++ ")"

def expr (f : FieldHandle) : Expr := .field f.name

def compare (f : FieldHandle) (op : Comparison) (v : Value) : Expr :=
  .compare op f.expr (.constant v)

def isIn (f : FieldHandle) (values : List Value) : Expr :=
  .contains (.list (values.map .constant)) f.expr

def notIn (f : FieldHandle) (values : List Value) : Expr := .not (f.isIn values)

def contains (f : FieldHandle) (v : Value) : Expr := .contains f.expr (.constant v)

def negated (f : FieldHandle) : Expr := .not f.expr

/-- The update that writes a value, which may be a marker, to the field. -/
def update (f : FieldHandle) (v : Value) : String × Value := (f.name, v)

end FieldHandle

end DocumentStore
