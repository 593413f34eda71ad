import DocumentStore.Query.Fault
import DocumentStore.Value.Order

/-! # Constant operands

An operand of a predicate may be computed from constants. Folding gives the value that such an
expression denotes, or the first reason, from the left, why it denotes none. Integer arithmetic is
exact or fails; it never wraps and never turns into floating-point arithmetic. -/

namespace DocumentStore

/-- The integer of 64 bits with the given value, if there is one. -/
def exactInteger? (n : Int) : Option Int64 :=
  if -0x8000000000000000 ≤ n ∧ n < 0x8000000000000000 then some (Int64.ofInt n) else none

namespace Arithmetic

/-- An operation on integers: the exact result if it fits, division truncating toward zero. -/
def onIntegers? (op : Arithmetic) (a b : Int64) : Option Int64 :=
  match op with
  | .add => exactInteger? (a.toInt + b.toInt)
  | .sub => exactInteger? (a.toInt - b.toInt)
  | .mul => exactInteger? (a.toInt * b.toInt)
  | .div => if b.toInt = 0 then none else exactInteger? (a.toInt.tdiv b.toInt)

def onDoubles (op : Arithmetic) (a b : Double) : Double :=
  match op with
  | .add => a + b
  | .sub => a - b
  | .mul => a * b
  | .div => a / b

/-- An operation on two other values, through their numbers. -/
def onNumbers? (op : Arithmetic) (a b : Value) : Option Value :=
  match a.asDouble?, b.asDouble? with
  | some x, some y => some (.double (op.onDoubles x y))
  | _, _ => none

/-- An operation on values. Texts can be added, which joins them. -/
def onValues? (op : Arithmetic) (a b : Value) : Option Value :=
  match a, b with
  | .integer m, .integer n => (op.onIntegers? m n).map .integer
  | .string s, .string t => if op = .add then some (.string (s ++ t)) else none
  | a, b => op.onNumbers? a b

def fold (op : Arithmetic) (a b : Value) : Except PlanFault Value :=
  match op.onValues? a b with
  | some v => .ok v
  | none => .error (.cannotFold op a b)

end Arithmetic

def Comparison.holds (op : Comparison) (a b : Value) : Bool :=
  match op with
  | .eq => a.equal b
  | .ne => !a.equal b
  | .lt => a.order b == .lt
  | .le => a.order b != .gt
  | .gt => a.order b == .gt
  | .ge => a.order b != .lt

namespace Expr

mutual

def reduce : Expr → Except PlanFault Value
  | .constant v => .ok v
  | .captured v => .ok v
  | .list items =>
    match reduceList items with
    | .ok values => .ok (.array values)
    | .error fault => .error fault
  | .arithmetic op left right =>
    match reduce left with
    | .error fault => .error fault
    | .ok a =>
      match reduce right with
      | .error fault => .error fault
      | .ok b => op.fold a b
  | .compare op left right =>
    match reduce left with
    | .error fault => .error fault
    | .ok a =>
      match reduce right with
      | .error fault => .error fault
      | .ok b => .ok (.boolean (op.holds a b))
  | .not inner =>
    match reduce inner with
    | .error fault => .error fault
    | .ok (.boolean b) => .ok (.boolean !b)
    | .ok _ => .error .negatedConstant
  | .field name => .error (.fieldInOperand name)
  | .contains collection element => .error (.notConstant (.contains collection element))
  | .and left right => .error (.notConstant (.and left right))
  | .or left right => .error (.notConstant (.or left right))

def reduceList : List Expr → Except PlanFault (List Value)
  | [] => .ok []
  | item :: items =>
    match reduce item with
    | .error fault => .error fault
    | .ok v =>
      match reduceList items with
      | .error fault => .error fault
      | .ok vs => .ok (v :: vs)

end

end Expr

end DocumentStore
