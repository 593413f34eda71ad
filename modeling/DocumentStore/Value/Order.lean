import DocumentStore.Lexicographic
import DocumentStore.Value.Basic

/-! # The order of values

Values are ordered first by kind and then by content. Integers and doubles are one kind; an integer
meets a double as the double nearest to it, and not-a-number comes before all numbers. Markers are
all alike in this order. -/

namespace DocumentStore

/-- Integers and doubles compared in one space. -/
inductive Number where
  | integer (n : Int64)
  | double (d : Double)
deriving DecidableEq

namespace Number

def toDouble : Number → Double
  | .integer n => Double.ofInt n.toInt
  | .double d => d

/-- Two integers are compared exactly, any other pair as doubles. -/
def order : Number → Number → Ordering
  | .integer m, .integer n => compare m.toInt n.toInt
  | a, b => a.toDouble.order b.toDouble

end Number

namespace Value

/-- The place of a value's kind in the order of kinds. -/
def rank : Value → Nat
  | .null => 0
  | .boolean _ => 1
  | .integer _ | .double _ => 2
  | .timestamp _ => 3
  | .string _ => 4
  | .bytes _ => 5
  | .reference _ => 6
  | .array _ => 7
  | .map _ => 8
  | _ => 9

mutual

def order : Value → Value → Ordering
  | .boolean a, .boolean b => compare a b
  | .integer a, .integer b => Number.order (.integer a) (.integer b)
  | .integer a, .double b => Number.order (.integer a) (.double b)
  | .double a, .integer b => Number.order (.double a) (.integer b)
  | .double a, .double b => Number.order (.double a) (.double b)
  | .timestamp a, .timestamp b => a.order b
  | .string a, .string b => compare a b
  | .bytes a, .bytes b => lexOrder compare a b
  | .reference a, .reference b => compare a b
  | .array as, .array bs => orderList as bs
  | .map as, .map bs => orderFields as bs
  | a, b => compare a.rank b.rank
termination_by structural a => a

def orderList : List Value → List Value → Ordering
  | [], [] => .eq
  | [], _ :: _ => .lt
  | _ :: _, [] => .gt
  | a :: as, b :: bs => (order a b).then (orderList as bs)
termination_by structural as => as

/-- The comparison of maps, entry by entry, keys before values. -/
def orderFields : Entries Value → Entries Value → Ordering
  | [], [] => .eq
  | [], _ :: _ => .lt
  | _ :: _, [] => .gt
  | (k, a) :: as, (l, b) :: bs => ((compare k l).then (order a b)).then (orderFields as bs)
termination_by structural as => as

end

/-- The comparison of two values of one kind; other pairs and markers do not compare. -/
def orderWithinKind? (a b : Value) : Option Ordering :=
  if a.rank = b.rank ∧ !a.isSentinel then some (order a b) else none

mutual

/-- Equality of markers' contents, with the numbers compared as IEEE 754 compares them. -/
def identical : Value → Value → Bool
  | .null, .null => true
  | .boolean a, .boolean b => a == b
  | .integer a, .integer b => a == b
  | .double a, .double b => a.ieeeEq b
  | .timestamp a, .timestamp b => a == b
  | .string a, .string b => a == b
  | .bytes a, .bytes b => a == b
  | .reference a, .reference b => a == b
  | .array as, .array bs => identicalList as bs
  | .map as, .map bs => identicalFields as bs
  | .serverTimestamp, .serverTimestamp => true
  | .increment a, .increment b => identical a b
  | .arrayUnion as, .arrayUnion bs => identicalList as bs
  | .arrayRemove as, .arrayRemove bs => identicalList as bs
  | .deleteField, .deleteField => true
  | _, _ => false
termination_by structural a => a

def identicalList : List Value → List Value → Bool
  | [], [] => true
  | a :: as, b :: bs => identical a b && identicalList as bs
  | _, _ => false
termination_by structural as => as

def identicalFields : Entries Value → Entries Value → Bool
  | [], [] => true
  | (k, a) :: as, (l, b) :: bs => k == l && identical a b && identicalFields as bs
  | _, _ => false
termination_by structural as => as

end

/-- Equality of values: equal in the order, except that a marker equals only its like. -/
def equal (a b : Value) : Bool :=
  if a.isSentinel || b.isSentinel then identical a b else order a b == .eq

/-- Tells whether some element of a list equals the value. -/
def containedIn (needle : Value) (elements : List Value) : Bool :=
  elements.any fun candidate => candidate.equal needle

end Value

end DocumentStore
