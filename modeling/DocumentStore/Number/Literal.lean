import DocumentStore.Number.Double
import DocumentStore.Text.Decimal

/-! # Reading doubles

A literal is an optional sign before one of the words for infinity and not-a-number, or before
digits with an optional point and an optional exponent. The value is the double nearest to the
decimal, computed exactly. -/

namespace DocumentStore.Double

/-- What can be wrong with the text of a double. -/
inductive LiteralFault where
  | empty
  | invalid
deriving DecidableEq, Repr

def LiteralFault.message : LiteralFault → String
  | .empty => "cannot parse float from empty string"
  | .invalid => "invalid float literal"

def digitsValue (cs : List Char) : Nat :=
  cs.foldl (fun acc c => 10 * acc + Text.digitValue c) 0

/-- The double nearest to `n * 10 ^ k`. Powers far outside the range of doubles are settled by the
number of digits alone. -/
def ofDecimal (negative : Bool) (n : Nat) (k : Int) : Double :=
  if n = 0 then ofRank negative 0
  else
    let top := (Nat.toDigits 10 n).length + k
    if 310 < top then ofRank negative infinityRank
    else if top < -330 then ofRank negative 0
    else nearest negative (n * Nat.pow 10 k.toNat) (Nat.pow 10 (-k).toNat)

def readExponent : List Char → Option Int
  | [] => some 0
  | c :: cs =>
    if c = 'e' ∨ c = 'E' then
      match cs with
      | '-' :: ds => if !ds.isEmpty ∧ ds.all Char.isDigit then some (-(digitsValue ds)) else none
      | '+' :: ds => if !ds.isEmpty ∧ ds.all Char.isDigit then some (digitsValue ds) else none
      | ds => if !ds.isEmpty ∧ ds.all Char.isDigit then some (digitsValue ds) else none
    else none

def readDecimal (negative : Bool) (cs : List Char) : Option Double :=
  let whole := cs.takeWhile Char.isDigit
  let (fraction, rest) :=
    match cs.dropWhile Char.isDigit with
    | '.' :: more => (more.takeWhile Char.isDigit, more.dropWhile Char.isDigit)
    | more => ([], more)
  if whole.isEmpty ∧ fraction.isEmpty then none
  else
    (readExponent rest).map fun e =>
      ofDecimal negative (digitsValue (whole ++ fraction)) (e - fraction.length)

/-- Reads the words for infinity and not-a-number in any letter case. -/
def readWord (negative : Bool) (cs : List Char) : Option Double :=
  let word := String.ofList (cs.map Char.toLower)
  if word = "inf" ∨ word = "infinity" then some (ofRank negative infinityRank)
  else if word = "nan" then some .nan
  else none

def readUnsigned (negative : Bool) (cs : List Char) : Except LiteralFault Double :=
  match (readDecimal negative cs).or (readWord negative cs) with
  | some d => .ok d
  | none => .error .invalid

def read (s : String) : Except LiteralFault Double :=
  match s.toList with
  | [] => .error .empty
  | '-' :: cs => readUnsigned true cs
  | '+' :: cs => readUnsigned false cs
  | cs => readUnsigned false cs

end DocumentStore.Double
