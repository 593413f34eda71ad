/-! # Decimal integers of 64 bits

Writing gives a minus sign where one is due and the digits without leading zeros. Reading accepts
one sign and any digits, and takes the digits from the left, so of two faults the first one met is
the one reported. -/

namespace DocumentStore.Text

/-- What can be wrong with the text of an integer. -/
inductive IntegerFault where
  | empty
  | invalidDigit
  | tooLarge
  | tooSmall
deriving DecidableEq, Repr

def IntegerFault.message : IntegerFault → String
  | .empty => "cannot parse integer from empty string"
  | .invalidDigit => "invalid digit found in string"
  | .tooLarge => "number too large to fit in target type"
  | .tooSmall => "number too small to fit in target type"

def digitValue (c : Char) : Nat := c.toNat - '0'.toNat

/-- Appends decimal digits to `acc` as long as the result stays within `limit`. -/
def readDigits (limit : Nat) (beyond : IntegerFault) : List Char → Nat → Except IntegerFault Nat
  | [], acc => .ok acc
  | c :: cs, acc =>
    if c.isDigit then
      if 10 * acc + digitValue c ≤ limit then
        readDigits limit beyond cs (10 * acc + digitValue c)
      else .error beyond
    else .error .invalidDigit

/-- Reads an integer of 64 bits. A sign must be followed by a digit. -/
def readInteger (s : String) : Except IntegerFault Int64 :=
  match s.toList with
  | [] => .error .empty
  | '-' :: c :: cs =>
    (readDigits 0x8000000000000000 .tooSmall (c :: cs) 0).map fun (n : Nat) => Int64.ofInt (-n)
  | '+' :: c :: cs =>
    (readDigits 0x7FFFFFFFFFFFFFFF .tooLarge (c :: cs) 0).map fun (n : Nat) => Int64.ofInt n
  | cs => (readDigits 0x7FFFFFFFFFFFFFFF .tooLarge cs 0).map fun (n : Nat) => Int64.ofInt n

def writeInteger (n : Int) : String :=
  if n < 0 then String.ofList ('-' :: Nat.toDigits 10 n.natAbs)
  else String.ofList (Nat.toDigits 10 n.natAbs)

/-- The decimal digits of `n`, with zeros in front up to `width`. -/
def padDigits (width n : Nat) : List Char :=
  let digits := Nat.toDigits 10 n
  List.replicate (width - digits.length) '0' ++ digits

end DocumentStore.Text
