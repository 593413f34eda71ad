/-! # Identifiers made by the client

A document that is added to a collection without an identifier gets one of twenty letters and digits.
Identifiers are numbered; the one with a number writes the number in the base of the alphabet. -/

namespace DocumentStore.AutoId

def alphabet : List Char :=
  "ABCDEFGHIJKLMNOPQRSTUVWXYZabcdefghijklmnopqrstuvwxyz0123456789".toList

def length : Nat := 20

/-- The last `width` digits of a number in the base of the alphabet. -/
def digits : Nat → Nat → List Char
  | 0, _ => []
  | width + 1, n => digits width (n / alphabet.length) ++ [alphabet.getD (n % alphabet.length) 'A']

def ofNumber (n : Nat) : String := String.ofList (digits length n)

@[simp] theorem length_digits (width n : Nat) : (digits width n).length = width := by
  induction width generalizing n with
  | zero => rfl
  | succ width ih => simp [digits, ih]

end DocumentStore.AutoId
