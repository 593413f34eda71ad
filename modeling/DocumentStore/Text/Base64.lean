/-! # Base64 with canonical padding

Three bytes make four symbols of six bits. A last group of one or two bytes makes two or three
symbols and is filled up with equals signs. Reading insists on the one spelling that writing
produces and names the first fault it meets. -/

namespace DocumentStore.Text.Base64

/-- What can be wrong with a Base64 text. Offsets count bytes from the start. -/
inductive Fault where
  | symbol (byte : UInt8) (offset : Nat)
  | length (n : Nat)
  | padding
  | lastSymbol (byte : UInt8) (offset : Nat)
deriving DecidableEq, Repr

def Fault.message : Fault → String
  | .symbol byte offset => s!"Invalid symbol {byte.toNat}, offset {offset}."
  | .length n => s!"Invalid input length: {n}"
  | .padding => "Invalid padding"
  | .lastSymbol byte offset => s!"Invalid last symbol {byte.toNat}, offset {offset}."

def symbolOf (n : Nat) : Char :=
  if n < 26 then Char.ofNat (n + 65)
  else if n < 52 then Char.ofNat (n - 26 + 97)
  else if n < 62 then Char.ofNat (n - 52 + 48)
  else if n = 62 then '+'
  else '/'

def value? (b : UInt8) : Option Nat :=
  let n := b.toNat
  if 65 ≤ n ∧ n ≤ 90 then some (n - 65)
  else if 97 ≤ n ∧ n ≤ 122 then some (n - 97 + 26)
  else if 48 ≤ n ∧ n ≤ 57 then some (n - 48 + 52)
  else if n = 43 then some 62
  else if n = 47 then some 63
  else none

def pad : UInt8 := 61

def encodeBytes : List UInt8 → List Char
  | [] => []
  | [a] =>
    [symbolOf (a.toNat / 4), symbolOf (a.toNat % 4 * 16), '=', '=']
  | [a, b] =>
    [symbolOf (a.toNat / 4), symbolOf (a.toNat % 4 * 16 + b.toNat / 16),
      symbolOf (b.toNat % 16 * 4), '=']
  | a :: b :: c :: rest =>
    symbolOf (a.toNat / 4) :: symbolOf (a.toNat % 4 * 16 + b.toNat / 16) ::
      symbolOf (b.toNat % 16 * 4 + c.toNat / 64) :: symbolOf (c.toNat % 64) :: encodeBytes rest

def encode (bytes : List UInt8) : String := String.ofList (encodeBytes bytes)

/-- The value of the symbol at `offset`, where only a symbol may stand. -/
def symbolAt (b : UInt8) (offset : Nat) : Except Fault Nat :=
  match value? b with
  | some n => .ok n
  | none => .error (.symbol b offset)

/-- Collects the symbols of the last group. `index` is the place in the group, `firstPad` the place
of the first padding byte met so far, and `pads` the number of them. -/
def lastSymbols (start : Nat) : List UInt8 → Nat → Option Nat → Nat →
    Except Fault (List (UInt8 × Nat) × Nat)
  | [], _, _, pads => .ok ([], pads)
  | b :: rest, index, firstPad, pads =>
    if b = pad then
      if index < 2 then .error (.symbol b (start + index))
      else lastSymbols start rest (index + 1) (firstPad.or (some index)) (pads + 1)
    else
      match firstPad with
      | some place => .error (.symbol pad (start + place))
      | none =>
        match symbolAt b (start + index) with
        | .error fault => .error fault
        | .ok n =>
          match lastSymbols start rest (index + 1) none pads with
          | .error fault => .error fault
          | .ok (symbols, total) => .ok ((b, n) :: symbols, total)

/-- The bytes of the last group, which holds one to four bytes of text. -/
def lastGroup (start : Nat) (group : List UInt8) : Except Fault (List UInt8) :=
  match lastSymbols start group 0 none 0 with
  | .error fault => .error fault
  | .ok (symbols, pads) =>
    if symbols.length < 2 then .error (.length (start + symbols.length))
    else if (symbols.length + pads) % 4 ≠ 0 then .error .padding
    else
      match symbols with
      | [(_, a), (last, b)] =>
        if b % 16 ≠ 0 then .error (.lastSymbol last (start + 1))
        else .ok [UInt8.ofNat (a * 4 + b / 16)]
      | [(_, a), (_, b), (last, c)] =>
        if c % 4 ≠ 0 then .error (.lastSymbol last (start + 2))
        else .ok [UInt8.ofNat (a * 4 + b / 16), UInt8.ofNat (b % 16 * 16 + c / 4)]
      | [(_, a), (_, b), (_, c), (_, d)] =>
        .ok [UInt8.ofNat (a * 4 + b / 16), UInt8.ofNat (b % 16 * 16 + c / 4),
          UInt8.ofNat (c % 4 * 64 + d)]
      | _ => .error .padding

/-- The bytes of all groups. Four bytes of text are a complete group when more text follows. -/
def decodeGroups (start : Nat) : List UInt8 → Except Fault (List UInt8)
  | a :: b :: c :: d :: e :: rest => do
    let a ← symbolAt a start
    let b ← symbolAt b (start + 1)
    let c ← symbolAt c (start + 2)
    let d ← symbolAt d (start + 3)
    let more ← decodeGroups (start + 4) (e :: rest)
    return UInt8.ofNat (a * 4 + b / 16) :: UInt8.ofNat (b % 16 * 16 + c / 4) ::
      UInt8.ofNat (c % 4 * 64 + d) :: more
  | [] => .ok []
  | group => lastGroup start group

/-- A single byte left over by the groups is looked at first: one that is neither a symbol nor
padding is reported before anything else. -/
def strayLast? (bytes : List UInt8) : Option Fault :=
  match bytes.getLast? with
  | some b =>
    if bytes.length % 4 = 1 ∧ b ≠ pad ∧ value? b = none then
      some (.symbol b (bytes.length - 1))
    else none
  | none => none

def decode (s : String) : Except Fault (List UInt8) :=
  let bytes := s.toUTF8.data.toList
  match strayLast? bytes with
  | some fault => .error fault
  | none => decodeGroups 0 bytes

end DocumentStore.Text.Base64
