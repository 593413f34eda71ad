import DocumentStore.Text.Decimal
import DocumentStore.Time.Calendar
import DocumentStore.Time.Timestamp

/-! # Timestamps as RFC 3339 texts

Writing covers the years that fit the calendar's supported range and gives a chosen number of
fraction digits. Reading goes through the bytes from the left and reports the first fault; the ranges
of the time of day are looked at once the fraction has been read, and the size of the offset last. -/

namespace DocumentStore.Timestamp

/-- What can be wrong with the text of a timestamp. -/
inductive ReadFault where
  | premature
  | invalid
  | outOfRange
  | trailing
deriving DecidableEq, Repr

def ReadFault.message : ReadFault → String
  | .premature => "premature end of input"
  | .invalid => "input contains invalid characters"
  | .outOfRange => "input is out of range"
  | .trailing => "trailing input"

def isDigitByte (b : UInt8) : Bool := 48 ≤ b && b ≤ 57

/-- The natural written by a list of ASCII digits. -/
def digitBytes (bs : List UInt8) : Nat := bs.foldl (fun acc b => 10 * acc + (b.toNat - 48)) 0

def takeNumber (width : Nat) (bs : List UInt8) : Except ReadFault (Nat × List UInt8) :=
  let digits := bs.take width
  if digits.length < width then .error .premature
  else if digits.all isDigitByte then .ok (digitBytes digits, bs.drop width)
  else .error .invalid

def takeByte (p : UInt8 → Bool) : List UInt8 → Except ReadFault (List UInt8)
  | [] => .error .premature
  | b :: bs => if p b then .ok bs else .error .invalid

/-- Takes the fraction of a second in nanoseconds, if one follows. Digits after the ninth are
skipped. -/
def takeFraction : List UInt8 → Except ReadFault (Nat × List UInt8)
  | 46 :: bs =>
    match bs with
    | [] => .error .premature
    | b :: _ =>
      if isDigitByte b then
        let digits := bs.takeWhile isDigitByte
        let used := digits.take 9
        .ok (digitBytes used * Nat.pow 10 (9 - used.length), bs.drop digits.length)
      else .error .invalid
  | bs => .ok (0, bs)

def takeOffsetMinutes : List UInt8 → Except ReadFault (Nat × List UInt8)
  | a :: b :: bs =>
    if isDigitByte a && isDigitByte b then
      if a < 54 then .ok (digitBytes [a, b], bs) else .error .outOfRange
    else .error .invalid
  | _ => .error .premature

/-- Takes the hours and minutes of an offset after its sign, in seconds. -/
def takeOffsetAmount (bs : List UInt8) : Except ReadFault (Nat × List UInt8) := do
  let (hours, bs) ← takeNumber 2 bs
  let bs ← takeByte (· == 58) bs
  let (minutes, bs) ← takeOffsetMinutes bs
  return (hours * 3600 + minutes * 60, bs)

/-- Takes the offset from universal time, in seconds. The minus sign may also be U+2212. -/
def takeOffset : List UInt8 → Except ReadFault (Int × List UInt8)
  | [] => .error .premature
  | 0x5A :: bs => .ok (0, bs)
  | 0x7A :: bs => .ok (0, bs)
  | 0x2B :: bs => (takeOffsetAmount bs).map fun (n, rest) => ((n : Int), rest)
  | 0x2D :: bs => (takeOffsetAmount bs).map fun (n, rest) => (-(n : Int), rest)
  | 0xE2 :: 0x88 :: 0x92 :: bs =>
    (takeOffsetAmount bs).map fun (n, rest) => (-(n : Int), rest)
  | _ => .error .invalid

def takeDate (bs : List UInt8) : Except ReadFault (Date × List UInt8) := do
  let (year, bs) ← takeNumber 4 bs
  let bs ← takeByte (· == 45) bs
  let (month, bs) ← takeNumber 2 bs
  let bs ← takeByte (· == 45) bs
  let (day, bs) ← takeNumber 2 bs
  let date : Date := { year, month, day }
  if date.isValid then return (date, bs) else .error .outOfRange

/-- Reads a timestamp from bytes. Second 60 means second 59 with a thousand million nanoseconds
more. -/
def readBytes (bs : List UInt8) : Except ReadFault Timestamp := do
  if bs.length < 19 then .error .premature
  let (date, bs) ← takeDate bs
  let bs ← takeByte (fun b => b == 0x54 || b == 0x74 || b == 0x20) bs
  let (hour, bs) ← takeNumber 2 bs
  let bs ← takeByte (· == 58) bs
  let (minute, bs) ← takeNumber 2 bs
  let bs ← takeByte (· == 58) bs
  let (second, bs) ← takeNumber 2 bs
  let (fraction, bs) ← takeFraction bs
  if 23 < hour ∨ 59 < minute ∨ 60 < second then .error .outOfRange
  let (offset, bs) ← takeOffset bs
  if !bs.isEmpty then .error .trailing
  if 86400 ≤ offset.natAbs then .error .outOfRange
  let clock : Int := hour * 3600 + minute * 60 + (min second 59 : Nat)
  let nanos := if second = 60 then fraction + nanosPerSecond else fraction
  return new (date.toDays * 86400 + clock - offset) nanos

def read (s : String) : Except ReadFault Timestamp := readBytes s.toUTF8.data.toList

/-- The least number of seconds that has a calendar date. -/
def leastSeconds : Int := -8334601228800

/-- The greatest number of seconds that has a calendar date. -/
def greatestSeconds : Int := 8210266876799

def HasDate (t : Timestamp) : Prop := leastSeconds ≤ t.seconds ∧ t.seconds ≤ greatestSeconds

instance (t : Timestamp) : Decidable t.HasDate := inferInstanceAs (Decidable (_ ∧ _))

/-- A year as it is written: four digits, with a sign outside the years 0 to 9999. -/
def yearDigits (year : Int) : List Char :=
  if 0 ≤ year ∧ year ≤ 9999 then Text.padDigits 4 year.natAbs
  else (if year < 0 then '-' else '+') :: Text.padDigits 4 year.natAbs

/-- The fewest of zero, three, six and nine digits that give the nanoseconds exactly. -/
def exactPlaces (nanos : Nat) : Nat :=
  if nanos = 0 then 0
  else if nanos % 1000000 = 0 then 3
  else if nanos % 1000 = 0 then 6
  else 9

/-- The fraction of a second with the given number of digits. -/
def fractionDigits (places nanos : Nat) : List Char :=
  if places = 0 then [] else '.' :: (Text.padDigits 9 nanos).take places

/-- The text of a timestamp with the given number of fraction digits, if it has a date. -/
def write? (places : Nat) (t : Timestamp) : Option String :=
  if t.HasDate then
    let date := Date.ofDays (t.seconds / 86400)
    let clock := (t.seconds % 86400).toNat
    some <| String.ofList <|
      yearDigits date.year ++ '-' :: Text.padDigits 2 date.month ++
        '-' :: Text.padDigits 2 date.day ++ 'T' :: Text.padDigits 2 (clock / 3600) ++
        ':' :: Text.padDigits 2 (clock / 60 % 60) ++ ':' :: Text.padDigits 2 (clock % 60) ++
        fractionDigits places t.nanos ++ ['Z']
  else none

def writeFull? (t : Timestamp) : Option String := t.write? 9

/-- The text with as few fraction digits as are exact. -/
def writeExact? (t : Timestamp) : Option String := t.write? (exactPlaces t.nanos)

end DocumentStore.Timestamp
