import DocumentStore.Number.Double
import DocumentStore.Text.Decimal

/-! # Shortest decimal texts of doubles

A number is written with the fewest digits that read back as it, and of those with the digits
nearest to it. The search walks the decimal grids from one digit to seventeen and tests the two
neighbours of the value on each, in exact arithmetic. A layout says what happens to the number that
lies half way between its neighbours, which powers of ten are written out, and how the others are
signed. -/

namespace DocumentStore.Double

/-- The exact comparison of `n * 10 ^ k` with `m * 2 ^ e`. -/
def comparesTo (n : Nat) (k : Int) (m : Nat) (e : Int) : Ordering :=
  compare ((n * Nat.pow 10 k.toNat) <<< (-e).toNat) ((m * Nat.pow 10 (-k).toNat) <<< e.toNat)

/-- Tells whether the decimal `n * 10 ^ k` reads back as the magnitude `m * 2 ^ e`. The interval
that does so ends half way to the neighbours, which are closer below a power of two; the ends
belong to it when `m` is even. -/
def readsBack (m : Nat) (e : Int) (n : Nat) (k : Int) : Bool :=
  let low := if m = 1 <<< 52 ∧ -1074 < e then 4 * m - 1 else 4 * m - 2
  let high := 4 * m + 2
  match comparesTo n k low (e - 2), comparesTo n k high (e - 2) with
  | .gt, .lt => true
  | .eq, _ => m % 2 = 0
  | _, .eq => m % 2 = 0
  | _, _ => false

def digitCount (n : Nat) : Nat := (Nat.toDigits 10 n).length

/-- The largest `k` with `10 ^ k ≤ num / den`, for positive arguments. -/
def floorLog10 (num den : Nat) : Int :=
  if den ≤ num then digitCount (num / den) - 1
  else if (den - 1) / num = 0 then 0
  else -(digitCount ((den - 1) / num) : Int)

/-- The way in which a number half way between two decimals is rounded. -/
inductive Tie where
  | up
  | toEven
deriving DecidableEq, Repr

/-- Tells whether a tie goes to the decimal below it. -/
def Tie.goesDown (below : Nat) : Tie → Bool
  | .up => false
  | .toEven => below % 2 == 0

/-- How a number is laid out as text. -/
structure Layout where
  tie : Tie
  /-- Tells the powers of ten of a first digit at which no exponent is written. -/
  positional : Int → Bool
  /-- Tells whether an exponent that is not negative has a plus sign. -/
  signed : Bool

/-- The decimal on the grid of spacing `10 ^ k` that reads back as `m * 2 ^ e`. If both neighbours
do it is the nearer one. -/
def onGrid? (tie : Tie) (m : Nat) (e : Int) (k : Int) : Option Nat :=
  let num := (m * Nat.pow 10 (-k).toNat) <<< e.toNat
  let den := (Nat.pow 10 k.toNat) <<< (-e).toNat
  let below := num / den
  match readsBack m e below k, readsBack m e (below + 1) k with
  | true, true =>
    let down := 2 * (num % den) < den || (2 * (num % den) == den && tie.goesDown below)
    some (if down then below else below + 1)
  | true, false => some below
  | false, true => some (below + 1)
  | false, false => none

/-- Tries the grids of `digits` and more significant digits below `10 ^ (top + 1)`. -/
def searchGrids (tie : Tie) (m : Nat) (e : Int) (top : Int) : Nat → Nat → Nat × Int
  | 0, digits => ((onGrid? tie m e (top - digits + 1)).getD 0, top - digits + 1)
  | tries + 1, digits =>
    match onGrid? tie m e (top - digits + 1) with
    | some n => (n, top - digits + 1)
    | none => searchGrids tie m e top tries (digits + 1)

/-- The significant digits of a positive magnitude and the power of ten of the first one. -/
def shortestDigits (tie : Tie) (m : Nat) (e : Int) : List Char × Int :=
  let top := floorLog10 (m <<< e.toNat) (1 <<< (-e).toNat)
  let (n, k) := searchGrids tie m e top 17 1
  let digits := Nat.toDigits 10 n
  let kept := (digits.reverse.dropWhile (· == '0')).reverse
  (kept, k + digits.length - 1)

/-- Digits written around the decimal point, with at least one on each side of it. -/
def positionalDigits (digits : List Char) (first : Int) : List Char :=
  if first < 0 then
    ['0', '.'] ++ List.replicate (-first - 1).toNat '0' ++ digits
  else
    let whole := digits.take (first.toNat + 1)
    let zeros := List.replicate (first.toNat + 1 - whole.length) '0'
    let fraction := digits.drop (first.toNat + 1)
    whole ++ zeros ++ ['.'] ++ (if fraction.isEmpty then ['0'] else fraction)

/-- An exponent, with a plus sign if `signed` asks for one and it is not negative. -/
def exponentDigits (signed : Bool) (exponent : Int) : List Char :=
  let digits := (Text.writeInteger exponent).toList
  if signed && 0 ≤ exponent then '+' :: digits else digits

/-- Digits written with a power of ten behind them. -/
def exponentialDigits (signed : Bool) (digits : List Char) (first : Int) : List Char :=
  match digits with
  | [] => ['0']
  | [d] => d :: 'e' :: exponentDigits signed first
  | d :: rest => d :: '.' :: rest ++ 'e' :: exponentDigits signed first

def writeWith (layout : Layout) : Double → String
  | .nan => "NaN"
  | .signed negative rank _ =>
    let magnitude :=
      if rank = infinityRank then ['i', 'n', 'f']
      else if rank = 0 then ['0', '.', '0']
      else
        let (digits, first) := shortestDigits layout.tie (scaled rank).1 (scaled rank).2
        if layout.positional first then positionalDigits digits first
        else exponentialDigits layout.signed digits first
    String.ofList (if negative then '-' :: magnitude else magnitude)

/-- The layout of messages: positional from a ten-thousandth up to ten to the sixteenth. -/
def messageLayout : Layout := ⟨.up, fun first => -4 ≤ first && first < 16, false⟩

/-- The layout of JSON: positional one step further down, and exponents have a sign. -/
def jsonLayout : Layout := ⟨.toEven, fun first => -5 ≤ first && first < 16, true⟩

def text (d : Double) : String := writeWith messageLayout d

/-- The text of a number as JSON writes it. -/
def jsonText (d : Double) : String := writeWith jsonLayout d

end DocumentStore.Double
