/-! # Double-precision numbers

A double is the one not-a-number or a sign with a rank. The rank of a magnitude counts the
magnitudes below it, infinity having the largest, so the order of doubles is the order of signed
ranks. The rank is also the low sixty-three bits of the IEEE 754 encoding. -/

namespace DocumentStore

def infinityRank : Nat := 0x7FF0000000000000

/-- A double-precision number; all encodings of not-a-number are one value. -/
inductive Double where
  | nan
  | signed (negative : Bool) (rank : Nat) (rank_le : rank ≤ infinityRank)
deriving DecidableEq

namespace Double

/-- The number with a sign and a rank, where ranks beyond infinity count as infinity. -/
def ofRank (negative : Bool) (rank : Nat) : Double :=
  .signed negative (min rank infinityRank) (Nat.min_le_right _ _)

def ofBits (bits : UInt64) : Double :=
  if h : bits.toNat % (1 <<< 63) ≤ infinityRank then
    .signed (1 <<< 63 ≤ bits.toNat) (bits.toNat % (1 <<< 63)) h
  else .nan

def toBits : Double → UInt64
  | .nan => 0x7FF8000000000000
  | .signed negative rank _ => UInt64.ofNat (if negative then (1 <<< 63) + rank else rank)

instance : Inhabited Double := ⟨ofRank false 0⟩

/-- Tells the numbers that are neither infinite nor not-a-number. -/
def isFinite : Double → Bool
  | .nan => false
  | .signed _ rank _ => rank < infinityRank

/-- The place of a number on the line of signed ranks; both zeros share place 0. -/
def place? : Double → Option Int
  | .nan => none
  | .signed negative rank _ => some (if negative then -rank else rank)

/-- Equality of IEEE 754: not-a-number equals nothing, and the two zeros are equal. -/
def ieeeEq (a b : Double) : Bool :=
  match a.place?, b.place? with
  | some p, some q => p == q
  | _, _ => false

def order (a b : Double) : Ordering :=
  match a.place?, b.place? with
  | none, none => .eq
  | none, some _ => .lt
  | some _, none => .gt
  | some p, some q => compare p q

/-- The quotient of two naturals rounded to the nearest natural, a half going to the even one. -/
def roundDiv (num den : Nat) : Nat :=
  let q := num / den
  let r := num % den
  if 2 * r < den then q
  else if den < 2 * r then q + 1
  else q + q % 2

/-- The largest `e` with `2 ^ e ≤ num / den`, for positive arguments. -/
def floorLog2 (num den : Nat) : Int :=
  let e : Int := num.log2 - den.log2
  if den <<< e.toNat ≤ num <<< (-e).toNat then e else e - 1

/-- The rank of the magnitude nearest to `num / den`, ties going to the even rank. -/
def nearestRank (num den : Nat) : Nat :=
  if num = 0 then 0
  else
    let e := max (floorLog2 num den - 52) (-1074)
    let q := roundDiv (num <<< (-e).toNat) (den <<< e.toNat)
    ((e + 1074).toNat <<< 52) + q

/-- The number nearest to `num / den` with the given sign. -/
def nearest (negative : Bool) (num den : Nat) : Double :=
  ofRank negative (nearestRank num den)

def ofInt (n : Int) : Double := nearest (n < 0) n.natAbs 1

/-- The magnitude of rank `rank` is `m * 2 ^ e` for the pair `(m, e)`. -/
def scaled (rank : Nat) : Nat × Int :=
  if rank < 1 <<< 52 then (rank, -1074)
  else ((1 <<< 52) + rank % (1 <<< 52), ((rank / (1 <<< 52) : Nat) : Int) - 1075)

def toFloat (d : Double) : Float := Float.ofBits d.toBits

def ofFloat (f : Float) : Double := ofBits f.toBits

instance : Add Double := ⟨fun a b => ofFloat (a.toFloat + b.toFloat)⟩
instance : Sub Double := ⟨fun a b => ofFloat (a.toFloat - b.toFloat)⟩
instance : Mul Double := ⟨fun a b => ofFloat (a.toFloat * b.toFloat)⟩
instance : Div Double := ⟨fun a b => ofFloat (a.toFloat / b.toFloat)⟩

end Double

end DocumentStore
