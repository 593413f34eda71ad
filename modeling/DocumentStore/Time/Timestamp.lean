/-! # Timestamps

A timestamp is a whole number of seconds since the epoch and a nanosecond part below one second.
It denotes the instant `seconds * 10 ^ 9 + nanos`, counted in nanoseconds, also before the epoch. -/

namespace DocumentStore

def nanosPerSecond : Nat := 1000000000

/-- A point in time with nanosecond precision. Every timestamp is one that `Timestamp.new` makes: records
with whole seconds among their nanoseconds, which could be put together field by field, are left out. -/
structure Timestamp where
  seconds : Int
  nanos : Nat
  nanos_lt : nanos < nanosPerSecond
deriving DecidableEq

namespace Timestamp

/-- The timestamp of a count of seconds and any count of nanoseconds; whole seconds among the
nanoseconds are carried over. -/
def new (seconds nanos : Int) : Timestamp where
  seconds := seconds + nanos / nanosPerSecond
  nanos := (nanos % nanosPerSecond).toNat
  nanos_lt := by
    have : (0 : Int) < (nanosPerSecond : Nat) := by decide
    have := Int.emod_lt_of_pos nanos this
    omega

instance : Inhabited Timestamp := ⟨new 0 0⟩

/-- The count of nanoseconds from the epoch to a timestamp. Before the epoch the whole seconds are
counted back from it, by their absolute number, and the nanoseconds forward again. -/
def instant (t : Timestamp) : Int :=
  if 0 ≤ t.seconds then t.seconds.toNat * nanosPerSecond + t.nanos
  else 0 - t.seconds.natAbs * nanosPerSecond + t.nanos

/-- The timestamp of a count of nanoseconds from the epoch. Before the epoch the count is taken
apart as an absolute duration whose two parts are negated. -/
def ofInstant (n : Int) : Timestamp :=
  if 0 ≤ n then new (n / nanosPerSecond) (n % nanosPerSecond)
  else new (-(-n / nanosPerSecond)) (-(-n % nanosPerSecond))

def order (a b : Timestamp) : Ordering :=
  (compare a.seconds b.seconds).then (compare a.nanos b.nanos)

def addSeconds (t : Timestamp) (n : Int) : Timestamp := { t with seconds := t.seconds + n }

end Timestamp

end DocumentStore
