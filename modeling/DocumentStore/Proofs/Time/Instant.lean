import DocumentStore.Proofs.Number.Integers
import DocumentStore.Time.Timestamp

/-! # Timestamps denote instants

An instant is a count of nanoseconds from the epoch, in the integers without bounds. Seconds and
nanoseconds of any sign are brought into the one form in which the nanoseconds lie below one second and
are not negative, and this form tells instants apart: it is compared as they are, and it is found again
from its instant, whichever side of the epoch that lies on. -/

namespace DocumentStore.Timestamp

variable {a b t : Timestamp}

private theorem seconds_new (seconds nanos : Int) :
    (new seconds nanos).seconds = seconds + nanos / 10 ^ 9 := rfl

private theorem nanos_new (seconds nanos : Int) : ((new seconds nanos).nanos : Int) = nanos % 10 ^ 9 :=
  Int.toNat_of_nonneg (Int.emod_nonneg nanos (by decide))

/-- Counting back from the epoch comes to the same as counting in seconds below zero. -/
theorem instant_eq (t : Timestamp) : t.instant = t.seconds * 10 ^ 9 + t.nanos := by
  have unit : (nanosPerSecond : Int) = 10 ^ 9 := rfl
  rw [instant, unit]
  split <;> omega

/-- Whole seconds among the nanoseconds are carried over, also from below zero. -/
theorem instant_new (seconds nanos : Int) :
    (new seconds nanos).instant = seconds * 10 ^ 9 + nanos := by
  have split := Int.emod_add_mul_ediv nanos (10 ^ 9)
  rw [instant_eq, seconds_new, nanos_new]
  omega

/-- Comparing the seconds first and the nanoseconds at a tie compares the instants, because the
nanoseconds never make up for a whole second. -/
theorem order_eq_compare (a b : Timestamp) : a.order b = compare a.instant b.instant := by
  have ha : a.nanos < 10 ^ 9 := a.nanos_lt
  have hb : b.nanos < 10 ^ 9 := b.nanos_lt
  rw [order, instant_eq, instant_eq]
  rcases lt_trichotomy a.seconds b.seconds with before | same | after
  · rw [compare_lt_iff_lt.mpr before, Ordering.lt_then, eq_comm, compare_lt_iff_lt]
    omega
  · rw [same, compare_eq_iff_eq.mpr rfl, Ordering.eq_then]
    rcases lt_trichotomy a.nanos b.nanos with before | same | after
    · rw [compare_lt_iff_lt.mpr before, eq_comm, compare_lt_iff_lt]
      omega
    · rw [same, compare_eq_iff_eq.mpr rfl, eq_comm, compare_eq_iff_eq]
    · rw [compare_gt_iff_gt.mpr after, eq_comm, compare_gt_iff_gt]
      omega
  · rw [compare_gt_iff_gt.mpr after, Ordering.gt_then, eq_comm, compare_gt_iff_gt]
    omega

theorem instant_inj : a.instant = b.instant ↔ a = b := by
  refine ⟨fun same => ?_, congrArg instant⟩
  have tie : a.order b = .eq := by rw [order_eq_compare, same, compare_eq_iff_eq.mpr rfl]
  obtain ⟨seconds, nanos⟩ := Ordering.then_eq_eq.mp tie
  cases a
  cases b
  cases compare_eq_iff_eq.mp seconds
  cases compare_eq_iff_eq.mp nanos
  rfl

/-- Both parts of an absolute duration are negated before the epoch, and together they are the whole
count. -/
theorem instant_ofInstant (n : Int) : (ofInstant n).instant = n := by
  have unit : (nanosPerSecond : Int) = 10 ^ 9 := rfl
  have forward := Int.emod_add_mul_ediv n (10 ^ 9)
  have back := Int.emod_add_mul_ediv (-n) (10 ^ 9)
  rw [ofInstant, unit]
  split <;> rw [instant_new] <;> omega

private theorem ofInstant_instant (t : Timestamp) : ofInstant t.instant = t :=
  instant_inj.mp (instant_ofInstant t.instant)

theorem natAbs_instant_lt (least : -2 ^ 63 < t.seconds) (most : t.seconds < 2 ^ 63) :
    t.instant.natAbs / 10 ^ 9 < 2 ^ 63 := by
  have part : t.nanos < 10 ^ 9 := t.nanos_lt
  have whole : t.instant.natAbs < 2 ^ 63 * 10 ^ 9 := by
    rw [instant_eq]
    omega
  exact Nat.div_lt_of_lt_mul (Nat.mul_comm _ _ ▸ whole)

/-- A timestamp made of any seconds and nanoseconds, as long as the carry leaves the seconds within
sixty-four bits, is in normal form and denotes the instant that they add up to. Two of them compare as
their instants do and are the same exactly if the instants are. Each is found again from the count of
nanoseconds from the epoch, also before the epoch; but for the least number of seconds, the whole seconds
of that count have sixty-four bits and may be negated. -/
theorem timestamps_denote_instants {s : Int64} {n : Int32}
    (fits : IsInt64 (s.toInt + n.toInt / 10 ^ 9)) (s' : Int64) (n' : Int32) :
    let t := new s.toInt n.toInt
    let t' := new s'.toInt n'.toInt
    let counted := s.toInt * 10 ^ 9 + n.toInt
    let counted' := s'.toInt * 10 ^ 9 + n'.toInt
    (IsInt64 t.seconds ∧ t.nanos < 10 ^ 9 ∧ t.seconds * 10 ^ 9 + t.nanos = counted) ∧
      t.order t' = compare counted counted' ∧
      (t = t' ↔ counted = counted') ∧
      (Int64.minValue.toInt < t.seconds → t.instant.natAbs / 10 ^ 9 < 2 ^ 63 ∧ t.instant = counted ∧
        ofInstant t.instant = t) := by
  intro t t' counted counted'
  have denotes : t.instant = counted := instant_new _ _
  have denotes' : t'.instant = counted' := instant_new _ _
  have least : Int64.minValue.toInt = -2 ^ 63 := rfl
  refine ⟨⟨fits, t.nanos_lt, ?_⟩, ?_, ?_, fun above => ⟨?_, denotes, ofInstant_instant t⟩⟩
  · rw [← instant_eq, denotes]
  · rw [order_eq_compare, denotes, denotes']
  · rw [← instant_inj, denotes, denotes']
  · exact natAbs_instant_lt (least ▸ above) fits.2

/-- One instant before the epoch, with nanoseconds above zero and with no whole seconds at all. -/
theorem timestamps_denote_earlyInstant :
    IsInt64 ((-2 : Int64).toInt + (250000000 : Int32).toInt / 10 ^ 9) ∧
      new (-2) 250000000 = new 0 (-1750000000) ∧
      (new (-2) 250000000).order (new 0 0) = .lt ∧
      (new (-2) 250000000).instant = -1750000000 ∧
      ofInstant (new (-2) 250000000).instant = new (-2) 250000000 := by
  have fits : IsInt64 ((-2 : Int64).toInt + (250000000 : Int32).toInt / 10 ^ 9) := by decide
  obtain ⟨-, -, same, back⟩ := timestamps_denote_instants fits 0 (-1750000000)
  obtain ⟨-, before, -⟩ := timestamps_denote_instants fits 0 0
  obtain ⟨-, counted, found⟩ := back (by decide)
  exact ⟨fits, same.mpr (by decide), before, counted, found⟩

end DocumentStore.Timestamp
