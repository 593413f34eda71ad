import DocumentStore.Value.Order
import Mathlib.Tactic.Linarith

/-! # Integers among the doubles

Every integer of absolute value at most `2 ^ 53` is a double exactly, and the doubles of two such
integers are ordered as the integers are. Beyond that bound several integers share a double. The
integers of documents have sixty-four bits, which leads far beyond it. -/

namespace DocumentStore

/-- The bound up to which every integer is a double. -/
def exactBound : Nat := 2 ^ 53

/-- Tells the integers that can be written with sixty-four bits. -/
def IsInt64 (n : Int) : Prop := -2 ^ 63 ≤ n ∧ n < 2 ^ 63

instance (n : Int) : Decidable (IsInt64 n) := inferInstanceAs (Decidable (_ ∧ _))

theorem isInt64_toInt (n : Int64) : IsInt64 n.toInt := ⟨n.le_toInt, n.toInt_lt⟩

theorem IsInt64.toInt_ofInt {n : Int} (fits : IsInt64 n) : (Int64.ofInt n).toInt = n :=
  Int64.toInt_ofInt_of_le fits.1 fits.2

namespace Double

private theorem floorLog2_one {n : Nat} (pos : n ≠ 0) : floorLog2 n 1 = n.log2 := by
  have hlog : Nat.log2 1 = 0 := by decide
  have hexp : ((n.log2 : Int) - ((0 : Nat) : Int)) = n.log2 := by omega
  have hneg : (-(n.log2 : Int)).toNat = 0 := by omega
  have hle : 2 ^ n.log2 ≤ n := Nat.log2_self_le pos
  simp only [floorLog2, hlog, hexp, hneg, Int.toNat_natCast]
  rw [if_pos (by omega)]

/-- Below the bound the rank has the binary exponent in its high bits and the shifted integer in
its low ones. -/
theorem nearestRank_one {n : Nat} (pos : n ≠ 0) (lt : n < exactBound) :
    nearestRank n 1 = (n.log2 + 1022) * 2 ^ 52 + n * 2 ^ (52 - n.log2) := by
  have hlog : n.log2 < 53 := (Nat.log2_lt pos).2 lt
  have he : max ((n.log2 : Int) - 52) (-1074) = (n.log2 : Int) - 52 := by omega
  have hshift : (-((n.log2 : Int) - 52)).toNat = 52 - n.log2 := by omega
  have hwhole : ((n.log2 : Int) - 52).toNat = 0 := by omega
  have hexp : ((n.log2 : Int) - 52 + 1074).toNat = n.log2 + 1022 := by omega
  rw [nearestRank, if_neg pos]
  simp only [floorLog2_one pos, he, hshift, hwhole, hexp]
  simp [roundDiv, Nat.mod_one, Nat.shiftLeft_eq]

/-- The shifted integer has fifty-three bits. -/
theorem shifted_bounds {n : Nat} (pos : n ≠ 0) (lt : n < exactBound) :
    2 ^ 52 ≤ n * 2 ^ (52 - n.log2) ∧ n * 2 ^ (52 - n.log2) < 2 ^ 53 := by
  have hlog : n.log2 < 53 := (Nat.log2_lt pos).2 lt
  have low : 2 ^ n.log2 ≤ n := Nat.log2_self_le pos
  have high : n < 2 ^ (n.log2 + 1) := Nat.lt_log2_self
  have unit : 0 < 2 ^ (52 - n.log2) := Nat.two_pow_pos _
  constructor
  · calc 2 ^ 52 = 2 ^ n.log2 * 2 ^ (52 - n.log2) := by
          rw [← Nat.pow_add, Nat.add_sub_cancel' (by omega)]
      _ ≤ n * 2 ^ (52 - n.log2) := Nat.mul_le_mul_right _ low
  · calc n * 2 ^ (52 - n.log2) < 2 ^ (n.log2 + 1) * 2 ^ (52 - n.log2) :=
          Nat.mul_lt_mul_of_pos_right high unit
      _ = 2 ^ 53 := by rw [← Nat.pow_add, show n.log2 + 1 + (52 - n.log2) = 53 by omega]

theorem nearestRank_exactBound : nearestRank exactBound 1 = 1076 * 2 ^ 52 := by decide +kernel

theorem nearestRank_lt_of_lt {m n : Nat} (lt : m < n) (le : n ≤ exactBound) :
    nearestRank m 1 < nearestRank n 1 := by
  by_cases hm : m = 0
  · subst hm
    have hzero : nearestRank 0 1 = 0 := rfl
    rcases Nat.lt_or_eq_of_le le with hn | hn
    · rw [nearestRank_one (by omega) hn, hzero]
      have := shifted_bounds (n := n) (by omega) hn
      omega
    · rw [hn, nearestRank_exactBound, hzero]
      decide
  · have hmb : m < exactBound := by omega
    obtain ⟨lowm, highm⟩ := shifted_bounds hm hmb
    have hlogm : m.log2 < 53 := (Nat.log2_lt hm).2 hmb
    rw [nearestRank_one hm hmb]
    rcases Nat.lt_or_eq_of_le le with hn | hn
    · obtain ⟨lown, highn⟩ := shifted_bounds (n := n) (by omega) hn
      rw [nearestRank_one (by omega) hn]
      have hlog : m.log2 ≤ n.log2 := by
        rw [Nat.le_log2 (by omega)]
        exact (Nat.log2_self_le hm).trans lt.le
      rcases Nat.lt_or_eq_of_le hlog with hl | hl
      · -- the next exponent starts where the shifted integers of this one end
        omega
      · have := Nat.mul_lt_mul_of_pos_right lt (Nat.two_pow_pos (52 - n.log2))
        rw [← hl] at this ⊢
        omega
    · rw [hn, nearestRank_exactBound]
      omega

theorem nearestRank_le_infinity {n : Nat} (le : n ≤ exactBound) :
    nearestRank n 1 ≤ infinityRank := by
  have hmax : nearestRank n 1 ≤ nearestRank exactBound 1 := by
    rcases Nat.lt_or_eq_of_le le with h | h
    · exact (nearestRank_lt_of_lt h (Nat.le_refl _)).le
    · rw [h]
  have : nearestRank exactBound 1 ≤ infinityRank := by
    rw [nearestRank_exactBound]
    decide
  omega

/-- The place of an integer up to the bound on the line of signed ranks. -/
def integerPlace (n : Int) : Int :=
  if n < 0 then -(nearestRank n.natAbs 1 : Int) else nearestRank n.natAbs 1

private theorem place?_ofInt {n : Int} (le : n.natAbs ≤ exactBound) :
    (ofInt n).place? = some (integerPlace n) := by
  have hmin : min (nearestRank n.natAbs 1) infinityRank = nearestRank n.natAbs 1 :=
    Nat.min_eq_left (nearestRank_le_infinity le)
  by_cases hn : n < 0 <;> simp [ofInt, nearest, ofRank, place?, integerPlace, hmin, hn]

private theorem integerPlace_lt_of_lt {m n : Int} (hm : m.natAbs ≤ exactBound)
    (hn : n.natAbs ≤ exactBound) (lt : m < n) : integerPlace m < integerPlace n := by
  have ranks {a b : Nat} (hb : b ≤ exactBound) (h : a < b) :
      (nearestRank a 1 : Int) < nearestRank b 1 := by
    exact_mod_cast nearestRank_lt_of_lt h hb
  have pos {a : Nat} (ha : a ≤ exactBound) (h : 0 < a) : (0 : Int) < nearestRank a 1 := by
    have zero : ((nearestRank 0 1 : Nat) : Int) = 0 := rfl
    have above := ranks ha h
    rwa [zero] at above
  unfold integerPlace
  by_cases hm0 : m < 0 <;> by_cases hn0 : n < 0
  · have := ranks hm (show n.natAbs < m.natAbs by omega)
    simp only [hm0, hn0, if_true]
    omega
  · have := pos hm (show 0 < m.natAbs by omega)
    simp only [hm0, hn0, if_true, if_false]
    omega
  · omega
  · simpa only [hm0, hn0, if_false] using ranks hn (show m.natAbs < n.natAbs by omega)

/-- Up to the bound the doubles of integers are ordered as the integers. -/
theorem order_ofInt {m n : Int} (hm : m.natAbs ≤ exactBound) (hn : n.natAbs ≤ exactBound) :
    (ofInt m).order (ofInt n) = compare m n := by
  simp only [order, place?_ofInt hm, place?_ofInt hn]
  rcases lt_trichotomy m n with h | h | h
  · rw [compare_lt_iff_lt.mpr h, compare_lt_iff_lt.mpr (integerPlace_lt_of_lt hm hn h)]
  · rw [h]
    simp
  · rw [compare_gt_iff_gt.mpr h, compare_gt_iff_gt.mpr (integerPlace_lt_of_lt hn hm h)]

end Double

end DocumentStore
