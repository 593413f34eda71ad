import DocumentStore.Proofs.Number.Integers
import Mathlib.Algebra.Order.Field.Power
import Mathlib.Algebra.Order.Field.Rat
import Mathlib.Order.Monotone.Basic
import Mathlib.Order.WithBot
import Mathlib.Tactic.NormNum
import Mathlib.Tactic.Positivity

/-! # The numbers that doubles stand for

A finite double stands for a rational number, and the infinities stand at the two ends of the line;
not-a-number stands for no number. Doubles are compared by ranks, and the ranks are in the order of the
numbers. Integers up to the bound stand for themselves, so that they too are compared by what they
stand for when they meet a double. -/

namespace DocumentStore

namespace Double

/-- The number that the finite magnitude with a rank stands for. -/
def magnitude (rank : Nat) : ℚ := (scaled rank).1 * 2 ^ (scaled rank).2

/-- The number that a double stands for, between the two infinities. -/
def value? : Double → Option (WithBot (WithTop ℚ))
  | .nan => none
  | .signed negative rank _ =>
    some <|
      if rank < infinityRank then ((if negative then -magnitude rank else magnitude rank : ℚ) : WithTop ℚ)
      else if negative then ⊥ else ⊤

/-- How often the smallest positive double goes into the magnitude with a rank. -/
def units (rank : Nat) : Nat :=
  if rank < 2 ^ 52 then rank else (2 ^ 52 + rank % 2 ^ 52) * 2 ^ (rank / 2 ^ 52 - 1)

private theorem magnitude_eq (rank : Nat) : magnitude rank = units rank * 2 ^ (-1074 : Int) := by
  by_cases subnormal : rank < 2 ^ 52
  · have small : rank < 1 <<< 52 := subnormal
    rw [magnitude, scaled, units, if_pos small, if_pos subnormal]
  · have large : ¬ rank < 1 <<< 52 := subnormal
    have split : ((rank / 2 ^ 52 : Nat) : Int) - 1075 = ((rank / 2 ^ 52 - 1 : Nat) : Int) + -1074 := by
      omega
    rw [magnitude, scaled, units, if_neg large, if_neg subnormal, Nat.one_shiftLeft]
    dsimp only
    rw [split, zpow_add₀ two_ne_zero, zpow_natCast, Nat.cast_mul, Nat.cast_pow, Nat.cast_ofNat,
      mul_assoc]

theorem units_lt_succ (rank : Nat) : units rank < units (rank + 1) := by
  have power (n : Nat) : 0 < 2 ^ n := Nat.two_pow_pos n
  rcases Nat.lt_trichotomy (rank + 1) (2 ^ 52) with below | first | above
  · rw [units, units, if_pos (by omega), if_pos below]
    exact Nat.lt_succ_self rank
  · rw [units, units, if_pos (by omega), if_neg (by omega), first]
    norm_num
    omega
  · rw [units, units, if_neg (by omega), if_neg (by omega)]
    by_cases carry : rank % 2 ^ 52 + 1 < 2 ^ 52
    · have quotient : (rank + 1) / 2 ^ 52 = rank / 2 ^ 52 := by omega
      have remainder : (rank + 1) % 2 ^ 52 = rank % 2 ^ 52 + 1 := by omega
      rw [quotient, remainder]
      exact Nat.mul_lt_mul_of_pos_right (by omega) (power _)
    · have quotient : (rank + 1) / 2 ^ 52 - 1 = rank / 2 ^ 52 - 1 + 1 := by omega
      have remainder : (rank + 1) % 2 ^ 52 = 0 := by omega
      have double : 2 ^ 52 + rank % 2 ^ 52 < 2 ^ 52 * 2 := by omega
      have power_succ : 2 ^ (rank / 2 ^ 52 - 1 + 1) = 2 * 2 ^ (rank / 2 ^ 52 - 1) := Nat.pow_succ'
      rw [quotient, remainder, power_succ, Nat.add_zero, ← Nat.mul_assoc]
      exact Nat.mul_lt_mul_of_pos_right double (power _)

theorem magnitude_strictMono : StrictMono magnitude := by
  have step : StrictMono units := strictMono_nat_of_lt_succ units_lt_succ
  intro a b lt
  rw [magnitude_eq, magnitude_eq]
  have less : (units a : ℚ) < units b := by exact_mod_cast step lt
  exact mul_lt_mul_of_pos_right less (zpow_pos two_pos _)

theorem magnitude_zero : magnitude 0 = 0 := by simp [magnitude, scaled]

private theorem magnitude_pos {rank : Nat} (positive : 0 < rank) : 0 < magnitude rank :=
  magnitude_zero ▸ magnitude_strictMono positive

/-- The number with a signed rank. -/
def numberAt (place : Int) : ℚ :=
  if place < 0 then -magnitude place.natAbs else magnitude place.natAbs

private theorem numberAt_lt_numberAt {p q : Int} (lt : p < q) : numberAt p < numberAt q := by
  rcases Int.lt_or_le p 0 with hp | hp
  · have negative : numberAt p = -magnitude p.natAbs := if_pos hp
    rcases Int.lt_or_le q 0 with hq | hq
    · rw [negative, numberAt, if_pos hq]
      exact neg_lt_neg (magnitude_strictMono (by omega))
    · rw [negative, numberAt, if_neg hq.not_gt]
      have below : 0 < magnitude p.natAbs := magnitude_pos (by omega)
      have above : magnitude 0 ≤ magnitude q.natAbs := magnitude_strictMono.monotone (Nat.zero_le _)
      rw [magnitude_zero] at above
      exact (neg_lt_zero.mpr below).trans_le above
  · have hq : ¬ q < 0 := by omega
    rw [numberAt, numberAt, if_neg hp.not_gt, if_neg hq]
    exact magnitude_strictMono (by omega)

/-- What stands at a place on the line of signed ranks. -/
def standing (place : Int) : WithBot (WithTop ℚ) :=
  if place.natAbs < infinityRank then (numberAt place : WithTop ℚ)
  else if place < 0 then ⊥ else ⊤

private theorem value?_eq (d : Double) : d.value? = d.place?.map standing := by
  cases d with
  | nan => rfl
  | signed negative rank rank_le =>
    cases negative with
    | false => simp [value?, place?, standing, numberAt, (Int.natCast_nonneg rank).not_gt]
    | true =>
      rcases Nat.eq_zero_or_pos rank with rfl | positive
      · have finite : 0 < infinityRank := by decide
        simp [value?, place?, standing, numberAt, magnitude_zero, finite]
      · simp [value?, place?, standing, numberAt, positive]

theorem standing_lt_standing {p q : Int} (hp : p.natAbs ≤ infinityRank) (hq : q.natAbs ≤ infinityRank)
    (lt : p < q) : standing p < standing q := by
  by_cases pFinite : p.natAbs < infinityRank
  · by_cases qFinite : q.natAbs < infinityRank
    · rw [standing, standing, if_pos pFinite, if_pos qFinite, WithBot.coe_lt_coe,
        WithTop.coe_lt_coe]
      exact numberAt_lt_numberAt lt
    · rw [standing, standing, if_pos pFinite, if_neg qFinite, if_neg (by omega)]
      exact WithBot.coe_lt_coe.mpr (WithTop.coe_lt_top _)
  · -- The place is that of the lower infinity, because something stands above it.
    rw [standing, standing, if_neg pFinite, if_pos (by omega)]
    split
    · exact WithBot.bot_lt_coe _
    · rw [if_neg (by omega)]
      exact WithBot.bot_lt_coe _

private theorem natAbs_of_place? {d : Double} {p : Int} (h : d.place? = some p) :
    p.natAbs ≤ infinityRank := by
  cases d with
  | nan => cases h
  | signed negative rank rank_le =>
    cases h
    split <;> simpa using rank_le

/-- Doubles are compared by the numbers that they stand for, and not-a-number comes first. -/
theorem order_eq_compare (a b : Double) : a.order b = compare a.value? b.value? := by
  rw [value?_eq, value?_eq, order]
  cases ha : a.place? with
  | none => cases b.place? <;> rfl
  | some p =>
    cases hb : b.place? with
    | none => rfl
    | some q =>
      have hp := natAbs_of_place? ha
      have hq := natAbs_of_place? hb
      show compare p q = compare (standing p) (standing q)
      rcases lt_trichotomy p q with lt | rfl | gt
      · rw [compare_lt_iff_lt.mpr lt, compare_lt_iff_lt.mpr (standing_lt_standing hp hq lt)]
      · rw [compare_eq_iff_eq.mpr rfl, compare_eq_iff_eq.mpr rfl]
      · rw [compare_gt_iff_gt.mpr gt, compare_gt_iff_gt.mpr (standing_lt_standing hq hp gt)]

/-- Up to the bound the magnitude nearest to an integer is the integer. -/
theorem magnitude_nearestRank {n : Nat} (le : n ≤ exactBound) : magnitude (nearestRank n 1) = n := by
  rcases Nat.lt_or_eq_of_le le with lt | rfl
  · rcases Nat.eq_zero_or_pos n with rfl | positive
    · exact magnitude_zero
    · have nonzero : n ≠ 0 := Nat.ne_of_gt positive
      obtain ⟨low, high⟩ := shifted_bounds nonzero lt
      have bits : n.log2 < 53 := (Nat.log2_lt nonzero).mpr lt
      rw [nearestRank_one nonzero lt]
      generalize shift : n * 2 ^ (52 - n.log2) = shifted at low high
      have large : ¬ (n.log2 + 1022) * 2 ^ 52 + shifted < 1 <<< 52 := by
        rw [Nat.one_shiftLeft]
        omega
      have significand : 2 ^ 52 + ((n.log2 + 1022) * 2 ^ 52 + shifted) % 2 ^ 52 = shifted := by omega
      have exponent : ((((n.log2 + 1022) * 2 ^ 52 + shifted) / 2 ^ 52 : Nat) : Int) - 1075
          = -((52 - n.log2 : Nat) : Int) := by omega
      rw [magnitude, scaled, if_neg large, Nat.one_shiftLeft]
      dsimp only
      rw [significand, exponent, ← shift, zpow_neg, zpow_natCast, Nat.cast_mul, Nat.cast_pow,
        Nat.cast_ofNat, mul_inv_cancel_right₀ (pow_ne_zero _ two_ne_zero)]
  · have whole : scaled (1076 * 2 ^ 52) = (2 ^ 52, 1) := by decide
    rw [nearestRank_exactBound, magnitude, whole, exactBound]
    norm_num

private theorem nearestRank_lt_infinity {n : Nat} (le : n ≤ exactBound) :
    nearestRank n 1 < infinityRank := by
  have last : nearestRank exactBound 1 < infinityRank := by
    rw [nearestRank_exactBound]
    decide
  rcases Nat.lt_or_eq_of_le le with lt | rfl
  · exact (nearestRank_lt_of_lt lt (Nat.le_refl _)).trans last
  · exact last

/-- Up to the bound an integer becomes the double that stands for it. -/
theorem value?_ofInt {n : Int} (le : n.natAbs ≤ exactBound) :
    (ofInt n).value? = some ((n : ℚ) : WithTop ℚ) := by
  have finite := nearestRank_lt_infinity le
  have whole : (min (nearestRank n.natAbs 1) infinityRank) = nearestRank n.natAbs 1 :=
    Nat.min_eq_left finite.le
  have number : (if n < 0 then -|(n : ℚ)| else |(n : ℚ)|) = n := by
    split
    · rw [abs_of_neg (by exact_mod_cast ‹n < 0›), neg_neg]
    · exact abs_of_nonneg (by exact_mod_cast not_lt.mp ‹¬ n < 0›)
  simp [ofInt, nearest, ofRank, value?, whole, finite, magnitude_nearestRank le, number]

end Double

end DocumentStore
