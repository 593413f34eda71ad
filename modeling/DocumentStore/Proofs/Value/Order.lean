import DocumentStore.Proofs.Number.Integers
import DocumentStore.Proofs.Order.Composition
import DocumentStore.Proofs.Value.Inside

/-! # The order of values is total

Every value ties with itself and swapping two values swaps the outcome, whatever the values are.
Transitivity needs that integers and doubles can be compared in one space: it holds for the values
whose integers are doubles exactly, at every depth. -/

namespace DocumentStore

namespace Double

private theorem order_self (d : Double) : d.order d = .eq := by
  cases h : d.place? <;> simp [order, h]

private theorem order_swap (a b : Double) : (a.order b).swap = b.order a := by
  cases ha : a.place? <;> cases hb : b.place? <;> simp [order, ha, hb, Int.compare_swap]

private theorem order_composes (a b c : Double) : Composes (a.order b) (b.order c) (a.order c) := by
  cases ha : a.place? <;> cases hb : b.place? <;> cases hc : c.place? <;>
    simp [order, ha, hb, hc, Composes.of_compare]

end Double

namespace Timestamp

private theorem order_swap (a b : Timestamp) : (a.order b).swap = b.order a := by
  rw [order, order, Ordering.swap_then, Int.compare_swap, Nat.compare_swap]

private theorem order_composes (a b c : Timestamp) : Composes (a.order b) (b.order c) (a.order c) :=
  (Composes.of_compare a.seconds b.seconds c.seconds).andThen
    (Composes.of_compare a.nanos b.nanos c.nanos)

end Timestamp

namespace Number

/-- Tells the numbers that are doubles exactly. -/
def isExact : Number → Bool
  | .integer n => n.toInt.natAbs ≤ exactBound
  | .double _ => true

private theorem order_swap (a b : Number) : (a.order b).swap = b.order a := by
  cases a <;> cases b <;> simp [order, Int.compare_swap, Double.order_swap]

/-- Numbers that are doubles exactly are compared as doubles. -/
theorem order_toDouble {a b : Number} (ha : a.isExact) (hb : b.isExact) :
    a.order b = a.toDouble.order b.toDouble := by
  cases a with
  | integer m =>
    cases b with
    | integer n =>
      exact (Double.order_ofInt (of_decide_eq_true ha) (of_decide_eq_true hb)).symm
    | double e => rfl
  | double d => rfl

private theorem order_composes {a b c : Number} (ha : a.isExact) (hb : b.isExact) (hc : c.isExact) :
    Composes (a.order b) (b.order c) (a.order c) := by
  rw [order_toDouble ha hb, order_toDouble hb hc, order_toDouble ha hc]
  exact Double.order_composes _ _ _

end Number

namespace Value

/-- The number that a value is. -/
def number? : Value → Option Number
  | .integer n => some (.integer n)
  | .double d => some (.double d)
  | _ => none

/-- What a rank says about the values that have it. -/
def HasRank (v : Value) : Nat → Prop
  | 0 => v = .null
  | 1 => ∃ b, v = .boolean b
  | 2 => ∃ n, v.number? = some n
  | 3 => ∃ t, v = .timestamp t
  | 4 => ∃ s, v = .string s
  | 5 => ∃ bs, v = .bytes bs
  | 6 => ∃ path, v = .reference path
  | 7 => ∃ elements, v = .array elements
  | 8 => ∃ fields, v = .map fields
  | _ => v.isSentinel = true

theorem hasRank_rank (v : Value) : v.HasRank v.rank := by
  cases v <;> simp [HasRank, rank, number?, isSentinel]

theorem order_of_rank_ne {a b : Value} (ne : a.rank ≠ b.rank) :
    order a b = compare a.rank b.rank := by
  fun_cases order a b
  all_goals first | exact absurd rfl ne | rfl

theorem order_numbers {a b : Value} {m n : Number} (ha : a.number? = some m)
    (hb : b.number? = some n) : order a b = m.order n := by
  cases a <;> simp only [number?, Option.some.injEq, reduceCtorEq] at ha <;>
    cases b <;> simp only [number?, Option.some.injEq, reduceCtorEq] at hb <;>
    subst ha <;> subst hb <;> rfl

/-- Markers are all alike in the order. -/
theorem order_markers {a b : Value} (ha : a.isSentinel = true) (hb : b.isSentinel = true) :
    order a b = .eq := by
  cases a <;> simp only [isSentinel, Bool.false_eq_true] at ha <;>
    cases b <;> simp only [isSentinel, Bool.false_eq_true] at hb <;> rfl

mutual

theorem order_self : ∀ v : Value, order v v = .eq
  | .array elements => orderList_self elements
  | .map fields => orderFields_self fields
  | .integer n => by simp [order, Number.order]
  | .double d => Double.order_self d
  | .bytes bs => lexOrder_self (fun _ => Std.ReflCmp.compare_self) bs
  | .timestamp t => by simp [order, Timestamp.order]
  | .boolean _ | .string _ | .reference _ => by simp [order]
  | .null | .serverTimestamp | .increment _ | .arrayUnion _ | .arrayRemove _ | .deleteField => rfl

theorem orderList_self : ∀ vs : List Value, orderList vs vs = .eq
  | [] => rfl
  | v :: vs => by simp [orderList, order_self v, orderList_self vs]

theorem orderFields_self : ∀ fields : Entries Value, orderFields fields fields = .eq
  | [] => rfl
  | (key, v) :: fields => by simp [orderFields, order_self v, orderFields_self fields]

end

/-- Outcomes for values of different kinds always fit together, so transitivity is a matter of the
single kinds. -/
theorem composes_of_kinds {x y z : Value}
    (same : x.rank = y.rank → y.rank = z.rank →
      Composes (order x y) (order y z) (order x z)) :
    Composes (order x y) (order y z) (order x z) := by
  by_cases hxy : x.rank = y.rank
  · by_cases hyz : y.rank = z.rank
    · exact same hxy hyz
    · have hne : compare y.rank z.rank ≠ .eq := fun h => hyz (Nat.compare_eq_eq.mp h)
      rw [order_of_rank_ne hyz, order_of_rank_ne (hxy ▸ hyz : x.rank ≠ z.rank), hxy]
      exact ⟨fun _ => rfl, fun h => absurd h hne, fun h => h.symm⟩
  · have hne : compare x.rank y.rank ≠ .eq := fun h => hxy (Nat.compare_eq_eq.mp h)
    rw [order_of_rank_ne hxy]
    by_cases hyz : y.rank = z.rank
    · rw [order_of_rank_ne (hyz ▸ hxy : x.rank ≠ z.rank), ← hyz]
      exact ⟨fun h => absurd h hne, fun _ => rfl, fun _ => rfl⟩
    · rw [order_of_rank_ne hyz]
      by_cases hxz : x.rank = z.rank
      · have hswap : compare y.rank z.rank = (compare x.rank y.rank).swap := by
          rw [Nat.compare_swap, hxz]
        rw [hswap]
        cases h : compare x.rank y.rank with
        | eq => exact absurd h hne
        | lt => exact Composes.lt_gt _
        | gt => exact Composes.gt_lt _
      · rw [order_of_rank_ne hxz]
        exact Composes.of_compare _ _ _

mutual

/-- Tells the values in which every integer, at any depth, is a double exactly. The operands of a
marker do not take part in comparisons and are not looked at. -/
def isExact : Value → Bool
  | .integer n => n.toInt.natAbs ≤ exactBound
  | .array elements => allExact elements
  | .map fields => allExactFields fields
  | _ => true

/-- Tells the lists of such values. -/
def allExact : List Value → Bool
  | [] => true
  | v :: vs => isExact v && allExact vs

/-- Tells the fields with such values. -/
def allExactFields : Entries Value → Bool
  | [] => true
  | (_, v) :: fields => isExact v && allExactFields fields

end

theorem allExact_iff {elements : List Value} : allExact elements ↔ ∀ v ∈ elements, v.isExact :=
  test_iff_forall rfl fun _ _ => rfl

theorem allExactFields_iff {fields : Fields} :
    allExactFields fields ↔ ∀ entry ∈ fields, entry.2.isExact :=
  test_iff_forall rfl fun _ _ => rfl

theorem isExact_number {v : Value} {n : Number} (h : v.number? = some n) :
    n.isExact = v.isExact := by
  cases v <;> simp only [number?, Option.some.injEq, reduceCtorEq] at h <;> subst h <;> rfl

mutual

/-- Swapping two values swaps the outcome. -/
theorem order_swap (x y : Value) : (order x y).swap = order y x := by
  by_cases hrank : x.rank = y.rank
  · have hy : y.HasRank x.rank := hrank ▸ y.hasRank_rank
    cases x with
    | null => obtain rfl := hy; rfl
    | boolean a => obtain ⟨b, rfl⟩ := hy; exact Std.OrientedOrd.eq_swap.symm
    | integer a =>
      obtain ⟨n, hn⟩ := hy
      rw [order_numbers rfl hn, order_numbers hn rfl, Number.order_swap]
    | double a =>
      obtain ⟨n, hn⟩ := hy
      rw [order_numbers rfl hn, order_numbers hn rfl, Number.order_swap]
    | timestamp a => obtain ⟨b, rfl⟩ := hy; exact Timestamp.order_swap a b
    | string a => obtain ⟨b, rfl⟩ := hy; exact Std.OrientedOrd.eq_swap.symm
    | bytes a =>
      obtain ⟨b, rfl⟩ := hy
      exact lexOrder_swap (fun _ _ => Std.OrientedOrd.eq_swap.symm) a b
    | reference a => obtain ⟨b, rfl⟩ := hy; exact Std.OrientedOrd.eq_swap.symm
    | array as => obtain ⟨bs, rfl⟩ := hy; exact orderList_swap as bs
    | map as => obtain ⟨bs, rfl⟩ := hy; exact orderFields_swap as bs
    | _ => rw [order_markers rfl hy, order_markers hy rfl]; rfl
  · rw [order_of_rank_ne hrank, order_of_rank_ne (Ne.symm hrank), Nat.compare_swap]

theorem orderList_swap (as bs : List Value) : (orderList as bs).swap = orderList bs as := by
  cases as with
  | nil => cases bs <;> rfl
  | cons a as =>
    cases bs with
    | nil => rfl
    | cons b bs => simp [orderList, Ordering.swap_then, order_swap a b, orderList_swap as bs]

theorem orderFields_swap (as bs : Entries Value) : (orderFields as bs).swap = orderFields bs as := by
  cases as with
  | nil => cases bs <;> rfl
  | cons a as =>
    obtain ⟨k, a⟩ := a
    cases bs with
    | nil => rfl
    | cons b bs =>
      obtain ⟨l, b⟩ := b
      have hkey : (compare k l).swap = compare l k := Std.OrientedOrd.eq_swap.symm
      simp [orderFields, Ordering.swap_then, hkey, order_swap a b, orderFields_swap as bs]

end

mutual

/-- The comparison of values is transitive where integers are doubles exactly. -/
theorem order_composes (x y z : Value) (hx : x.isExact) (hy : y.isExact) (hz : z.isExact) :
    Composes (order x y) (order y z) (order x z) := by
  refine composes_of_kinds fun hxy hyz => ?_
  have ky : y.HasRank x.rank := hxy ▸ y.hasRank_rank
  have kz : z.HasRank x.rank := (hxy.trans hyz) ▸ z.hasRank_rank
  cases x with
  | null => obtain rfl := ky; obtain rfl := kz; exact Composes.eq_left _
  | boolean a => obtain ⟨b, rfl⟩ := ky; obtain ⟨c, rfl⟩ := kz; exact Composes.of_compare a b c
  | integer a =>
    obtain ⟨n, hn⟩ := ky
    obtain ⟨k, hk⟩ := kz
    rw [order_numbers rfl hn, order_numbers hn hk, order_numbers rfl hk]
    exact Number.order_composes hx (isExact_number hn ▸ hy) (isExact_number hk ▸ hz)
  | double a =>
    obtain ⟨n, hn⟩ := ky
    obtain ⟨k, hk⟩ := kz
    rw [order_numbers rfl hn, order_numbers hn hk, order_numbers rfl hk]
    exact Number.order_composes rfl (isExact_number hn ▸ hy) (isExact_number hk ▸ hz)
  | timestamp a =>
    obtain ⟨b, rfl⟩ := ky
    obtain ⟨c, rfl⟩ := kz
    exact Timestamp.order_composes a b c
  | string a => obtain ⟨b, rfl⟩ := ky; obtain ⟨c, rfl⟩ := kz; exact Composes.of_compare a b c
  | bytes a =>
    obtain ⟨b, rfl⟩ := ky
    obtain ⟨c, rfl⟩ := kz
    exact lexOrder_composes (fun x y z => Composes.of_compare x y z) a b c
  | reference a => obtain ⟨b, rfl⟩ := ky; obtain ⟨c, rfl⟩ := kz; exact Composes.of_compare a b c
  | array as =>
    obtain ⟨bs, rfl⟩ := ky
    obtain ⟨cs, rfl⟩ := kz
    exact orderList_composes as bs cs hx hy hz
  | map as =>
    obtain ⟨bs, rfl⟩ := ky
    obtain ⟨cs, rfl⟩ := kz
    exact orderFields_composes as bs cs hx hy hz
  | _ =>
    rw [order_markers rfl ky, order_markers ky kz, order_markers rfl kz]
    exact Composes.eq_left _
termination_by structural x

theorem orderList_composes (as bs cs : List Value) (ha : allExact as) (hb : allExact bs)
    (hc : allExact cs) : Composes (orderList as bs) (orderList bs cs) (orderList as cs) := by
  cases as with
  | nil => cases bs <;> cases cs <;> simp [orderList]
  | cons a as =>
    cases bs with
    | nil => cases cs <;> simp [orderList]
    | cons b bs =>
      cases cs with
      | nil => exact Composes.gt_right _
      | cons c cs =>
        simp only [allExact, Bool.and_eq_true] at ha hb hc
        exact (order_composes a b c ha.1 hb.1 hc.1).andThen
          (orderList_composes as bs cs ha.2 hb.2 hc.2)
termination_by structural as

theorem orderFields_composes (as bs cs : Entries Value) (ha : allExactFields as)
    (hb : allExactFields bs) (hc : allExactFields cs) :
    Composes (orderFields as bs) (orderFields bs cs) (orderFields as cs) := by
  cases as with
  | nil => cases bs <;> cases cs <;> simp [orderFields]
  | cons a as =>
    obtain ⟨j, a⟩ := a
    cases bs with
    | nil => cases cs <;> simp [orderFields]
    | cons b bs =>
      obtain ⟨k, b⟩ := b
      cases cs with
      | nil => exact Composes.gt_right _
      | cons c cs =>
        obtain ⟨l, c⟩ := c
        simp only [allExactFields, Bool.and_eq_true] at ha hb hc
        exact ((Composes.of_compare j k l).andThen
          (order_composes a b c ha.1 hb.1 hc.1)).andThen
            (orderFields_composes as bs cs ha.2 hb.2 hc.2)
termination_by structural as

end

end Value

end DocumentStore
