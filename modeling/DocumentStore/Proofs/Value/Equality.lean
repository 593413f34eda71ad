import DocumentStore.Proofs.Value.Order

/-! # Equality of values

Equality is read off the order, except that markers are compared by their contents. Either way the two
sides may change places, also where a marker meets a value of another kind. A value that is no marker
equals itself, and what equals it is of its kind. -/

namespace DocumentStore

private theorem Double.ieeeEq_comm (a b : Double) : a.ieeeEq b = b.ieeeEq a := by
  cases ha : a.place? <;> cases hb : b.place? <;> simp [ieeeEq, ha, hb, Bool.beq_comm]

namespace Value

mutual

theorem identical_comm (a b : Value) : identical a b = identical b a := by
  cases a with
  | null => cases b <;> rfl
  | boolean x =>
    cases b with
    | boolean y => exact Bool.beq_comm
    | _ => rfl
  | integer m =>
    cases b with
    | integer n => exact Bool.beq_comm
    | _ => rfl
  | double d =>
    cases b with
    | double e => exact Double.ieeeEq_comm d e
    | _ => rfl
  | timestamp t =>
    cases b with
    | timestamp u => exact Bool.beq_comm
    | _ => rfl
  | string s =>
    cases b with
    | string t => exact Bool.beq_comm
    | _ => rfl
  | bytes xs =>
    cases b with
    | bytes ys => exact Bool.beq_comm
    | _ => rfl
  | reference path =>
    cases b with
    | reference other => exact Bool.beq_comm
    | _ => rfl
  | array as =>
    cases b with
    | array bs => exact identicalList_comm as bs
    | _ => rfl
  | map as =>
    cases b with
    | map bs => exact identicalFields_comm as bs
    | _ => rfl
  | serverTimestamp => cases b <;> rfl
  | increment x =>
    cases b with
    | increment y => exact identical_comm x y
    | _ => rfl
  | arrayUnion as =>
    cases b with
    | arrayUnion bs => exact identicalList_comm as bs
    | _ => rfl
  | arrayRemove as =>
    cases b with
    | arrayRemove bs => exact identicalList_comm as bs
    | _ => rfl
  | deleteField => cases b <;> rfl
termination_by structural a

theorem identicalList_comm (as bs : List Value) : identicalList as bs = identicalList bs as := by
  cases as with
  | nil => cases bs <;> rfl
  | cons a as =>
    cases bs with
    | nil => rfl
    | cons b bs => rw [identicalList, identicalList, identical_comm a b, identicalList_comm as bs]
termination_by structural as

theorem identicalFields_comm (as bs : Entries Value) :
    identicalFields as bs = identicalFields bs as := by
  cases as with
  | nil => cases bs <;> rfl
  | cons a as =>
    cases bs with
    | nil => rfl
    | cons b bs =>
      have keys : (a.1 == b.1) = (b.1 == a.1) := Bool.beq_comm
      rw [identicalFields, identicalFields, keys, identical_comm a.2 b.2,
        identicalFields_comm as bs]
termination_by structural as

end

private theorem order_eq_eq_comm {a b : Value} : order a b = .eq ↔ order b a = .eq := by
  rw [← order_swap a b, Ordering.swap_eq_eq]

theorem equal_comm (a b : Value) : a.equal b = b.equal a := by
  unfold equal
  rw [Bool.or_comm, identical_comm a b]
  split
  · rfl
  · rw [Bool.eq_iff_iff, beq_iff_eq, beq_iff_eq, order_eq_eq_comm]

theorem equal_self {v : Value} (value : v.isSentinel = false) : v.equal v := by
  rw [equal, value, order_self]
  rfl

theorem isSentinel_iff_rank {v : Value} : v.isSentinel ↔ v.rank = 9 := by
  cases v <;> simp [isSentinel, rank]

theorem identical_of_isSentinel {v c : Value} (marker : v.isSentinel) (value : c.isSentinel = false) :
    identical v c = false := by
  cases v <;> cases marker <;> cases c <;> first | rfl | cases value

/-- What equals a value is of its kind and ties with it in the order. -/
theorem equal_iff {v c : Value} (value : c.isSentinel = false) :
    v.equal c ↔ v.rank = c.rank ∧ v.order c = .eq := by
  cases marker : v.isSentinel with
  | true =>
    have differ : v.rank ≠ c.rank := by
      rw [isSentinel_iff_rank.mp marker]
      intro same
      rw [isSentinel_iff_rank.mpr same.symm] at value
      cases value
    simp [equal, marker, identical_of_isSentinel marker value, differ]
  | false =>
    have sameKind (tie : v.order c = .eq) : v.rank = c.rank := by
      by_contra differ
      rw [order_of_rank_ne differ] at tie
      exact differ (Nat.compare_eq_eq.mp tie)
    simp only [equal, marker, value, Bool.or_false, Bool.false_eq_true, if_false, beq_iff_eq]
    exact ⟨fun tie => ⟨sameKind tie, tie⟩, And.right⟩

theorem containedIn_iff {v : Value} {elements : List Value} :
    v.containedIn elements ↔ ∃ candidate ∈ elements, candidate.equal v := List.any_eq_true

/-- Truth values equal nothing but themselves. -/
theorem equal_boolean {v : Value} {b : Bool} : v.equal (.boolean b) ↔ v = .boolean b := by
  cases v with
  | boolean c => simp [equal, isSentinel, order]
  | _ => simp [equal, isSentinel, identical, order, rank]

end Value

end DocumentStore
