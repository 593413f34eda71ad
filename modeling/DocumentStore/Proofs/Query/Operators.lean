import DocumentStore.Proofs.Query.Execution
import DocumentStore.Proofs.Value.Equality

/-! # Operators of clauses

The ten operators compare a field with an operand by the order within one kind, by equality, and by
membership in an array on either side. A clause with any of them is matched by documents that have the
field only. What one operator says can be said by others: the order operators divide the values of the
operand's kind among them, and the operators with candidates ask for one of them or for none. -/

namespace DocumentStore

namespace Value

variable {v c : Value} {o : Ordering} {elements : List Value}

private theorem isNull_iff : v.isNull ↔ v = .null := by
  cases v <;> simp [isNull]

private theorem asArray?_eq_some : v.asArray? = some elements ↔ v = .array elements := by
  cases v <;> simp [asArray?]

theorem orderWithinKind?_eq_some (value : c.isSentinel = false) :
    v.orderWithinKind? c = some o ↔ v.rank = c.rank ∧ v.order c = o := by
  have noSentinel (same : v.rank = c.rank) : v.isSentinel = false := by
    rw [← Bool.not_eq_true, isSentinel_iff_rank] at value ⊢
    rwa [same]
  unfold orderWithinKind?
  constructor
  · intro compared
    split at compared
    · rename_i same
      exact ⟨same.1, Option.some.inj compared⟩
    · cases compared
  · rintro ⟨same, rfl⟩
    rw [noSentinel same, if_pos ⟨same, rfl⟩]

end Value

namespace FilterOperator

variable {v c : Value} {candidates : List Value}

section Order

variable (value : c.isSentinel = false)

include value

theorem holds_lessThan : lessThan.holds v c ↔ v.rank = c.rank ∧ v.order c = .lt :=
  beq_iff_eq.trans (Value.orderWithinKind?_eq_some value)

theorem holds_greaterThan : greaterThan.holds v c ↔ v.rank = c.rank ∧ v.order c = .gt :=
  beq_iff_eq.trans (Value.orderWithinKind?_eq_some value)

theorem holds_equal : equal.holds v c ↔ v.rank = c.rank ∧ v.order c = .eq :=
  Value.equal_iff value

private theorem holds_lessThanOrEqual :
    lessThanOrEqual.holds v c ↔ lessThan.holds v c ∨ equal.holds v c := by
  rw [holds_lessThan value, holds_equal value, ← Value.orderWithinKind?_eq_some value,
    ← Value.orderWithinKind?_eq_some value]
  simp only [holds, Bool.or_eq_true, beq_iff_eq]

private theorem holds_greaterThanOrEqual :
    greaterThanOrEqual.holds v c ↔ greaterThan.holds v c ∨ equal.holds v c := by
  rw [holds_greaterThan value, holds_equal value, ← Value.orderWithinKind?_eq_some value,
    ← Value.orderWithinKind?_eq_some value]
  simp only [holds, Bool.or_eq_true, beq_iff_eq]

theorem order_operators_exclusive :
    ¬ (lessThan.holds v c ∧ equal.holds v c) ∧ ¬ (lessThan.holds v c ∧ greaterThan.holds v c) ∧
      ¬ (equal.holds v c ∧ greaterThan.holds v c) := by
  rw [holds_lessThan value, holds_equal value, holds_greaterThan value]
  cases v.order c <;> simp

theorem order_operators_exhaustive (kind : v.rank = c.rank) :
    lessThan.holds v c ∨ equal.holds v c ∨ greaterThan.holds v c := by
  rw [holds_lessThan value, holds_equal value, holds_greaterThan value]
  cases v.order c <;> simp [kind]

end Order

theorem holds_notEqual : notEqual.holds v c ↔ ¬ equal.holds v c := by
  simp [holds]

theorem holds_arrayContains : arrayContains.holds v c ↔
    ∃ elements, v = .array elements ∧ ∃ candidate ∈ elements, candidate.equal c := by
  simp only [holds, ← Value.asArray?_eq_some, ← Value.containedIn_iff]
  cases v.asArray? <;> simp

private theorem holds_arrayContainsAny : arrayContainsAny.holds v (.array candidates) ↔
    ∃ c ∈ candidates, arrayContains.holds v c := by
  simp only [holds]
  cases v.asArray? <;> simp [Value.asArray?]

theorem holds_isIn :
    isIn.holds v (.array candidates) ↔ ∃ candidate ∈ candidates, candidate.equal v :=
  Value.containedIn_iff

theorem holds_notIn : notIn.holds v (.array candidates) ↔
    v ≠ .null ∧ ∀ candidate ∈ candidates, ¬ candidate.equal v := by
  simp [holds, Value.asArray?, Value.containedIn, Value.isNull_iff, ← Bool.not_eq_true]

theorem holds_isIn_iff_equal :
    isIn.holds v (.array candidates) ↔ ∃ c ∈ candidates, equal.holds v c := by
  simp only [holds_isIn, Value.equal_comm _ v]
  rfl

private theorem holds_notIn_iff_notEqual :
    notIn.holds v (.array candidates) ↔ v ≠ .null ∧ ∀ c ∈ candidates, notEqual.holds v c := by
  simp only [holds_notIn, Value.equal_comm _ v, holds_notEqual]
  rfl

end FilterOperator

namespace Snapshot

variable {s : Snapshot} {field : FieldPath} {op : FilterOperator} {v operand : Value}

/-- A document matches a clause, given by its parts. -/
def Matches (s : Snapshot) (field : FieldPath) (op : FilterOperator) (operand : Value) : Prop :=
  (FieldFilter.mk field op operand).accepts s

private theorem matches_of_present (found : s.fieldValue? field = some v) :
    s.Matches field op operand ↔ op.holds v operand := by
  rw [Matches, FieldFilter.accepts_iff]
  simp [found]

private theorem not_matches_of_absent (absent : s.fieldValue? field = none) :
    ¬ s.Matches field op operand := by
  rw [Matches, FieldFilter.accepts_iff]
  simp [absent]

/-- How clauses on one field are related, with an operand that is no marker and with any candidates. At
most and at least are less or equal and greater or equal. Equal and not equal exclude each other and share
the documents that have the field. Less, equal and greater exclude each other and share those that have
a value of the operand's kind. To be one of the candidates is to equal one, and to be none of them is to have
a value other than null that equals none. To contain any of them is to contain one. -/
theorem operators_related (s : Snapshot) (field : FieldPath) (value : operand.isSentinel = false)
    (candidates : List Value) :
    (s.Matches field .lessThanOrEqual operand ↔
        s.Matches field .lessThan operand ∨ s.Matches field .equal operand) ∧
      (s.Matches field .greaterThanOrEqual operand ↔
        s.Matches field .greaterThan operand ∨ s.Matches field .equal operand) ∧
      (∀ v, s.fieldValue? field = some v →
        (s.Matches field .notEqual operand ↔ ¬ s.Matches field .equal operand)) ∧
      (s.fieldValue? field = none →
        ¬ s.Matches field .equal operand ∧ ¬ s.Matches field .notEqual operand) ∧
      (¬ (s.Matches field .lessThan operand ∧ s.Matches field .equal operand) ∧
        ¬ (s.Matches field .lessThan operand ∧ s.Matches field .greaterThan operand) ∧
        ¬ (s.Matches field .equal operand ∧ s.Matches field .greaterThan operand)) ∧
      (∀ v, s.fieldValue? field = some v → v.rank = operand.rank →
        s.Matches field .lessThan operand ∨ s.Matches field .equal operand ∨
          s.Matches field .greaterThan operand) ∧
      (s.Matches field .isIn (.array candidates) ↔ ∃ c ∈ candidates, s.Matches field .equal c) ∧
      (s.Matches field .notIn (.array candidates) ↔
        (∃ v, s.fieldValue? field = some v ∧ v ≠ .null) ∧
          ∀ c ∈ candidates, s.Matches field .notEqual c) ∧
      (s.Matches field .arrayContainsAny (.array candidates) ↔
        ∃ c ∈ candidates, s.Matches field .arrayContains c) := by
  cases found : s.fieldValue? field with
  | none => simp [not_matches_of_absent found]
  | some v =>
    simp only [matches_of_present found, Option.some.injEq, reduceCtorEq, false_implies, true_and,
      forall_eq', exists_eq_left']
    exact ⟨FilterOperator.holds_lessThanOrEqual value, FilterOperator.holds_greaterThanOrEqual value,
      FilterOperator.holds_notEqual, FilterOperator.order_operators_exclusive value,
      FilterOperator.order_operators_exhaustive value, FilterOperator.holds_isIn_iff_equal,
      FilterOperator.holds_notIn_iff_notEqual, FilterOperator.holds_arrayContainsAny⟩

/-- A gauge that shows not-a-number, and that has been read as one, as two and as that. -/
def gauge : Snapshot where
  key := ⟨⟨["items", "gauge"]⟩, by decide, by decide⟩
  fields? := some [("level", .double .nan), ("read", .array [.integer 1, .double .nan, .integer 2])]

def level : FieldPath := ⟨["level"], by decide, by decide⟩

theorem operators_related_gauge :
    (Value.double .nan).isSentinel = false ∧
      (gauge.Matches level .lessThanOrEqual (.double .nan) ↔
        gauge.Matches level .lessThan (.double .nan) ∨ gauge.Matches level .equal (.double .nan)) ∧
      ¬ (gauge.Matches level .lessThan (.double .nan) ∧ gauge.Matches level .equal (.double .nan)) ∧
      (gauge.Matches level .lessThan (.double .nan) ∨ gauge.Matches level .equal (.double .nan) ∨
        gauge.Matches level .greaterThan (.double .nan)) := by
  have value : (Value.double .nan).isSentinel = false := rfl
  obtain ⟨atMost, -, -, -, ⟨apart, -⟩, share, -⟩ := operators_related gauge level value []
  exact ⟨value, atMost, apart, share (.double .nan) rfl rfl⟩

end Snapshot

end DocumentStore
