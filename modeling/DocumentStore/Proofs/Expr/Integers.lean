import DocumentStore.Error
import DocumentStore.Proofs.Number.Integers

/-! # Integer operands are exact

An operand may be computed from integers by the four operations, nested to any depth. It is read in the
integers without bounds: if every part of it has a value of sixty-four bits and no divisor is zero, then
it folds to its value, and otherwise to none at all. -/

namespace DocumentStore

private theorem exactInteger?_eq_some {n : Int} {m : Int64} :
    exactInteger? n = some m ↔ m.toInt = n := by
  unfold exactInteger?
  constructor
  · intro found
    split at found
    · rename_i fits
      cases found
      exact IsInt64.toInt_ofInt fits
    · cases found
  · rintro rfl
    exact (if_pos (isInt64_toInt m)).trans (congrArg some (Int64.ofInt_toInt m))

private theorem exactInteger?_eq_none {n : Int} : exactInteger? n = none ↔ ¬ IsInt64 n := by
  unfold exactInteger? IsInt64
  split <;> simp <;> omega

namespace Arithmetic

/-- An operation in the integers without bounds, division truncating toward zero. -/
def exact (op : Arithmetic) (a b : Int) : Int :=
  match op with
  | .add => a + b
  | .sub => a - b
  | .mul => a * b
  | .div => a.tdiv b

variable {op : Arithmetic} {m n k : Int64}

theorem onIntegers?_eq_some :
    op.onIntegers? m n = some k ↔ (op = .div → n.toInt ≠ 0) ∧ k.toInt = op.exact m.toInt n.toInt := by
  cases op with
  | div => by_cases zero : n.toInt = 0 <;> simp [onIntegers?, exact, exactInteger?_eq_some, zero]
  | _ => simp [onIntegers?, exact, exactInteger?_eq_some]

private theorem onIntegers?_eq_none :
    op.onIntegers? m n = none ↔
      ¬ ((op = .div → n.toInt ≠ 0) ∧ IsInt64 (op.exact m.toInt n.toInt)) := by
  cases op with
  | div => by_cases zero : n.toInt = 0 <;> simp [onIntegers?, exact, exactInteger?_eq_none, zero]
  | _ => simp [onIntegers?, exact, exactInteger?_eq_none]

end Arithmetic

/-- An operand made of integers. -/
inductive IntegerTerm where
  | literal (n : Int64)
  /-- An integer that the caller computes when the expression is compiled. -/
  | captured (n : Int64)
  | arithmetic (op : Arithmetic) (left right : IntegerTerm)

namespace IntegerTerm

def expr : IntegerTerm → Expr
  | .literal n => .constant (.integer n)
  | .captured n => .captured (.integer n)
  | .arithmetic op left right => .arithmetic op left.expr right.expr

/-- The value of a term in the integers without bounds. -/
def value : IntegerTerm → Int
  | .literal n => n.toInt
  | .captured n => n.toInt
  | .arithmetic op left right => op.exact left.value right.value

/-- A term stands in another one: it is that term, or it stands on a side of it. -/
inductive Part (part : IntegerTerm) : IntegerTerm → Prop where
  | whole : Part part part
  | left {op : Arithmetic} {left right : IntegerTerm} (inside : Part part left) :
      Part part (.arithmetic op left right)
  | right {op : Arithmetic} {left right : IntegerTerm} (inside : Part part right) :
      Part part (.arithmetic op left right)

/-- Every intermediate result has sixty-four bits, and nothing is divided by zero. -/
structure Representable (t : IntegerTerm) : Prop where
  results : ∀ part : IntegerTerm, part.Part t → IsInt64 part.value
  divisors : ∀ left right, (arithmetic .div left right).Part t → right.value ≠ 0

variable {op : Arithmetic} {left right t : IntegerTerm}

theorem representable_of_integer {n : Int64} (leaf : ∀ part : IntegerTerm, part.Part t → part = t)
    (number : t.value = n.toInt) (notDivision : ∀ left right, t ≠ arithmetic .div left right) :
    t.Representable where
  results part inside := by
    rw [leaf part inside, number]
    exact isInt64_toInt n
  divisors left right inside := absurd (leaf _ inside).symm (notDivision left right)

private theorem representable_literal (n : Int64) : (literal n).Representable :=
  representable_of_integer (fun _ inside => by cases inside; rfl) rfl nofun

private theorem representable_captured (n : Int64) : (captured n).Representable :=
  representable_of_integer (fun _ inside => by cases inside; rfl) rfl nofun

private theorem representable_arithmetic :
    (arithmetic op left right).Representable ↔ left.Representable ∧ right.Representable ∧
      (op = .div → right.value ≠ 0) ∧ IsInt64 (op.exact left.value right.value) := by
  constructor
  · rintro ⟨results, divisors⟩
    refine ⟨⟨?_, ?_⟩, ⟨?_, ?_⟩, ?_, results _ .whole⟩
    · exact fun part inside => results part inside.left
    · exact fun a b inside => divisors a b inside.left
    · exact fun part inside => results part inside.right
    · exact fun a b inside => divisors a b inside.right
    · rintro rfl
      exact divisors left right .whole
  · rintro ⟨first, second, divisor, result⟩
    constructor
    · intro part inside
      cases inside with
      | whole => exact result
      | left inside => exact first.results part inside
      | right inside => exact second.results part inside
    · intro a b inside
      cases inside with
      | whole => exact divisor rfl
      | left inside => exact first.divisors a b inside
      | right inside => exact second.divisors a b inside

/-- The folding of a term stops at an operation whose sides have values and which has none itself. -/
def StopsAt (t : IntegerTerm) (fault : PlanFault) : Prop :=
  ∃ op left right, ∃ m n : Int64, (arithmetic op left right).Part t ∧
    m.toInt = left.value ∧ n.toInt = right.value ∧
    ¬ ((op = .div → right.value ≠ 0) ∧ IsInt64 (op.exact left.value right.value)) ∧
    fault = .cannotFold op (.integer m) (.integer n)

private theorem stopsAt_of_left {fault : PlanFault} (stops : left.StopsAt fault) :
    (arithmetic op left right).StopsAt fault := by
  obtain ⟨op, a, b, m, n, inside, rest⟩ := stops
  exact ⟨op, a, b, m, n, inside.left, rest⟩

private theorem stopsAt_of_right {fault : PlanFault} (stops : right.StopsAt fault) :
    (arithmetic op left right).StopsAt fault := by
  obtain ⟨op, a, b, m, n, inside, rest⟩ := stops
  exact ⟨op, a, b, m, n, inside.right, rest⟩

private theorem StopsAt.not_representable {fault : PlanFault} (stops : t.StopsAt fault) :
    ¬ t.Representable := by
  obtain ⟨op, a, b, m, n, inside, -, -, hopeless, -⟩ := stops
  intro representable
  refine hopeless ⟨?_, representable.results _ inside⟩
  rintro rfl
  exact representable.divisors a b inside

/-- By induction on the term: the sides are folded first, and where both have values the operation
decides. -/
theorem reduce_expr (t : IntegerTerm) :
    (t.Representable ∧ ∃ n : Int64, n.toInt = t.value ∧ t.expr.reduce = .ok (.integer n)) ∨
      ∃ fault, t.StopsAt fault ∧ t.expr.reduce = .error fault := by
  induction t with
  | literal n => exact .inl ⟨representable_literal n, n, rfl, rfl⟩
  | captured n => exact .inl ⟨representable_captured n, n, rfl, rfl⟩
  | arithmetic op left right first second =>
    rcases first with ⟨representableLeft, m, hm, foldedLeft⟩ | ⟨fault, stops, failed⟩
    · rcases second with ⟨representableRight, n, hn, foldedRight⟩ | ⟨fault, stops, failed⟩
      · have folded : (arithmetic op left right).expr.reduce = op.fold (.integer m) (.integer n) := by
          rw [expr, Expr.reduce, foldedLeft, foldedRight]
        cases result : op.onIntegers? m n with
        | some k =>
          obtain ⟨divisor, exact⟩ := Arithmetic.onIntegers?_eq_some.mp result
          rw [hm, hn] at exact
          rw [hn] at divisor
          refine .inl ⟨representable_arithmetic.mpr ⟨representableLeft, representableRight, divisor,
            exact ▸ isInt64_toInt k⟩, k, exact, ?_⟩
          rw [folded, Arithmetic.fold, Arithmetic.onValues?, result]
          rfl
        | none =>
          have hopeless := Arithmetic.onIntegers?_eq_none.mp result
          rw [hm, hn] at hopeless
          refine .inr ⟨_, ⟨op, left, right, m, n, .whole, hm, hn, hopeless, rfl⟩, ?_⟩
          rw [folded, Arithmetic.fold, Arithmetic.onValues?, result]
          rfl
      · refine .inr ⟨fault, stopsAt_of_right stops, ?_⟩
        rw [expr, Expr.reduce, foldedLeft, failed]
    · refine .inr ⟨fault, stopsAt_of_left stops, ?_⟩
      rw [expr, Expr.reduce, failed]

/-- A term of integers folds exactly if all its intermediate results have sixty-four bits and no divisor
is zero, and it folds to the integer that is its exact value. Otherwise the plan is refused, and the
refusal shows the operation that has no result. -/
theorem integers_fold_exactly (t : IntegerTerm) :
    (∀ v, t.expr.reduce = .ok v ↔ t.Representable ∧ ∃ n : Int64, v = .integer n ∧ n.toInt = t.value) ∧
      (¬ t.Representable ↔ ∃ fault, t.expr.reduce = .error fault ∧ t.StopsAt fault ∧
        (Error.plan fault).code = .invalidPlan) := by
  rcases reduce_expr t with ⟨representable, n, exact, folded⟩ | ⟨fault, stops, failed⟩
  · constructor
    · intro v
      rw [folded]
      constructor
      · intro same
        cases same
        exact ⟨representable, n, rfl, exact⟩
      · rintro ⟨-, k, rfl, exact'⟩
        rw [Int64.toInt_inj.mp (exact.trans exact'.symm)]
    · simp [representable, folded]
  · constructor
    · intro v
      simp [failed, stops.not_representable]
    · simp [failed, stops, stops.not_representable, Error.code]

/-- The quotient of the least integer and minus one is one too large, and so it has no value. -/
example : (arithmetic .div (.literal Int64.minValue) (.captured (-1))).expr.reduce
    = .error (.cannotFold .div (.integer Int64.minValue) (.integer (-1))) := by rfl

end IntegerTerm

end DocumentStore
