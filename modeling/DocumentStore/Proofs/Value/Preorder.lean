import DocumentStore.Proofs.Number.Magnitude
import DocumentStore.Proofs.Value.Order

/-! # Values are totally preordered

The order of values ties every value with itself, turns over when two values change places, and is
transitive as long as the integers in the values are doubles exactly. Numbers are compared by what they
stand for, so the ties between numbers are those between two ways of writing one number. -/

namespace DocumentStore

namespace Number

/-- What a number stands for; not-a-number stands for nothing. -/
def value? : Number → Option (WithBot (WithTop ℚ))
  | .integer n => some ((n.toInt : ℚ) : WithTop ℚ)
  | .double d => d.value?

private theorem value?_toDouble {a : Number} (ha : a.isExact) : a.toDouble.value? = a.value? := by
  cases a with
  | integer n => exact Double.value?_ofInt (of_decide_eq_true ha)
  | double d => rfl

/-- Numbers that are doubles exactly are compared by what they stand for. -/
theorem order_eq_compare {a b : Number} (ha : a.isExact) (hb : b.isExact) :
    a.order b = compare a.value? b.value? := by
  rw [order_toDouble ha hb, Double.order_eq_compare, value?_toDouble ha, value?_toDouble hb]

end Number

namespace Value

/-- The comparison of values is a total preorder on the values whose integers are doubles exactly, at
every depth; that it is reflexive and turns over with its arguments holds of all values. Numbers are
compared by what they stand for, with not-a-number before all others. -/
theorem order_totalPreorder (x y z : Value) :
    order x x = .eq ∧ order x y = (order y x).swap ∧
      (x.isExact → y.isExact → z.isExact → order x y ≠ .gt → order y z ≠ .gt → order x z ≠ .gt) ∧
      (x.isExact → y.isExact → ∀ m n, x.number? = some m → y.number? = some n →
        order x y = compare m.value? n.value?) := by
  refine ⟨order_self x, (order_swap y x).symm, ?_, ?_⟩
  · intro hx hy hz hxy hyz
    have xy : (order x y).isLE := Ordering.isLE_iff_ne_gt.mpr hxy
    have yz : (order y z).isLE := Ordering.isLE_iff_ne_gt.mpr hyz
    exact Ordering.isLE_iff_ne_gt.mp ((order_composes x y z hx hy hz).isLE xy yz)
  · intro hx hy m n hm hn
    rw [order_numbers hm hn]
    exact Number.order_eq_compare (isExact_number hm ▸ hx) (isExact_number hn ▸ hy)

/-- A list of not-a-number and a count, which is written as an integer or as a double. -/
def reading (count : Value) : Value := .array [.double .nan, .map [("count", count)]]

/-- The largest integer up to which all are doubles. -/
def largeInteger : Value := .integer 9007199254740992

def largeDouble : Value := .double (.ofRank false (1076 * 2 ^ 52))

theorem order_totalPreorder_reading :
    (reading largeInteger).isExact ∧ order (reading largeInteger) (reading largeDouble) = .eq ∧
      order (reading largeDouble) (reading .serverTimestamp) = .lt ∧
      order (reading largeInteger) (reading .serverTimestamp) ≠ .gt ∧
      order largeInteger largeDouble
        = compare (Number.value? (.integer 9007199254740992))
          (Number.value? (.double (.ofRank false (1076 * 2 ^ 52)))) := by
  have held : (reading largeInteger).isExact := by decide
  have ties : order (reading largeInteger) (reading largeDouble) = .eq := by decide +kernel
  have first : order (reading largeDouble) (reading .serverTimestamp) = .lt := by decide
  obtain ⟨-, -, trans, -⟩ :=
    order_totalPreorder (reading largeInteger) (reading largeDouble) (reading .serverTimestamp)
  obtain ⟨-, -, -, numbers⟩ := order_totalPreorder largeInteger largeDouble .null
  refine ⟨held, ties, first, ?_, ?_⟩
  · exact trans held rfl rfl (by rw [ties]; decide) (by rw [first]; decide)
  · exact numbers (by decide) rfl _ _ rfl rfl

end Value

end DocumentStore
