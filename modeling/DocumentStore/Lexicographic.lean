/-! # Lexicographic comparison

Lists are compared element by element; of two lists that agree as far as the shorter one goes, the
shorter one comes first. -/

namespace DocumentStore

/-- The lexicographic comparison of lists for a comparison of their elements. -/
def lexOrder {α : Type} (order : α → α → Ordering) : List α → List α → Ordering
  | [], [] => .eq
  | [], _ :: _ => .lt
  | _ :: _, [] => .gt
  | a :: as, b :: bs => (order a b).then (lexOrder order as bs)

theorem lexOrder_self {α : Type} {order : α → α → Ordering} (refl : ∀ a, order a a = .eq)
    (as : List α) : lexOrder order as as = .eq := by
  induction as with
  | nil => rfl
  | cons a as ih => simp [lexOrder, refl, ih]

theorem lexOrder_swap {α : Type} {order : α → α → Ordering}
    (swap : ∀ a b, (order a b).swap = order b a) (as bs : List α) :
    (lexOrder order as bs).swap = lexOrder order bs as := by
  induction as generalizing bs with
  | nil => cases bs <;> rfl
  | cons a as ih =>
    cases bs with
    | nil => rfl
    | cons b bs => simp [lexOrder, Ordering.swap_then, swap, ih]

end DocumentStore
