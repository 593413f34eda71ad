import DocumentStore.Proofs.Value.Inside
import DocumentStore.Proofs.Value.Order
import DocumentStore.Proofs.Value.Paths
import DocumentStore.Query.Execution

/-! # The order of a result

Documents are compared by the values at the fields of an ordering, each in its direction, and then by
their paths. The comparison is total on documents whose integers are doubles exactly, and it ties
only for one and the same document. Cursors are compared with documents in the same way. -/

namespace DocumentStore

namespace Direction

private theorem apply_swap (d : Direction) (o : Ordering) : d.apply o.swap = (d.apply o).swap := by
  cases d <;> rfl

theorem apply_flipped (d : Direction) (o : Ordering) : d.flipped.apply o = (d.apply o).swap := by
  cases d <;> simp [flipped, apply]

@[simp] theorem apply_eq_eq (d : Direction) {o : Ordering} : d.apply o = .eq ↔ o = .eq := by
  cases d <;> simp [apply]

theorem apply_composes (d : Direction) {a b c : Ordering} (h : Composes a b c) :
    Composes (d.apply a) (d.apply b) (d.apply c) := by
  cases d
  · exact h
  · exact h.swap

end Direction

namespace Snapshot

/-- Tells the documents whose integers, at any depth, are doubles exactly. -/
def isExact (s : Snapshot) : Bool := s.fields?.all Value.allExactFields

private theorem isExact_fieldValue {s : Snapshot} {field : FieldPath} {v : Value} (exact : s.isExact)
    (found : s.fieldValue? field = some v) : v.isExact := by
  unfold fieldValue? at found
  split at found
  · cases found
    rfl
  · obtain ⟨fields, hfields, hget⟩ := Option.bind_eq_some_iff.mp found
    rw [isExact, hfields] at exact
    exact Fields.of_get? (P := (Value.isExact ·)) (fun _ => Value.allExactFields_iff)
      (Value.allExactFields_iff.mp exact) hget

end Snapshot

namespace OrderBy

variable {s t u : Snapshot}

theorem isExact_value (order : OrderBy) (exact : s.isExact) : (order.value s).isExact := by
  unfold value
  cases h : s.fieldValue? order.field with
  | none => rfl
  | some v => exact Snapshot.isExact_fieldValue exact h

private theorem compare_swap (order : OrderBy) (s t : Snapshot) :
    (order.compare s t).swap = order.compare t s := by
  rw [compare, compare, ← Direction.apply_swap, Value.order_swap]

private theorem compare_composes (order : OrderBy) (hs : s.isExact) (ht : t.isExact) (hu : u.isExact) :
    Composes (order.compare s t) (order.compare t u) (order.compare s u) :=
  order.direction.apply_composes <| Value.order_composes _ _ _
    (order.isExact_value hs) (order.isExact_value ht) (order.isExact_value hu)

end OrderBy

namespace ResourcePath

private theorem order_swap (a b : ResourcePath) : (a.order b).swap = b.order a :=
  lexOrder_swap (fun _ _ => Std.OrientedOrd.eq_swap.symm) _ _

private theorem order_composes (a b c : ResourcePath) : Composes (a.order b) (b.order c) (a.order c) :=
  lexOrder_composes Composes.of_compare _ _ _

theorem order_eq_iff {a b : ResourcePath} : a.order b = .eq ↔ a = b := by
  rw [order, lexOrder_eq_iff fun _ _ => Std.LawfulEqOrd.compare_eq_iff_eq]
  cases a
  cases b
  simp

end ResourcePath

section Documents

variable {s t u : Snapshot} (orders : List OrderBy)

private theorem compareByChain_swap (s t : Snapshot) :
    (compareByChain orders s t).swap = compareByChain orders t s := by
  induction orders with
  | nil => rfl
  | cons order orders ih =>
    rw [compareByChain, compareByChain, Ordering.swap_then, order.compare_swap, ih]

private theorem compareByChain_composes (hs : s.isExact) (ht : t.isExact) (hu : u.isExact) :
    Composes (compareByChain orders s t) (compareByChain orders t u)
      (compareByChain orders s u) := by
  induction orders with
  | nil => exact Composes.eq_left _
  | cons order orders ih => exact (order.compare_composes hs ht hu).andThen ih

theorem compareDocuments_swap (s t : Snapshot) :
    (compareDocuments orders s t).swap = compareDocuments orders t s := by
  rw [compareDocuments, compareDocuments, Ordering.swap_then, compareByChain_swap,
    ResourcePath.order_swap]

theorem compareDocuments_composes (hs : s.isExact) (ht : t.isExact) (hu : u.isExact) :
    Composes (compareDocuments orders s t) (compareDocuments orders t u)
      (compareDocuments orders s u) :=
  (compareByChain_composes orders hs ht hu).andThen (ResourcePath.order_composes _ _ _)

/-- Only snapshots of one document tie. -/
theorem key_eq_of_compareDocuments {orders : List OrderBy}
    (tie : compareDocuments orders s t = .eq) : s.key = t.key := by
  have path : s.key.path = t.key.path :=
    ResourcePath.order_eq_iff.mp (Ordering.then_eq_eq.mp tie).2
  cases hs : s.key
  cases ht : t.key
  simp_all

end Documents

end DocumentStore
