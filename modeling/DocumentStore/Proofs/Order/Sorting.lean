import DocumentStore.Proofs.Order.Composition

/-! # Sorting by a comparison

A comparison that composes only among the elements at hand still sorts them, and where no two of them
tie there is one strictly increasing arrangement. -/

namespace DocumentStore

/-- Sorting needs the order to be transitive and total among the elements of the list only. -/
theorem pairwise_mergeSort_of_mem {α : Type} {le : α → α → Bool} {l : List α}
    (trans : ∀ a ∈ l, ∀ b ∈ l, ∀ c ∈ l, le a b → le b c → le a c)
    (total : ∀ a ∈ l, ∀ b ∈ l, le a b || le b a) :
    (l.mergeSort le).Pairwise (fun a b => le a b = true) := by
  -- The elements are sorted together with the proof that they are in the list.
  have attached : l.mergeSort le
      = (l.attach.mergeSort fun a b => le a.1 b.1).map Subtype.val := by
    rw [List.map_mergeSort (s := le) fun _ _ _ _ => rfl, List.attach_map_subtype_val]
  rw [attached, List.pairwise_map]
  refine List.pairwise_mergeSort ?_ ?_ _
  · exact fun a b c => trans a.1 a.2 b.1 b.2 c.1 c.2
  · exact fun a b => total a.1 a.2 b.1 b.2

/-- A list in which no element that passes a test comes after one that fails it falls into those that
pass and those that fail. -/
theorem filter_append_filter_of_falling {α : Type} {p q : α → Bool} {l : List α}
    (opposite : ∀ a ∈ l, q a = !p a) (falling : l.Pairwise fun a b => p b → p a) :
    l.filter p ++ l.filter q = l := by
  induction l with
  | nil => rfl
  | cons a l ih =>
    obtain ⟨first, others⟩ := List.forall_mem_cons.mp opposite
    obtain ⟨before, falling⟩ := List.pairwise_cons.mp falling
    cases passes : p a with
    | true =>
      rw [List.filter_cons_of_pos passes, List.filter_cons_of_neg (by simp [first, passes]),
        List.cons_append, ih others falling]
    | false =>
      -- Everything that follows fails as well.
      have fails : ∀ b ∈ a :: l, p b = false := by
        refine List.forall_mem_cons.mpr ⟨passes, fun b mem => ?_⟩
        exact Bool.eq_false_iff.mpr fun later => by simp [before b mem later] at passes
      have none : (a :: l).filter p = [] := by simpa using fails
      have all : (a :: l).filter q = a :: l :=
        List.filter_eq_self.mpr fun b mem => by rw [opposite b mem, fails b mem]; rfl
      rw [none, all, List.nil_append]

section Comparison

variable {α : Type} {order : α → α → Ordering} {l l' : List α}

private theorem ne_gt_or_ne_gt (swap : ∀ a b, (order a b).swap = order b a) (a b : α) :
    (order a b != .gt || order b a != .gt) = true := by
  rw [← swap a b]
  cases order a b <;> rfl

/-- Elements of which no two tie are sorted strictly. -/
theorem pairwise_lt_mergeSort
    (composes : ∀ a ∈ l, ∀ b ∈ l, ∀ c ∈ l, Composes (order a b) (order b c) (order a c))
    (swap : ∀ a b, (order a b).swap = order b a)
    (distinct : l.Pairwise fun a b => order a b ≠ .eq) :
    (l.mergeSort fun a b => order a b != .gt).Pairwise fun a b => order a b = .lt := by
  have sorted : (l.mergeSort fun a b => order a b != .gt).Pairwise
      fun a b => (order a b != .gt) = true := by
    refine pairwise_mergeSort_of_mem (fun a ha b hb c hc hab hbc => ?_)
      fun a _ b _ => ne_gt_or_ne_gt swap a b
    simp only [bne_iff_ne, ne_eq, ← Ordering.isLE_iff_ne_gt] at hab hbc ⊢
    exact (composes a ha b hb c hc).isLE hab hbc
  have distinct' : (l.mergeSort fun a b => order a b != .gt).Pairwise
      fun a b => order a b ≠ .eq := by
    refine (List.mergeSort_perm l _).symm.pairwise distinct fun {a b} h tie => h ?_
    rw [← swap b a, tie]
    rfl
  refine (sorted.and distinct').imp fun {a b} h => ?_
  obtain ⟨notAfter, noTie⟩ := h
  cases hab : order a b with
  | lt => rfl
  | eq => exact absurd hab noTie
  | gt => rw [hab] at notAfter; cases notAfter

/-- There is one strictly increasing arrangement. -/
theorem eq_of_pairwise_lt (swap : ∀ a b, (order a b).swap = order b a)
    (increasing : l.Pairwise fun a b => order a b = .lt)
    (increasing' : l'.Pairwise fun a b => order a b = .lt) (perm : l.Perm l') : l = l' := by
  refine perm.eq_of_pairwise (fun a b _ _ hab hba => ?_) increasing increasing'
  rw [← swap a b, hab] at hba
  cases hba

/-- The elements after one in a strictly increasing list are those that follow it. -/
theorem filter_gt_of_pairwise_lt (swap : ∀ a b, (order a b).swap = order b a) {before after : List α}
    {a : α} (increasing : (before ++ a :: after).Pairwise fun a b => order a b = .lt) :
    (before ++ a :: after).filter (fun b => order b a == .gt) = after := by
  obtain ⟨-, tail, across⟩ := List.pairwise_append.mp increasing
  have itself : order a a = .eq := by
    have fixed := swap a a
    cases h : order a a <;> simp_all
  have earlier : before.filter (fun b => order b a == .gt) = [] := by
    rw [List.filter_eq_nil_iff]
    intro b mem
    rw [across b mem a List.mem_cons_self]
    exact Bool.noConfusion
  have later : after.filter (fun b => order b a == .gt) = after := by
    rw [List.filter_eq_self]
    intro b mem
    rw [← swap a b, (List.pairwise_cons.mp tail).1 b mem]
    rfl
  rw [List.filter_append, earlier, List.nil_append, List.filter_cons, itself]
  exact later

end Comparison

end DocumentStore
