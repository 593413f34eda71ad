import DocumentStore.Lexicographic

/-! # Comparisons that compose

A comparison is transitive when the outcomes for three elements fit together. The fit is stated for
three outcomes at once, so that it can be carried through lexicographic comparison and through the
reversal of a direction without mentioning what is compared. -/

namespace DocumentStore

/-- The outcomes for `x, y`, for `y, z` and for `x, z` fit together: an equality on one side passes
the other outcome on, and two equal outcomes give the same outcome again. -/
def Composes (xy yz xz : Ordering) : Prop :=
  (xy = .eq → xz = yz) ∧ (yz = .eq → xz = xy) ∧ (xy = yz → xz = xy)

instance (xy yz xz : Ordering) : Decidable (Composes xy yz xz) :=
  inferInstanceAs (Decidable (_ ∧ _ ∧ _))

namespace Composes

variable {a b c a' b' c' : Ordering}

@[simp] theorem eq_left (b : Ordering) : Composes .eq b b :=
  ⟨fun _ => rfl, fun hb => hb, fun hb => hb.symm⟩

@[simp] theorem eq_right (a : Ordering) : Composes a .eq a :=
  ⟨fun ha => ha, fun _ => rfl, fun _ => rfl⟩

@[simp] theorem lt_left (b : Ordering) : Composes .lt b .lt :=
  ⟨nofun, fun _ => rfl, fun _ => rfl⟩

@[simp] theorem gt_right (a : Ordering) : Composes a .gt .gt :=
  ⟨fun _ => rfl, nofun, fun ha => ha.symm⟩

@[simp] theorem gt_lt (c : Ordering) : Composes .gt .lt c := ⟨nofun, nofun, nofun⟩

@[simp] theorem lt_gt (c : Ordering) : Composes .lt .gt c := ⟨nofun, nofun, nofun⟩

/-- What is decided by a first comparison and, at a tie, by a second one. -/
theorem andThen (h : Composes a b c) (h' : Composes a' b' c') :
    Composes (a.then a') (b.then b') (c.then c') := by
  obtain ⟨hl, hr, hs⟩ := h
  cases a with
  | eq =>
    rw [hl rfl]
    cases b with
    | eq => exact h'
    | lt => exact ⟨fun _ => rfl, nofun, fun hb => hb.symm⟩
    | gt => exact gt_right _
  | lt =>
    cases b with
    | eq => rw [hr rfl]; exact lt_left _
    | lt => rw [hs rfl]; exact lt_left _
    | gt => exact lt_gt _
  | gt =>
    cases b with
    | eq => rw [hr rfl]; exact ⟨nofun, fun _ => rfl, fun _ => rfl⟩
    | lt => exact gt_lt _
    | gt => rw [hs rfl]; exact gt_right _

theorem swap (h : Composes a b c) : Composes a.swap b.swap c.swap := by
  obtain ⟨hl, hr, hs⟩ := h
  refine ⟨fun ha => ?_, fun hb => ?_, fun hab => ?_⟩
  · rw [hl (Ordering.swap_eq_eq.mp ha)]
  · rw [hr (Ordering.swap_eq_eq.mp hb)]
  · rw [hs (Ordering.swap_inj.mp hab)]

/-- Equal outcomes that differ from a tie decide the third one. -/
theorem lt (h : Composes a b c) (ha : a = .lt) (hb : b = .lt) : c = .lt := by
  rw [h.2.2 (ha.trans hb.symm), ha]

theorem isLE (h : Composes a b c) (ha : a.isLE) (hb : b.isLE) : c.isLE := by
  obtain ⟨hl, hr, hs⟩ := h
  cases a with
  | eq => rw [hl rfl]; exact hb
  | lt =>
    cases b with
    | eq => rw [hr rfl]; rfl
    | lt => rw [hs rfl]; rfl
    | gt => cases hb
  | gt => cases ha

theorem lt_of_isLE (h : Composes a b c) (ha : a.isLE) (hb : b = .lt) : c = .lt := by
  cases a with
  | eq => rw [h.1 rfl, hb]
  | lt => exact h.lt rfl hb
  | gt => cases ha

/-- The comparisons of the standard library compose. -/
theorem of_compare {α : Type} [Ord α] [Std.TransOrd α] (x y z : α) :
    Composes (compare x y) (compare y z) (compare x z) := by
  refine ⟨Std.TransCmp.congr_left, fun h => (Std.TransCmp.congr_right h).symm, fun h => ?_⟩
  cases hxy : compare x y with
  | eq => rw [Std.TransCmp.congr_left hxy, ← h, hxy]
  | lt => exact Std.TransCmp.lt_trans hxy (h.symm.trans hxy)
  | gt => exact Std.TransCmp.gt_trans hxy (h.symm.trans hxy)

end Composes

/-- A lexicographic comparison composes when the comparison of the elements at hand does. -/
theorem lexOrder_composes {α : Type} {order : α → α → Ordering}
    (composes : ∀ x y z, Composes (order x y) (order y z) (order x z)) (xs ys zs : List α) :
    Composes (lexOrder order xs ys) (lexOrder order ys zs) (lexOrder order xs zs) := by
  induction xs generalizing ys zs with
  | nil => cases ys <;> cases zs <;> simp [lexOrder]
  | cons x xs ih =>
    cases ys with
    | nil => cases zs <;> simp [lexOrder]
    | cons y ys =>
      cases zs with
      | nil => exact Composes.gt_right _
      | cons z zs => exact (composes x y z).andThen (ih ys zs)

/-- Two lists tie only if they are equal, when this holds for their elements. -/
theorem lexOrder_eq_iff {α : Type} {order : α → α → Ordering}
    (eq_iff : ∀ x y, order x y = .eq ↔ x = y) (xs ys : List α) :
    lexOrder order xs ys = .eq ↔ xs = ys := by
  induction xs generalizing ys with
  | nil => cases ys <;> simp [lexOrder]
  | cons x xs ih =>
    cases ys with
    | nil => simp [lexOrder]
    | cons y ys => simp [lexOrder, Ordering.then_eq_eq, eq_iff, ih]

end DocumentStore
