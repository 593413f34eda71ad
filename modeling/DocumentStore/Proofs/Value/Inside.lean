import DocumentStore.Value.Basic
import Mathlib.Data.List.Basic

/-! # Values inside values

Arrays and maps hold values, which may be arrays and maps in their turn. What is said of the values at
every depth is said of a value itself and, if it holds values, of those at every depth of each of them.
The contents of a marker are not counted. -/

namespace DocumentStore.Value

/-- A value stands somewhere in another one: it is that value, or it stands in one of its elements or
in the value of one of its fields. -/
inductive Inside (w : Value) : Value → Prop where
  | itself : Inside w w
  | element {v : Value} {elements : List Value} (mem : v ∈ elements) (inside : Inside w v) :
      Inside w (.array elements)
  | field {entry : String × Value} {fields : Entries Value} (mem : entry ∈ fields)
      (inside : Inside w entry.2) : Inside w (.map fields)

/-- What holds of an array once it holds of its elements, of a map once it holds of the values in it,
and of everything else, holds of every value. -/
@[elab_as_elim]
theorem nested_induction {P : Value → Prop}
    (array : ∀ elements, (∀ v ∈ elements, P v) → P (.array elements))
    (map : ∀ fields, (∀ entry ∈ fields, P entry.2) → P (.map fields))
    (leaf : ∀ v, v.asArray? = none → v.asMap? = none → P v) (v : Value) : P v := by
  -- the recursor also wants a motive for lists of values, for tables and for their entries
  refine @Value.rec P (fun elements => ∀ v ∈ elements, P v) (fun fields => ∀ entry ∈ fields, P entry.2)
    (fun entry => P entry.2) ?null ?boolean ?integer ?double ?timestamp ?string ?bytes ?reference
    array map ?serverTimestamp ?increment ?arrayUnion ?arrayRemove ?deleteField
    (List.forall_mem_nil _) ?element (List.forall_mem_nil _) ?field ?entry v
  case element => exact fun _ _ head tail => List.forall_mem_cons.mpr ⟨head, tail⟩
  case field => exact fun _ _ head tail => List.forall_mem_cons.mpr ⟨head, tail⟩
  case entry => exact fun _ _ value => value
  all_goals
    intros
    exact leaf _ rfl rfl

variable {v w : Value} {elements : List Value} {fields : Entries Value} {P : Value → Prop}

theorem forall_inside_array : (∀ w, w.Inside (.array elements) → P w) ↔
    P (.array elements) ∧ ∀ v ∈ elements, ∀ w, w.Inside v → P w := by
  constructor
  · intro all
    exact ⟨all _ .itself, fun v mem w inside => all w (.element mem inside)⟩
  · rintro ⟨whole, parts⟩ w inside
    cases inside with
    | itself => exact whole
    | element mem inside => exact parts _ mem w inside

theorem forall_inside_map : (∀ w, w.Inside (.map fields) → P w) ↔
    P (.map fields) ∧ ∀ entry ∈ fields, ∀ w, w.Inside entry.2 → P w := by
  constructor
  · intro all
    exact ⟨all _ .itself, fun entry mem w inside => all w (.field mem inside)⟩
  · rintro ⟨whole, parts⟩ w inside
    cases inside with
    | itself => exact whole
    | field mem inside => exact parts _ mem w inside

/-- Nothing but itself stands in a value that holds no values. -/
theorem forall_inside_leaf (notArray : v.asArray? = none) (notMap : v.asMap? = none) :
    (∀ w, w.Inside v → P w) ↔ P v := by
  refine ⟨fun all => all v .itself, fun holds w inside => ?_⟩
  cases inside with
  | itself => exact holds
  | element mem inside => cases notArray
  | field mem inside => cases notMap

/-- A test that looks at one element after another is passed if every element passes. -/
theorem test_iff_forall {α : Type} {p : α → Bool} {test : List α → Bool} (nil : test [] = true)
    (cons : ∀ a as, test (a :: as) = (p a && test as)) {as : List α} :
    test as ↔ ∀ a ∈ as, p a := by
  induction as with
  | nil => simp [nil]
  | cons a as ih => rw [cons, Bool.and_eq_true, ih, List.forall_mem_cons]

theorem allPlain_iff : allPlain elements ↔ ∀ v ∈ elements, v.isPlain :=
  test_iff_forall rfl fun _ _ => rfl

theorem allPlainFields_iff : allPlainFields fields ↔ ∀ entry ∈ fields, entry.2.isPlain :=
  test_iff_forall rfl fun _ _ => rfl

/-- The plain values are those in which no marker stands. -/
theorem isPlain_iff_inside : v.isPlain ↔ ∀ w : Value, w.Inside v → w.isSentinel = false := by
  induction v using nested_induction with
  | array elements ih =>
    rw [forall_inside_array, isPlain, allPlain_iff]
    simp only [isSentinel, true_and]
    exact forall₂_congr ih
  | map fields ih =>
    rw [forall_inside_map, isPlain, allPlainFields_iff]
    simp only [isSentinel, true_and]
    exact forall₂_congr ih
  | leaf v notArray notMap =>
    rw [forall_inside_leaf notArray notMap]
    cases v <;> simp_all [isPlain, isSentinel, asArray?, asMap?]

theorem isSentinel_of_isPlain (plain : v.isPlain) : v.isSentinel = false :=
  isPlain_iff_inside.mp plain v .itself

end DocumentStore.Value
