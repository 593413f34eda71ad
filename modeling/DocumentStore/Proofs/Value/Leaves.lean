import DocumentStore.Proofs.Value.Inside
import DocumentStore.Proofs.Value.Place

/-! # The leaves of a record

The leaves of a record are the places where there is something other than a map with fields. In a record
whose tables are sorted they are listed with the paths at which they are found, each of them once, and
none of these paths leads through another one. -/

namespace DocumentStore

namespace Value

variable {v w : Value} {key : String} {keys : List String} {fields : Entries Value}
  {leaf : List String × Value}

/-- Tells the values that are not maps with fields. -/
def isLeaf : Value → Bool
  | .map fields => fields.isEmpty
  | _ => true

theorem leaves_of_not_map (notMap : v.asMap? = none) : v.leaves = [([], v)] := by
  cases v <;> first | rfl | cases notMap

private theorem isLeaf_of_not_map (notMap : v.asMap? = none) : v.isLeaf := by
  cases v <;> first | rfl | cases notMap

theorem mem_leavesOf_iff :
    leaf ∈ leavesOf fields
      ↔ ∃ entry ∈ fields, ∃ inner ∈ entry.2.leaves, leaf = (entry.1 :: inner.1, inner.2) := by
  induction fields with
  | nil => simp [leavesOf]
  | cons entry fields ih =>
    rw [leavesOf, List.mem_append, List.mem_map, ih, List.exists_mem_cons_iff]
    simp only [eq_comm]

theorem leaves_ne_nil (v : Value) : v.leaves ≠ [] := by
  induction v using nested_induction with
  | array elements ih => exact List.cons_ne_nil _ _
  | map fields ih =>
    cases fields with
    | nil => exact List.cons_ne_nil _ _
    | cons entry fields =>
      have first := ih entry List.mem_cons_self
      simp [leaves, leavesOf, first]
  | leaf v notArray notMap =>
    rw [leaves_of_not_map notMap]
    exact List.cons_ne_nil _ _

/-- Leaves are found in a sorted table under the keys of its entries. -/
theorem mem_leavesOf_cons (sorted : Entries.Sorted fields)
    (inner : ∀ entry ∈ fields, ∀ keys : List String,
      (keys, w) ∈ entry.2.leaves ↔ Place.read keys (some entry.2) = some w ∧ w.isLeaf) :
    (key :: keys, w) ∈ leavesOf fields
      ↔ Place.read keys (Entries.find? key fields) = some w ∧ w.isLeaf := by
  rw [mem_leavesOf_iff]
  constructor
  · rintro ⟨entry, mem, ⟨rest, v⟩, found, same⟩
    cases same
    rw [sorted.find?_eq_some.mpr mem]
    exact (inner entry mem rest).mp found
  · rintro ⟨found, isLeaf⟩
    cases there : Entries.find? key fields with
    | none =>
      rw [there, Place.read_none] at found
      cases found
    | some v =>
      have mem := Entries.mem_of_find? there
      rw [there] at found
      exact ⟨_, mem, (keys, w), (inner _ mem keys).mpr ⟨found, isLeaf⟩, rfl⟩

/-- The leaves below a value are what is read below it, but for maps with fields. -/
theorem mem_leaves_iff (ordered : v.Ordered) (keys : List String) :
    (keys, w) ∈ v.leaves ↔ Place.read keys (some v) = some w ∧ w.isLeaf := by
  induction ordered generalizing keys with
  | @leaf v notMap =>
    rw [leaves_of_not_map notMap, List.mem_singleton]
    cases keys with
    | nil =>
      constructor
      · rintro ⟨⟩
        exact ⟨rfl, isLeaf_of_not_map notMap⟩
      · rintro ⟨⟨⟩, -⟩
        rfl
    | cons key keys =>
      have nothing : Place.read (key :: keys) (some v) = none := Place.read_of_not_map notMap
      simp [nothing]
  | @map fields sorted _ ih =>
    cases keys with
    | nil =>
      cases fields with
      | nil =>
        constructor
        · intro mem
          cases List.mem_singleton.mp mem
          exact ⟨rfl, rfl⟩
        · rintro ⟨⟨⟩, -⟩
          exact List.mem_singleton_self _
      | cons entry fields =>
        constructor
        · intro mem
          obtain ⟨_, _, _, _, same⟩ := mem_leavesOf_iff.mp mem
          cases same
        · rintro ⟨⟨⟩, ⟨⟩⟩
    | cons key keys =>
      rw [Place.read_map, ← mem_leavesOf_cons sorted ih]
      cases fields with
      | nil => simp [leaves, leavesOf]
      | cons entry fields => rfl

/-- The paths to the leaves of a sorted table keep out of each other's way if those below its values
do. -/
theorem pairwise_leavesOf (sorted : Entries.Sorted fields)
    (inner : ∀ entry ∈ fields, entry.2.leaves.Pairwise fun a b => FieldPath.overlap a.1 b.1 = false) :
    (leavesOf fields).Pairwise fun a b => FieldPath.overlap a.1 b.1 = false := by
  induction fields with
  | nil => exact List.Pairwise.nil
  | cons entry fields ih =>
    obtain ⟨least, rest⟩ := List.pairwise_cons.mp sorted
    obtain ⟨first, others⟩ := List.forall_mem_cons.mp inner
    rw [leavesOf, List.pairwise_append, List.pairwise_map]
    refine ⟨first.imp fun apart => ?_, ih rest others, ?_⟩
    · rwa [FieldPath.overlap_cons_self]
    · intro a ha b hb
      obtain ⟨_, _, rfl⟩ := List.mem_map.mp ha
      obtain ⟨other, mem, _, _, rfl⟩ := mem_leavesOf_iff.mp hb
      have ne : entry.1 ≠ other.1 := fun same => String.lt_irrefl _ (same ▸ least other mem)
      exact FieldPath.overlap_cons_of_ne ne _ _

private theorem pairwise_leaves (ordered : v.Ordered) :
    v.leaves.Pairwise fun a b => FieldPath.overlap a.1 b.1 = false := by
  induction ordered with
  | leaf notMap =>
    rw [leaves_of_not_map notMap]
    exact List.pairwise_singleton _ _
  | @map fields sorted _ ih =>
    rw [leaves]
    split
    · exact List.pairwise_singleton _ _
    · exact pairwise_leavesOf sorted ih

end Value

namespace Fields

variable {fields : Fields} {keys : List String} {v : Value}

/-- A leaf of a record: what is found at a path and is not a map with fields. -/
def Leaf (fields : Fields) (keys : List String) (v : Value) : Prop :=
  get? keys fields = some v ∧ v.isLeaf

theorem mem_leavesOf (ordered : fields.Ordered) :
    (keys, v) ∈ Value.leavesOf fields ↔ fields.Leaf keys v := by
  obtain ⟨sorted, inner⟩ := ordered_iff.mp ordered
  cases keys with
  | nil =>
    constructor
    · intro mem
      obtain ⟨_, _, _, _, same⟩ := Value.mem_leavesOf_iff.mp mem
      cases same
    · rintro ⟨⟨⟩, -⟩
  | cons key keys =>
    rw [Leaf, get?_eq_read (List.cons_ne_nil _ _), Place.read_map]
    exact Value.mem_leavesOf_cons sorted fun entry mem => Value.mem_leaves_iff (inner entry mem)

theorem apart_leavesOf (ordered : fields.Ordered) :
    (Value.leavesOf fields).Pairwise fun a b => FieldPath.overlap a.1 b.1 = false := by
  obtain ⟨sorted, inner⟩ := ordered_iff.mp ordered
  exact Value.pairwise_leavesOf sorted fun entry mem => Value.pairwise_leaves (inner entry mem)

end Fields

end DocumentStore
