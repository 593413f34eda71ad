import DocumentStore.Proofs.Value.Assignment
import DocumentStore.Proofs.Value.Leaves

/-! # Keys on the way

A value in a document is reached by a list of keys that leads through maps. A path can be made of these
keys if none of them is empty. An assignment adds the keys on its way and those of the value that is
assigned, so that it makes an empty key only if one of these is empty. -/

namespace DocumentStore

namespace Value

variable {v : Value} {fields : Fields}

/-- No key on the way along any path is empty: a map has no empty key, and neither have the maps in its
fields. -/
inductive Filled : Value → Prop where
  | map {fields : Fields} (filled : ∀ entry ∈ fields, entry.1 ≠ "")
      (inner : ∀ entry ∈ fields, Filled entry.2) : Filled (.map fields)
  | leaf {v : Value} (notMap : v.asMap? = none) : Filled v

theorem filled_map :
    (Value.map fields).Filled
      ↔ (∀ entry ∈ fields, entry.1 ≠ "") ∧ ∀ entry ∈ fields, entry.2.Filled := by
  constructor
  · intro filled
    cases filled with
    | map filled inner => exact ⟨filled, inner⟩
    | leaf notMap => cases notMap
  · rintro ⟨filled, inner⟩
    exact .map filled inner

theorem filled_of_isLeaf (isLeaf : v.isLeaf) : v.Filled := by
  cases v with
  | map fields =>
    obtain rfl := List.isEmpty_iff.mp isLeaf
    exact .map (List.forall_mem_nil _) (List.forall_mem_nil _)
  | _ => exact .leaf rfl

end Value

namespace Fields

variable {fields : Fields} {keys : List String} {v : Value}

/-- No key on the way along any path from these fields is empty. -/
def Filled (fields : Fields) : Prop := (Value.map fields).Filled

theorem filled_nil : Filled [] := Value.filled_of_isLeaf rfl

/-- A value is reached from fields through the entries of maps, along certain keys. -/
inductive Holds : Fields → List String → Value → Prop where
  | field {fields : Fields} {key : String} {v : Value} (mem : (key, v) ∈ fields) : Holds fields [key] v
  | inside {fields nested : Fields} {key : String} {keys : List String} {v : Value}
      (mem : (key, .map nested) ∈ fields) (holds : Holds nested keys v) : Holds fields (key :: keys) v

theorem Holds.nonempty (holds : fields.Holds keys v) : keys ≠ [] := by
  cases holds <;> exact List.cons_ne_nil _ _

/-- In sorted tables what is reached along certain keys is what is looked up there. -/
theorem holds_iff_get? (ordered : fields.Ordered) : fields.Holds keys v ↔ get? keys fields = some v := by
  constructor
  · intro holds
    induction holds with
    | field mem => exact ordered.sorted.find?_eq_some.mpr mem
    | @inside fields nested key _ _ mem holds ih =>
      have found : Entries.find? key fields = nested.root := ordered.sorted.find?_eq_some.mpr mem
      rw [get?_cons holds.nonempty, inner_of_map found]
      exact ih ((ordered_iff.mp ordered).2 _ mem)
  · intro found
    induction keys generalizing fields with
    | nil => cases found
    | cons key keys ih =>
      cases keys with
      | nil => exact .field (Entries.mem_of_find? found)
      | cons next rest =>
        rw [get?_cons (List.cons_ne_nil _ _)] at found
        rcases Place.map_or_not (Entries.find? key fields) with ⟨nested, there⟩ | notMap
        · rw [inner_of_map there] at found
          have mem := Entries.mem_of_find? there
          exact .inside mem (ih ((ordered_iff.mp ordered).2 _ mem) found)
        · rw [inner_of_not_map notMap, get?_nil] at found
          cases found

end Fields

private theorem Value.filled_of_holds {v : Value}
    (named : ∀ fields : Fields, v = .map fields → ∀ keys w, fields.Holds keys w → "" ∉ keys) :
    v.Filled := by
  induction v using Value.nested_induction with
  | array elements _ => exact .leaf rfl
  | leaf v _ notMap => exact .leaf notMap
  | map fields ih =>
    have named := named fields rfl
    refine .map (fun entry mem empty => ?_) fun entry mem =>
      ih entry mem fun nested same keys w holds => ?_
    · exact named _ _ (.field mem) (List.mem_singleton.mpr empty.symm)
    · have there : (entry.1, .map nested) ∈ fields := by rwa [← same]
      exact fun within => named _ _ (.inside there holds) (List.mem_cons_of_mem _ within)

/-- No key is empty if and only if no value is reached along an empty key. -/
theorem Fields.filled_iff_holds {fields : Fields} :
    fields.Filled ↔ ∀ keys v, fields.Holds keys v → "" ∉ keys := by
  constructor
  · intro filled keys v holds
    induction holds with
    | field mem =>
      have named := (Value.filled_map.mp filled).1 _ mem
      exact fun within => named (List.mem_singleton.mp within).symm
    | inside mem _ ih =>
      obtain ⟨named, inner⟩ := Value.filled_map.mp filled
      exact List.not_mem_cons_of_ne_of_not_mem (named _ mem).symm (ih (inner _ mem))
  · intro named
    refine Value.filled_of_holds fun nested same => ?_
    cases same
    exact named

namespace Place

/-- No key below the place is empty. -/
def Filled (place : Place) : Prop := ∀ v ∈ place, v.Filled

variable {place value : Place} {fields : Fields} {keys : List String} {assignments : List Assignment}

theorem filled_map : Filled (some (.map fields)) ↔ fields.Filled := by
  simp [Filled, Fields.Filled]

private theorem filled_find? (filled : fields.Filled) (key : String) :
    Filled (Entries.find? key fields) :=
  fun _ found => (Value.filled_map.mp filled).2 _ (Entries.mem_of_find? found)

theorem Filled.read (filled : place.Filled) (keys : List String) : (read keys place).Filled :=
  forall_read (fun _ filled => (Value.filled_map.mp filled).2) filled keys

private theorem filled_entriesAssign {key : String} (filled : fields.Filled) (named : key ≠ "")
    (new : value.Filled) : Fields.Filled (Entries.assign key value fields) := by
  obtain ⟨keys, inner⟩ := Value.filled_map.mp filled
  refine .map (fun entry mem => ?_) (Entries.forall_assign inner new)
  cases value with
  | some v =>
    rcases Entries.mem_insert mem with rfl | old
    · exact named
    · exact keys entry old
  | none => exact keys entry ((Entries.erase_sublist key fields).subset mem)

theorem Filled.assign (filled : place.Filled) (named : "" ∉ keys) (new : value.Filled) :
    (assign keys value place).Filled := by
  induction keys generalizing place with
  | nil => exact new
  | cons key keys ih =>
    obtain ⟨first, rest⟩ := List.ne_and_not_mem_of_not_mem_cons named
    have below {fields : Fields} (filled : fields.Filled) :
        (Place.assign (key :: keys) value fields.root).Filled :=
      filled_map.mpr (filled_entriesAssign filled first.symm (ih (filled_find? filled key) rest))
    rcases place.map_or_not with ⟨fields, rfl⟩ | notMap
    · exact below (filled_map.mp filled)
    · cases value with
      | none => rwa [assign_none_of_not_map notMap]
      | some v =>
        rw [assign_some_of_not_map notMap]
        exact below Fields.filled_nil

theorem Filled.assignAll (filled : place.Filled)
    (new : ∀ assignment ∈ assignments, "" ∉ assignment.1 ∧ assignment.2.Filled) :
    (assignAll assignments place).Filled := by
  induction assignments generalizing place with
  | nil => exact filled
  | cons assignment assignments ih =>
    obtain ⟨⟨named, first⟩, others⟩ := List.forall_mem_cons.mp new
    exact ih (filled.assign named first) others

end Place

end DocumentStore
