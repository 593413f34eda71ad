import DocumentStore.Proofs.Entries
import DocumentStore.Proofs.Value.Inside
import DocumentStore.Proofs.Value.Paths

/-! # Places in documents

A document whose tables are sorted is looked at as a tree of places, each of which holds a value or
nothing. An assignment puts a value at a place or removes what is there. What is assigned to a place is
read there, no other place sees a difference unless one of the two paths leads through the other, and
such assignments may change places. -/

namespace DocumentStore

theorem FieldPath.overlap_self (keys : List String) : overlap keys keys = true := by
  rw [overlap, List.isPrefixOf_iff_prefix.mpr List.prefix_rfl, Bool.true_or]

theorem FieldPath.overlap_comm (keys others : List String) :
    overlap keys others = overlap others keys :=
  Bool.or_comm _ _

theorem FieldPath.overlap_eq_false {keys others : List String} :
    overlap keys others = false ↔ ¬ keys <+: others ∧ ¬ others <+: keys := by
  rw [overlap, Bool.or_eq_false_iff, ← Bool.not_eq_true, ← Bool.not_eq_true, List.isPrefixOf_iff_prefix,
    List.isPrefixOf_iff_prefix]

theorem FieldPath.overlap_cons_self {key : String} {keys others : List String} :
    overlap (key :: keys) (key :: others) = overlap keys others := by
  simp [overlap]

theorem FieldPath.overlap_cons_of_ne {key other : String} (ne : key ≠ other) (keys others : List String) :
    overlap (key :: keys) (other :: others) = false := by
  simp [overlap, List.isPrefixOf, ne, Ne.symm ne]

namespace Value

/-- The tables on the way along any path are sorted: a map has its keys in order, and so have the maps
in its fields. -/
inductive Ordered : Value → Prop where
  | map {fields : Fields} (sorted : Entries.Sorted fields)
      (inner : ∀ entry ∈ fields, Ordered entry.2) : Ordered (.map fields)
  | leaf {v : Value} (notMap : v.asMap? = none) : Ordered v

theorem ordered_map {fields : Fields} :
    (Value.map fields).Ordered ↔ Entries.Sorted fields ∧ ∀ entry ∈ fields, entry.2.Ordered := by
  constructor
  · intro ordered
    cases ordered with
    | map sorted inner => exact ⟨sorted, inner⟩
    | leaf notMap => cases notMap
  · rintro ⟨sorted, inner⟩
    exact .map sorted inner

instance (fields : Fields) : Decidable (Entries.Sorted fields) :=
  inferInstanceAs (Decidable (List.Pairwise _ _))

mutual

/-- Tells the values with sorted tables on the way along any path. -/
def isOrdered : Value → Bool
  | .map fields => decide (Entries.Sorted fields) && allOrdered fields
  | _ => true

/-- Tells the fields whose values have sorted tables. -/
def allOrdered : Entries Value → Bool
  | [] => true
  | (_, v) :: fields => isOrdered v && allOrdered fields

end

private theorem isOrdered_iff {v : Value} : v.isOrdered ↔ v.Ordered := by
  induction v using nested_induction with
  | array elements ih => exact iff_of_true rfl (.leaf rfl)
  | map fields ih =>
    rw [isOrdered, Bool.and_eq_true, decide_eq_true_iff, test_iff_forall rfl fun _ _ => rfl, ordered_map]
    exact and_congr_right' (forall₂_congr ih)
  | leaf v notArray notMap =>
    refine iff_of_true ?_ (.leaf notMap)
    cases v <;> first | rfl | cases notMap

instance (v : Value) : Decidable v.Ordered := decidable_of_iff _ isOrdered_iff

end Value

/-- The tables on the way along any path from these fields are sorted. -/
def Fields.Ordered (fields : Fields) : Prop := (Value.map fields).Ordered

instance (fields : Fields) : Decidable fields.Ordered :=
  inferInstanceAs (Decidable (Value.Ordered _))

theorem Fields.ordered_iff {fields : Fields} :
    fields.Ordered ↔ Entries.Sorted fields ∧ ∀ entry ∈ fields, entry.2.Ordered :=
  Value.ordered_map

theorem Fields.Ordered.sorted {fields : Fields} (ordered : fields.Ordered) : Entries.Sorted fields :=
  (ordered_iff.mp ordered).1

theorem Fields.ordered_nil : Fields.Ordered [] :=
  ordered_iff.mpr ⟨List.Pairwise.nil, List.forall_mem_nil _⟩

/-- What stands at a place of a document, if anything does. -/
abbrev Place := Option Value

namespace Place

/-- What stands at the end of a list of keys that begins at a place. -/
def read : List String → Place → Place
  | [], place => place
  | key :: keys, some (.map fields) => read keys (Entries.find? key fields)
  | _ :: _, _ => none

/-- The fields of the map at a place through which an assignment leads. A value makes a map where there
is none; a removal does not. -/
def passage : Place → Place → Option Fields
  | _, some (.map fields) => some fields
  | some _, _ => some []
  | none, _ => none

/-- A place after an assignment at the end of a list of keys that begins there. -/
def assign : List String → Place → Place → Place
  | [], value, _ => value
  | key :: keys, value, place =>
    match passage value place with
    | some fields =>
      some (.map (Entries.assign key (assign keys value (Entries.find? key fields)) fields))
    | none => place

/-- The tables below a place are sorted. -/
def Ordered (place : Place) : Prop := ∀ v ∈ place, v.Ordered

variable {key : String} {keys others : List String} {place value value' : Place} {fields : Fields}

theorem read_map : read (key :: keys) (some (.map fields)) = read keys (Entries.find? key fields) := rfl

theorem assign_map : assign (key :: keys) value (some (.map fields))
    = some (.map (Entries.assign key (assign keys value (Entries.find? key fields)) fields)) := rfl

/-- A place holds a map, or a path that goes on from there leads nowhere. -/
theorem map_or_not (place : Place) :
    (∃ fields, place = some (.map fields)) ∨ place.bind Value.asMap? = none := by
  cases place with
  | none => exact .inr rfl
  | some v =>
    cases v with
    | map fields => exact .inl ⟨fields, rfl⟩
    | _ => exact .inr rfl

section NotMap

variable (notMap : place.bind Value.asMap? = none)

include notMap

theorem read_of_not_map : read (key :: keys) place = none := by
  cases place with
  | none => rfl
  | some v => cases v <;> first | rfl | cases notMap

theorem assign_none_of_not_map : assign (key :: keys) none place = place := by
  cases place with
  | none => rfl
  | some v => cases v <;> first | rfl | cases notMap

/-- A value is written as into an empty map. -/
theorem assign_some_of_not_map (v : Value) :
    assign (key :: keys) (some v) place = assign (key :: keys) (some v) (some (.map [])) := by
  cases place with
  | none => rfl
  | some v => cases v <;> first | rfl | cases notMap

end NotMap

@[simp] theorem read_none (keys : List String) : read keys none = none := by
  cases keys <;> rfl

@[simp] theorem assign_none_none (keys : List String) : assign keys none none = none := by
  cases keys <;> rfl

/-- A path leads on from the place at the end of its first part. -/
theorem read_append (keys rest : List String) (place : Place) :
    read (keys ++ rest) place = read rest (read keys place) := by
  induction keys generalizing place with
  | nil => rfl
  | cons key keys ih =>
    rcases place.map_or_not with ⟨fields, rfl⟩ | notMap
    · exact ih (Entries.find? key fields)
    · rw [List.cons_append, read_of_not_map notMap, read_of_not_map notMap, read_none]

theorem ordered_none : Ordered none := fun _ found => by cases found

theorem ordered_map : Ordered (some (.map fields)) ↔ fields.Ordered := by
  simp [Ordered, Fields.Ordered]

theorem ordered_find? (ordered : fields.Ordered) (key : String) : Ordered (Entries.find? key fields) :=
  fun _ found => (Fields.ordered_iff.mp ordered).2 _ (Entries.mem_of_find? found)

private theorem ordered_entriesAssign (ordered : fields.Ordered) (new : value.Ordered) :
    Fields.Ordered (Entries.assign key value fields) := by
  obtain ⟨sorted, inner⟩ := Fields.ordered_iff.mp ordered
  exact Fields.ordered_iff.mpr ⟨sorted.assign _ _, Entries.forall_assign inner new⟩

/-- What maps pass on to the values in them is passed on to every place below. -/
theorem forall_read {P : Value → Prop} (inner : ∀ fields, P (.map fields) → ∀ entry ∈ fields, P entry.2)
    (all : ∀ v ∈ place, P v) (keys : List String) : ∀ v ∈ read keys place, P v := by
  induction keys generalizing place with
  | nil => exact all
  | cons key keys ih =>
    rcases place.map_or_not with ⟨fields, rfl⟩ | notMap
    · exact ih fun v found => inner fields (all _ rfl) _ (Entries.mem_of_find? found)
    · rw [read_of_not_map notMap]
      exact nofun

theorem Ordered.read (ordered : place.Ordered) (keys : List String) : (read keys place).Ordered :=
  forall_read (fun _ ordered => (Value.ordered_map.mp ordered).2) ordered keys

/-- An assignment below a place changes the fields of a map, the empty one if there is none, or it is a
removal from a place without fields. -/
theorem assign_cases (ordered : place.Ordered) (key : String) (keys : List String) (value : Place) :
    (∃ fields : Fields, fields.Ordered ∧
      (∀ name names, read (name :: names) place = read (name :: names) (some (.map fields))) ∧
      assign (key :: keys) value place = assign (key :: keys) value (some (.map fields)))
    ∨ value = none ∧ place.bind Value.asMap? = none := by
  rcases place.map_or_not with ⟨fields, rfl⟩ | notMap
  · exact .inl ⟨fields, ordered_map.mp ordered, fun _ _ => rfl, rfl⟩
  · cases value with
    | none => exact .inr ⟨rfl, notMap⟩
    | some v =>
      have reads (name : String) (names : List String) :
          read (name :: names) place = read (name :: names) (some (.map [])) := by
        rw [read_of_not_map notMap, read_map, Entries.find?_nil, read_none]
      exact .inl ⟨[], Fields.ordered_nil, reads, assign_some_of_not_map notMap v⟩

theorem Ordered.assign (ordered : place.Ordered) (new : value.Ordered) (keys : List String) :
    (assign keys value place).Ordered := by
  induction keys generalizing place with
  | nil => exact new
  | cons key keys ih =>
    rcases assign_cases ordered key keys value with ⟨fields, sorted, -, same⟩ | ⟨rfl, notMap⟩
    · rw [same]
      exact ordered_map.mpr (ordered_entriesAssign sorted (ih (ordered_find? sorted key)))
    · rwa [assign_none_of_not_map notMap]

/-- What was assigned to a place is read there. -/
theorem read_assign_self (ordered : place.Ordered) : read keys (assign keys value place) = value := by
  induction keys generalizing place with
  | nil => rfl
  | cons key keys ih =>
    rcases assign_cases ordered key keys value with ⟨fields, sorted, -, same⟩ | ⟨rfl, notMap⟩
    · rw [same, assign_map, read_map, Entries.find?_assign_self sorted.sorted]
      exact ih (ordered_find? sorted key)
    · rw [assign_none_of_not_map notMap, read_of_not_map notMap]

/-- An assignment leaves every place alone that neither lies on the way nor beyond. -/
theorem read_assign_of_apart (ordered : place.Ordered) (apart : FieldPath.overlap keys others = false) :
    read keys (assign others value place) = read keys place := by
  induction keys generalizing others place with
  | nil => cases apart
  | cons key keys ih =>
    cases others with
    | nil => simp [FieldPath.overlap] at apart
    | cons other others =>
      rcases assign_cases ordered other others value with ⟨fields, sorted, reads, same⟩ | ⟨rfl, notMap⟩
      · rw [same, reads, assign_map, read_map, read_map]
        by_cases sameKey : key = other
        · subst sameKey
          rw [FieldPath.overlap_cons_self] at apart
          rw [Entries.find?_assign_self sorted.sorted, ih (ordered_find? sorted key) apart]
        · rw [Entries.find?_assign_of_ne sameKey]
      · rw [assign_none_of_not_map notMap]

theorem assign_none_empty (key : String) (keys : List String) :
    assign (key :: keys) none (some (.map [])) = some (.map []) := by
  rw [assign_map, Entries.find?_nil, assign_none_none]
  rfl

/-- Two assignments below a map change different fields, or they go on below the same one. -/
theorem assign_comm_map {other : String} (sorted : Entries.Sorted fields)
    (apart : FieldPath.overlap (key :: keys) (other :: others) = false)
    (below : FieldPath.overlap keys others = false →
      assign keys value (assign others value' (Entries.find? key fields))
        = assign others value' (assign keys value (Entries.find? key fields))) :
    assign (key :: keys) value (assign (other :: others) value' (some (.map fields)))
      = assign (other :: others) value' (assign (key :: keys) value (some (.map fields))) := by
  rw [assign_map, assign_map, assign_map, assign_map]
  by_cases same : key = other
  · subst same
    rw [FieldPath.overlap_cons_self] at apart
    rw [Entries.find?_assign_self sorted, Entries.find?_assign_self sorted,
      Entries.assign_assign sorted, Entries.assign_assign sorted, below apart]
  · rw [Entries.find?_assign_of_ne same, Entries.find?_assign_of_ne (Ne.symm same),
      Entries.assign_comm same sorted]

/-- Assignments to places of which neither lies beyond the other may change places. -/
theorem assign_comm (ordered : place.Ordered) (apart : FieldPath.overlap keys others = false) :
    assign keys value (assign others value' place)
      = assign others value' (assign keys value place) := by
  induction keys generalizing others place with
  | nil => cases apart
  | cons key keys ih =>
    cases others with
    | nil => simp [FieldPath.overlap] at apart
    | cons other others =>
      rcases place.map_or_not with ⟨fields, rfl⟩ | notMap
      · have inside := ordered_map.mp ordered
        exact assign_comm_map inside.sorted apart (ih (ordered_find? inside key))
      · -- A value is written as into an empty map, in which a removal finds nothing to do either.
        have inEmpty : assign (key :: keys) value (assign (other :: others) value' (some (.map [])))
            = assign (other :: others) value' (assign (key :: keys) value (some (.map []))) :=
          assign_comm_map .nil apart (ih ordered_none)
        cases value with
        | none =>
          cases value' with
          | none =>
            rw [assign_none_of_not_map notMap, assign_none_of_not_map notMap,
              assign_none_of_not_map notMap]
          | some v' =>
            rw [assign_none_of_not_map notMap, assign_some_of_not_map notMap, inEmpty,
              assign_none_empty]
        | some v =>
          cases value' with
          | none =>
            rw [assign_none_of_not_map notMap, assign_some_of_not_map notMap, ← inEmpty,
              assign_none_empty]
          | some v' =>
            rw [assign_some_of_not_map notMap, assign_some_of_not_map notMap, inEmpty]

private theorem exists_assign_some (keys : List String) (v : Value) (place : Place) :
    ∃ w, assign keys (some v) place = some w := by
  cases keys with
  | nil => exact ⟨v, rfl⟩
  | cons key keys =>
    rcases place.map_or_not with ⟨fields, rfl⟩ | notMap
    · exact ⟨_, rfl⟩
    · exact ⟨_, assign_some_of_not_map notMap v⟩

/-- A value at the end of a longer path is put into what stands at the end of its first part. -/
theorem assign_append (keys rest : List String) (v : Value) (place : Place) :
    assign (keys ++ rest) (some v) place
      = assign keys (assign rest (some v) (read keys place)) place := by
  induction keys generalizing place with
  | nil => rfl
  | cons key keys ih =>
    rcases place.map_or_not with ⟨fields, rfl⟩ | notMap
    · rw [List.cons_append, assign_map, assign_map, read_map, ih]
    · obtain ⟨w, written⟩ := exists_assign_some rest v none
      rw [List.cons_append, read_of_not_map notMap, written, assign_some_of_not_map notMap,
        assign_some_of_not_map notMap, assign_map, assign_map, ih, Entries.find?_nil, read_none, written]

/-- A value that is assigned to a place replaces whatever was assigned to it before. -/
theorem assign_assign (ordered : place.Ordered) (keys : List String) (v : Value) (value : Place) :
    assign keys (some v) (assign keys value place) = assign keys (some v) place := by
  induction keys generalizing place with
  | nil => rfl
  | cons key keys ih =>
    have inMap {fields : Fields} (inside : fields.Ordered) :
        assign (key :: keys) (some v) (assign (key :: keys) value (some (.map fields)))
          = assign (key :: keys) (some v) (some (.map fields)) := by
      rw [assign_map, assign_map, assign_map, Entries.find?_assign_self inside.sorted,
        Entries.assign_assign inside.sorted, ih (ordered_find? inside key)]
    rcases place.map_or_not with ⟨fields, rfl⟩ | notMap
    · exact inMap (ordered_map.mp ordered)
    · cases value with
      | none => rw [assign_none_of_not_map notMap]
      | some v' =>
        rw [assign_some_of_not_map notMap, assign_some_of_not_map notMap, inMap Fields.ordered_nil]

/-- Assigning to a place what stands there changes nothing. -/
theorem assign_read (ordered : place.Ordered) : assign keys (read keys place) place = place := by
  induction keys generalizing place with
  | nil => rfl
  | cons key keys ih =>
    rcases place.map_or_not with ⟨fields, rfl⟩ | notMap
    · have sorted := ordered_map.mp ordered
      rw [read_map, assign_map, ih (ordered_find? sorted key), Entries.assign_find? sorted.sorted]
    · rw [read_of_not_map notMap, assign_none_of_not_map notMap]

end Place

namespace Fields

variable {keys : List String} {fields : Fields} {v : Value}

/-- The place at which a document begins. -/
abbrev root (fields : Fields) : Place := some (.map fields)

theorem root_inj {fields other : Fields} : fields.root = other.root ↔ fields = other := by
  simp [root]

theorem inner_of_map {key : String} {nested : Fields} (found : Entries.find? key fields = nested.root) :
    inner key fields = nested := by
  rw [inner, found]

theorem inner_of_not_map {key : String} (notMap : (Entries.find? key fields).bind Value.asMap? = none) :
    inner key fields = [] := by
  unfold inner
  split
  · rename_i nested found
    rw [found] at notMap
    cases notMap
  · rfl

private theorem remove_of_map {key : String} {nested : Fields} (more : keys ≠ [])
    (found : Entries.find? key fields = nested.root) :
    remove (key :: keys) fields = Entries.insert key (.map (remove keys nested)) fields := by
  rw [remove, found]
  exact more

private theorem remove_of_not_map {key : String} (more : keys ≠ [])
    (notMap : (Entries.find? key fields).bind Value.asMap? = none) :
    remove (key :: keys) fields = fields := by
  rw [remove]
  · split
    · rename_i nested found
      rw [found] at notMap
      cases notMap
    · rfl
  · exact more

/-- What is looked up at a path is what stands at the place to which it leads. -/
theorem get?_eq_read (nonempty : keys ≠ []) : get? keys fields = Place.read keys fields.root := by
  induction keys generalizing fields with
  | nil => exact absurd rfl nonempty
  | cons key keys ih =>
    cases keys with
    | nil => rfl
    | cons next rest =>
      have more : next :: rest ≠ [] := List.cons_ne_nil _ _
      rw [get?_cons more, Place.read_map]
      rcases Place.map_or_not (Entries.find? key fields) with ⟨nested, found⟩ | notMap
      · rw [inner_of_map found, found, ih more]
      · rw [inner_of_not_map notMap, get?_nil, Place.read_of_not_map notMap]

/-- Writing at a path assigns the value to the place to which it leads. -/
theorem root_put (nonempty : keys ≠ []) :
    (put keys v fields).root = Place.assign keys (some v) fields.root := by
  induction keys generalizing fields with
  | nil => exact absurd rfl nonempty
  | cons key keys ih =>
    cases keys with
    | nil => rfl
    | cons next rest =>
      have more : next :: rest ≠ [] := List.cons_ne_nil _ _
      have nested : (put (next :: rest) v (inner key fields)).root
          = Place.assign (next :: rest) (some v) (Entries.find? key fields) := by
        rw [ih more]
        rcases Place.map_or_not (Entries.find? key fields) with ⟨nested, found⟩ | notMap
        · rw [inner_of_map found, found]
        · rw [inner_of_not_map notMap, Place.assign_some_of_not_map notMap]
      rw [put_cons more, Place.assign_map, ← nested]
      rfl

/-- Removing at a path takes away what stands at the place to which it leads. -/
theorem root_remove (ordered : fields.Ordered) (nonempty : keys ≠ []) :
    (remove keys fields).root = Place.assign keys none fields.root := by
  induction keys generalizing fields with
  | nil => exact absurd rfl nonempty
  | cons key keys ih =>
    cases keys with
    | nil => rfl
    | cons next rest =>
      have more : next :: rest ≠ [] := List.cons_ne_nil _ _
      rw [Place.assign_map]
      rcases Place.map_or_not (Entries.find? key fields) with ⟨nested, found⟩ | notMap
      · have inside : Fields.Ordered nested :=
          Place.ordered_map.mp (found ▸ Place.ordered_find? ordered key)
        rw [remove_of_map more found, found, ← ih inside more]
        rfl
      · rw [remove_of_not_map more notMap, Place.assign_none_of_not_map notMap,
          Entries.assign_find? ordered.sorted]

end Fields

end DocumentStore
