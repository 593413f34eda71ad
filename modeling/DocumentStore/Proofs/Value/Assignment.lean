import DocumentStore.Proofs.Value.Place

/-! # Lists of assignments

When assignments keep out of each other's way, so that none is to a place on the way to another one or
beyond it, they may be made in any order. Afterwards each of their places holds what was assigned to it,
and all places that lie apart from them hold what they held before. -/

namespace DocumentStore.Place

variable {keys : List String} {place value : Place}

/-- The keys that lead to a place, and what the place is to hold. -/
abbrev Assignment := List String × Place

def assignAll (assignments : List Assignment) (place : Place) : Place :=
  assignments.foldl (fun place assignment => assign assignment.1 assignment.2 place) place

/-- None of the assignments is to a place on the way to another one or beyond it. -/
def Apart (assignments : List Assignment) : Prop :=
  assignments.Pairwise fun a b => FieldPath.overlap a.1 b.1 = false

variable {assignments later : List Assignment}

theorem Ordered.assignAll (ordered : place.Ordered)
    (new : ∀ assignment ∈ assignments, assignment.2.Ordered) :
    (assignAll assignments place).Ordered := by
  induction assignments generalizing place with
  | nil => exact ordered
  | cons assignment assignments ih =>
    obtain ⟨first, others⟩ := List.forall_mem_cons.mp new
    exact ih (ordered.assign first assignment.1) others

theorem read_assignAll_of_apart (ordered : place.Ordered)
    (new : ∀ assignment ∈ assignments, assignment.2.Ordered)
    (apart : ∀ assignment ∈ assignments, FieldPath.overlap keys assignment.1 = false) :
    read keys (assignAll assignments place) = read keys place := by
  induction assignments generalizing place with
  | nil => rfl
  | cons assignment assignments ih =>
    obtain ⟨first, others⟩ := List.forall_mem_cons.mp new
    obtain ⟨apartFirst, apartOthers⟩ := List.forall_mem_cons.mp apart
    calc read keys (assignAll assignments (assign assignment.1 assignment.2 place))
      _ = read keys (assign assignment.1 assignment.2 place) :=
        ih (ordered.assign first assignment.1) others apartOthers
      _ = read keys place := read_assign_of_apart ordered apartFirst

/-- Every place holds in the end what was assigned to it, however many assignments came after. -/
theorem read_assignAll_of_mem (ordered : place.Ordered)
    (new : ∀ assignment ∈ assignments, assignment.2.Ordered) (apart : Apart assignments)
    (mem : (keys, value) ∈ assignments) : read keys (assignAll assignments place) = value := by
  induction assignments generalizing place with
  | nil => cases mem
  | cons assignment assignments ih =>
    obtain ⟨first, others⟩ := List.forall_mem_cons.mp new
    obtain ⟨apartFirst, apartOthers⟩ := List.pairwise_cons.mp apart
    have after := ordered.assign first assignment.1
    rcases List.mem_cons.mp mem with rfl | mem
    · calc read keys (assignAll assignments (assign keys value place))
        _ = read keys (assign keys value place) := read_assignAll_of_apart after others apartFirst
        _ = value := read_assign_self ordered
    · exact ih after others apartOthers mem

theorem assignAll_perm (ordered : place.Ordered)
    (new : ∀ assignment ∈ assignments, assignment.2.Ordered) (apart : Apart assignments)
    (perm : assignments.Perm later) : assignAll assignments place = assignAll later place := by
  induction perm generalizing place with
  | nil => rfl
  | cons assignment perm ih =>
    obtain ⟨first, others⟩ := List.forall_mem_cons.mp new
    exact ih (ordered.assign first assignment.1) others (List.pairwise_cons.mp apart).2
  | swap second first assignments =>
    have apartPair := (List.pairwise_cons.mp apart).1 second List.mem_cons_self
    exact congrArg (assignAll assignments) (assign_comm ordered apartPair).symm
  | @trans _ between _ perm _ ihFirst ihSecond =>
    have newSecond : ∀ assignment ∈ between, assignment.2.Ordered :=
      fun a mem => new a (perm.mem_iff.mpr mem)
    have apartSecond := perm.pairwise apart fun apart => (FieldPath.overlap_comm _ _).trans apart
    rw [ihFirst ordered new apart, ihSecond ordered newSecond apartSecond]

section Writes

variable {α : Type} {writes : List (List String × α)} {f g : List String × α → Place}
  (ordered : place.Ordered) (newF : ∀ write ∈ writes, (f write).Ordered)
  (newG : ∀ write ∈ writes, (g write).Ordered)
  (apart : writes.Pairwise fun a b => FieldPath.overlap a.1 b.1 = false)

include ordered newF apart

theorem read_assignAll_map {write : List String × α} (mem : write ∈ writes) :
    read write.1 (assignAll (writes.map fun write => (write.1, f write)) place) = f write :=
  read_assignAll_of_mem ordered (List.forall_mem_map.mpr newF) (List.pairwise_map.mpr apart)
    (List.mem_map.mpr ⟨write, mem, rfl⟩)

include newG

/-- Lists of assignments to the same places come to the same only if they assign the same to each. -/
theorem assignAll_inj :
    assignAll (writes.map fun write => (write.1, f write)) place
        = assignAll (writes.map fun write => (write.1, g write)) place
      ↔ ∀ write ∈ writes, f write = g write := by
  constructor
  · intro same write mem
    rw [← read_assignAll_map ordered newF apart mem, same, read_assignAll_map ordered newG apart mem]
  · intro same
    exact congrArg (assignAll · place) (List.map_congr_left fun write mem => by rw [same write mem])

end Writes

/-- Assignments of what is there already change nothing. -/
theorem assignAll_eq_self (ordered : place.Ordered)
    (held : ∀ assignment ∈ assignments, read assignment.1 place = assignment.2) :
    assignAll assignments place = place := by
  induction assignments with
  | nil => rfl
  | cons assignment assignments ih =>
    obtain ⟨first, others⟩ := List.forall_mem_cons.mp held
    have unchanged : assign assignment.1 assignment.2 place = place := first ▸ assign_read ordered
    calc assignAll assignments (assign assignment.1 assignment.2 place)
      _ = assignAll assignments place := by rw [unchanged]
      _ = place := ih others

/-- Values are written into nothing as into an empty map. -/
theorem assignAll_none (nonempty : assignments ≠ [])
    (below : ∀ assignment ∈ assignments, assignment.1 ≠ [] ∧ assignment.2 ≠ none) :
    assignAll assignments none = assignAll assignments (some (.map [])) := by
  obtain ⟨⟨_, _⟩, rest, rfl⟩ := List.exists_cons_of_ne_nil nonempty
  obtain ⟨more, given⟩ := below _ List.mem_cons_self
  obtain ⟨key, keys, rfl⟩ := List.exists_cons_of_ne_nil more
  obtain ⟨v, rfl⟩ := Option.ne_none_iff_exists'.mp given
  exact congrArg (assignAll rest) (assign_some_of_not_map rfl v)

theorem assignAll_append (assignments later : List Assignment) (place : Place) :
    assignAll (assignments ++ later) place = assignAll later (assignAll assignments place) :=
  List.foldl_append

/-- Assignments below one key change the entry of that key. -/
theorem assignAll_below {fields : Fields} (sorted : Entries.Sorted fields) (key : String)
    (assignments : List Assignment) :
    assignAll (assignments.map fun assignment => (key :: assignment.1, assignment.2)) (some (.map fields))
      = some (.map (Entries.assign key (assignAll assignments (Entries.find? key fields)) fields)) := by
  induction assignments generalizing fields with
  | nil => exact congrArg (some ∘ Value.map) (Entries.assign_find? sorted key).symm
  | cons assignment assignments ih =>
    have first := sorted.assign key (assign assignment.1 assignment.2 (Entries.find? key fields))
    rw [List.map_cons, assignAll, List.foldl_cons, assign_map]
    calc assignAll (assignments.map fun assignment => (key :: assignment.1, assignment.2)) _
      _ = _ := ih first
      _ = _ := by
        rw [Entries.find?_assign_self sorted, Entries.assign_assign sorted]
        rfl

end DocumentStore.Place
