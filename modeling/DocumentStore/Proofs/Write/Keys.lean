import DocumentStore.Proofs.Value.Keys
import DocumentStore.Proofs.Write.Merge

/-! # Empty keys

The data of a set is checked for empty keys at every depth, so that a set stores none. Of an update the
paths are checked and the values are not: it stores just those empty keys that the maps in its payload
have. -/

namespace DocumentStore

namespace Fields

open Payload (UpdateData)

variable {prior after data payload : Fields} {writes : List FieldWrite} {update : UpdateData}
  {v : Value} {before : Option Value} {now : Timestamp}

theorem filled_resolve (writable : v.Writable) (filled : v.Filled) :
    Place.Filled (v.resolve before now) := by
  intro stored resolved
  rcases Value.of_resolve writable resolved with rfl | notMap
  · exact filled
  · exact .leaf notMap

/-- Writes at paths without empty keys leave no empty key if and only if none stands in their values, for
each of these is stored, unless it is a marker. -/
theorem Independent.filledAfter_iff (independent : Independent writes) (ordered : prior.Ordered)
    (filled : prior.Filled)
    (written : after.root = Place.assignAll (resolved prior now writes) prior.root)
    (named : ∀ write ∈ writes, "" ∉ write.1) :
    after.Filled ↔ ∀ write ∈ writes, write.2.Filled := by
  constructor
  · rintro filledAfter ⟨keys, v⟩ mem
    cases v with
    | map fields =>
      have found := independent.get?_of_mem ordered written mem
      rw [Value.resolve_of_not_sentinel rfl, get?_eq_read (independent.nonempty _ mem)] at found
      exact (Place.filled_map.mpr filledAfter).read keys _ found
    | _ => exact .leaf rfl
  · intro values
    have new : ∀ assignment ∈ resolved prior now writes, "" ∉ assignment.1 ∧ assignment.2.Filled :=
      List.forall_mem_map.mpr fun write mem =>
        ⟨named write mem, filled_resolve (independent.writable write mem) (values write mem)⟩
    have assigned := (Place.filled_map.mpr filled).assignAll new
    rw [← written] at assigned
    exact Place.filled_map.mp assigned

/-- An update stores an empty key just if it has one in its payload. -/
theorem filled_applyUpdate_iff (orderedPrior : prior.Ordered) (filledPrior : prior.Filled)
    (ordered : payload.Ordered) (accepted : Payload.encodeUpdate payload = .ok update)
    (now : Timestamp) :
    (applyUpdate prior update.data update.paths now).Filled ↔ ∀ entry ∈ payload, entry.2.Filled := by
  rw [(independent_writesAt accepted ordered).filledAfter_iff orderedPrior filledPrior
    (root_applyUpdate accepted orderedPrior ordered now) fun write mem => ?named]
  case named =>
    obtain ⟨path, -, -, same⟩ := mem_writesAt.mp mem
    exact same ▸ path.filled
  constructor
  · intro values entry mem
    obtain ⟨path, -, mem⟩ := exists_write_of_mem accepted mem
    exact values _ mem
  · intro values write mem
    obtain ⟨entry, hentry, path, -, -, rfl⟩ := exists_entry_of_write accepted mem
    exact values entry hentry

theorem filled_resolveFields {fields : Fields} (filled : ∀ entry ∈ fields, entry.1 ≠ "")
    (prior : Fields)
    (inner : ∀ entry ∈ fields, ∀ before, Place.Filled (entry.2.resolveForSet before now)) :
    Fields.Filled (Value.resolveFields prior now fields) := by
  obtain ⟨sameKeys, resolved⟩ := Value.of_resolveFields prior now fields
  have named : ∀ key ∈ fields.map Prod.fst, key ≠ "" := List.forall_mem_map.mpr filled
  rw [← sameKeys] at named
  refine .map (fun next mem => named next.1 (List.mem_map_of_mem mem)) fun next mem => ?_
  obtain ⟨entry, hentry, stored⟩ := resolved next mem
  exact inner entry hentry _ next.2 stored

private theorem filled_resolveForSet (mergeable : v.Mergeable) (before : Option Value) :
    Place.Filled (v.resolveForSet before now) := by
  induction mergeable generalizing before with
  | leaf notMap writable kept =>
    rw [Value.resolveForSet_of_not_map notMap kept]
    exact filled_resolve writable (.leaf notMap)
  | map filled _ ih => exact Place.filled_map.mpr (filled_resolveFields filled _ ih)

/-- A set stores no empty key, whether it merges or not. -/
theorem filled_applySet {prior : Option Fields} (orderedPrior : ∀ fields ∈ prior, fields.Ordered)
    (filledPrior : ∀ fields ∈ prior, fields.Filled) (ordered : data.Ordered)
    (mergeable : (Value.map data).Mergeable) (merge : Bool) (now : Timestamp) :
    (applySet prior data merge now).Filled := by
  cases merge with
  | true =>
    refine ((independent_leavesOf ordered mergeable).filledAfter_iff (ordered_getD orderedPrior)
      (of_getD filled_nil filledPrior) (root_applySet mergeable prior now) fun leaf mem => ?_).mpr
        fun leaf mem => ?_
    · exact (validLeaf_of_mem mergeable leaf mem).1
    · exact Value.filled_of_isLeaf ((mem_leavesOf ordered).mp mem).2
  | false =>
    obtain ⟨filled, inner⟩ := Value.mergeable_map.mp mergeable
    exact filled_resolveFields filled _ fun entry mem => filled_resolveForSet (inner entry mem)

end Fields

end DocumentStore
