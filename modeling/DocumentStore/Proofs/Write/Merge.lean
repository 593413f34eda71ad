import DocumentStore.Proofs.Value.Leaves
import DocumentStore.Proofs.Write.Update

/-! # What a merge does to a document

A merge writes the leaves of its data, each of them at its path. The data of a set that was checked has
valid paths to all its leaves and no field marked for removal, so that a merge is a list of writes that
keep out of each other's way: the one that an update at the paths of the leaves makes. Where there is no
document yet these writes build up the data again, as a set without merging does. -/

namespace DocumentStore

namespace Value

theorem ordered_deletionRecord : deletionRecord.Ordered :=
  .map (List.pairwise_singleton _ _) (List.forall_mem_singleton.mpr (.leaf rfl))

end Value

namespace Payload

open Value (Mergeable deletionRecord)

variable {keys : List String} {v next : Value} {fields encoded : Fields}

private theorem ordered_of_setValue (ordered : v.Ordered) (accepted : setValue keys v = .ok next) :
    next.Ordered := by
  induction ordered generalizing keys next with
  | leaf notMap =>
    rcases of_setValue_leaf accepted notMap with ⟨rfl, rfl⟩ | ⟨rfl, -⟩
    · exact Value.ordered_deletionRecord
    · exact .leaf notMap
  | map sorted _ ih =>
    rw [setValue] at accepted
    obtain ⟨encoded, nested, rfl⟩ := map_eq_ok.mp accepted
    obtain ⟨sameKeys, checked⟩ := of_setFields nested
    refine .map ?_ fun entry mem => ?_
    · exact sorted.of_keys sameKeys
    · obtain ⟨-, old, hold, valid⟩ := checked entry mem
      exact ih old hold valid

theorem ordered_of_encodeSet (ordered : fields.Ordered) (accepted : encodeSet fields = .ok encoded) :
    encoded.Ordered :=
  ordered_of_setValue ordered (setValue_of_encodeSet accepted)

end Payload

namespace Fields

variable {data prior after : Fields} {keys : List String} {v : Value} {now : Timestamp}
  {leaves : List FieldWrite} {before : Option Value}

theorem resolveLeaf_eq (kept : v ≠ .deleteField) :
    some (resolveLeaf before now v) = v.resolve before now := by
  cases v <;> first | rfl | exact absurd rfl kept

private theorem atPath?_of_valid (valid : "" ∉ keys) :
    atPath? keys prior = get? keys prior := if_neg valid

/-- The assignments that a merge makes for leaves, resolved against the document `prior`. -/
def stored (prior : Fields) (now : Timestamp) (leaves : List FieldWrite) : List Place.Assignment :=
  leaves.map fun leaf => (leaf.1, some (resolveLeaf (get? leaf.1 prior) now leaf.2))

private theorem stored_eq_resolved (kept : ∀ leaf ∈ leaves, leaf.2 ≠ .deleteField) :
    stored prior now leaves = resolved prior now leaves :=
  List.map_congr_left fun leaf mem => by rw [resolveLeaf_eq (kept leaf mem)]

/-- A merge makes the assignments of its leaves one after another. -/
theorem root_mergeLeaves {fields : Fields} (nonempty : ∀ leaf ∈ leaves, leaf.1 ≠ [])
    (filled : ∀ leaf ∈ leaves, "" ∉ leaf.1) :
    (mergeLeaves prior now leaves fields).root
      = Place.assignAll (stored prior now leaves) fields.root := by
  induction leaves generalizing fields with
  | nil => rfl
  | cons leaf leaves ih =>
    obtain ⟨first, others⟩ := List.forall_mem_cons.mp nonempty
    obtain ⟨filledFirst, filledOthers⟩ := List.forall_mem_cons.mp filled
    show (mergeLeaves prior now leaves _).root = Place.assignAll (stored prior now leaves)
      (Place.assign leaf.1 (some (resolveLeaf (get? leaf.1 prior) now leaf.2)) fields.root)
    rw [ih others filledOthers, root_put first, atPath?_of_valid filledFirst]

theorem ne_nil_of_mem_leavesOf : ∀ leaf ∈ Value.leavesOf data, leaf.1 ≠ [] := by
  intro leaf mem
  obtain ⟨_, _, _, _, rfl⟩ := Value.mem_leavesOf_iff.mp mem
  exact List.cons_ne_nil _ _

theorem root_merge {prior : Option Fields} (filled : ∀ leaf ∈ Value.leavesOf data, "" ∉ leaf.1) :
    (applySet prior data true now).root
      = Place.assignAll (stored (prior.getD []) now (Value.leavesOf data)) (prior.getD []).root := by
  rw [applySet, if_pos rfl]
  exact root_mergeLeaves ne_nil_of_mem_leavesOf filled

theorem independent_of_writable (ordered : data.Ordered)
    (writable : ∀ leaf ∈ Value.leavesOf data, leaf.2.Writable) : Independent (Value.leavesOf data) where
  nonempty := ne_nil_of_mem_leavesOf
  writable := writable
  ordered leaf mem := by
    have found := (mem_leavesOf ordered).mp mem
    rw [Leaf, get?_eq_read (ne_nil_of_mem_leavesOf leaf mem)] at found
    exact (Place.ordered_map.mpr ordered).read leaf.1 _ found.1
  apart := apart_leavesOf ordered

section Mergeable

variable (ordered : data.Ordered) (mergeable : (Value.map data).Mergeable)

include mergeable

/-- A merge into a document, or into nothing, makes the assignments of its leaves. -/
theorem root_applySet (prior : Option Fields) (now : Timestamp) :
    (applySet prior data true now).root
      = Place.assignAll (resolved (prior.getD []) now (Value.leavesOf data)) (prior.getD []).root := by
  have valid := validLeaf_of_mem mergeable
  rw [root_merge fun leaf mem => (valid leaf mem).1, stored_eq_resolved fun leaf mem => (valid leaf mem).2.2]

include ordered

theorem independent_leavesOf : Independent (Value.leavesOf data) :=
  independent_of_writable ordered fun leaf mem => (validLeaf_of_mem mergeable leaf mem).2.1

end Mergeable

/-- The paths of a list are those of the leaves of a record, each of them named once. -/
structure LeafPaths (data : Fields) (paths : List FieldPath) : Prop where
  nodup : (paths.map FieldPath.segments).Nodup
  mem_iff : ∀ keys, keys ∈ paths.map FieldPath.segments ↔ ∃ v, data.Leaf keys v

theorem nodup_leavesOf (ordered : data.Ordered) : ((Value.leavesOf data).map Prod.fst).Nodup := by
  refine List.pairwise_map.mpr ((apart_leavesOf ordered).imp fun {a b} apart same => ?_)
  rw [same, FieldPath.overlap_self] at apart
  cases apart

/-- The paths of writes with valid paths. -/
def pathsOf (writes : List FieldWrite) (valid : ∀ write ∈ writes, write.1 ≠ [] ∧ "" ∉ write.1) :
    List FieldPath :=
  writes.pmap (fun write path => ⟨write.1, path.1, path.2⟩) valid

private theorem map_segments_pathsOf {writes : List FieldWrite}
    (valid : ∀ write ∈ writes, write.1 ≠ [] ∧ "" ∉ write.1) :
    (pathsOf writes valid).map FieldPath.segments = writes.map Prod.fst := by
  rw [pathsOf, List.map_pmap, List.pmap_eq_map]

private theorem exists_leafPaths (ordered : data.Ordered) (mergeable : (Value.map data).Mergeable) :
    ∃ paths, data.LeafPaths paths := by
  have valid : ∀ leaf ∈ Value.leavesOf data, leaf.1 ≠ [] ∧ "" ∉ leaf.1 := fun leaf mem =>
    ⟨ne_nil_of_mem_leavesOf leaf mem, (validLeaf_of_mem mergeable leaf mem).1⟩
  have segments := map_segments_pathsOf valid
  refine ⟨pathsOf _ valid, segments ▸ nodup_leavesOf ordered, fun keys => ?_⟩
  rw [segments, List.mem_map]
  constructor
  · rintro ⟨leaf, mem, rfl⟩
    exact ⟨leaf.2, (mem_leavesOf ordered).mp mem⟩
  · rintro ⟨v, leaf⟩
    exact ⟨(keys, v), (mem_leavesOf ordered).mpr leaf, rfl⟩

theorem LeafPaths.writesAt_perm {paths : List FieldPath} (listed : data.LeafPaths paths)
    (ordered : data.Ordered) : (writesAt data paths).Perm (Value.leavesOf data) := by
  have nodup : (writesAt data paths).Nodup := by
    have fromKeys : writesAt data paths
        = (paths.map FieldPath.segments).filterMap fun keys => (get? keys data).map (keys, ·) := by
      rw [List.filterMap_map]
      rfl
    rw [fromKeys]
    refine listed.nodup.filterMap fun keys others write made madeAgain => ?_
    obtain ⟨_, -, rfl⟩ := Option.map_eq_some_iff.mp made
    obtain ⟨_, -, same⟩ := Option.map_eq_some_iff.mp madeAgain
    exact (congrArg Prod.fst same).symm
  refine (List.perm_ext_iff_of_nodup nodup (nodup_leavesOf ordered).of_map).mpr fun write => ?_
  obtain ⟨keys, v⟩ := write
  rw [mem_writesAt, mem_leavesOf ordered]
  constructor
  · rintro ⟨path, mem, found, rfl⟩
    obtain ⟨w, held, leaf⟩ := (listed.mem_iff _).mp (List.mem_map_of_mem mem)
    rw [held] at found
    cases found
    exact ⟨held, leaf⟩
  · intro leaf
    obtain ⟨path, mem, rfl⟩ := List.mem_map.mp ((listed.mem_iff keys).mpr ⟨v, leaf⟩)
    exact ⟨path, mem, leaf.1, rfl⟩

theorem ordered_resolveFields {fields : Fields} (sorted : Entries.Sorted fields) (prior : Fields)
    (inner : ∀ entry ∈ fields, ∀ before, Place.Ordered (entry.2.resolveForSet before now)) :
    Fields.Ordered (Value.resolveFields prior now fields) := by
  obtain ⟨sameKeys, resolved⟩ := Value.of_resolveFields prior now fields
  refine ordered_iff.mpr ⟨sorted.of_keys sameKeys, fun next mem => ?_⟩
  obtain ⟨entry, hentry, stored⟩ := resolved next mem
  exact inner entry hentry _ next.2 stored

private theorem ordered_resolveForSet (ordered : v.Ordered) (mergeable : v.Mergeable)
    (before : Option Value) :
    Place.Ordered (v.resolveForSet before now) := by
  induction ordered generalizing before with
  | leaf notMap =>
    cases mergeable with
    | map => cases notMap
    | leaf _ writable kept =>
      rw [Value.resolveForSet_of_not_map notMap kept]
      exact Value.ordered_resolve writable (.leaf notMap)
  | map sorted _ ih =>
    obtain ⟨-, inner⟩ := Value.mergeable_map.mp mergeable
    refine Place.ordered_map.mpr (ordered_resolveFields sorted _ fun entry mem => ?_)
    exact ih entry mem (inner entry mem)

/-- A document that is missing counts as an empty one. -/
theorem of_getD {P : Fields → Prop} {prior : Option Fields} (empty : P [])
    (all : ∀ fields ∈ prior, P fields) : P (prior.getD []) := by
  cases prior with
  | none => exact empty
  | some prior => exact all prior rfl

theorem ordered_getD {prior : Option Fields} (ordered : ∀ fields ∈ prior, fields.Ordered) :
    Fields.Ordered (prior.getD []) :=
  of_getD ordered_nil ordered

/-- A set makes a document with sorted tables, whether it merges or not. -/
theorem ordered_applySet {prior : Option Fields} (orderedPrior : ∀ fields ∈ prior, fields.Ordered)
    (ordered : data.Ordered) (mergeable : (Value.map data).Mergeable) (merge : Bool) (now : Timestamp) :
    (applySet prior data merge now).Ordered := by
  cases merge with
  | true =>
    exact (independent_leavesOf ordered mergeable).orderedAfter (ordered_getD orderedPrior)
      (root_applySet mergeable prior now)
  | false =>
    obtain ⟨sorted, inner⟩ := ordered_iff.mp ordered
    obtain ⟨-, mergeableInner⟩ := Value.mergeable_map.mp mergeable
    exact ordered_resolveFields sorted _ fun entry mem =>
      ordered_resolveForSet (inner entry mem) (mergeableInner entry mem)

private theorem resolved_nil (now : Timestamp) (leaves : List FieldWrite) :
    resolved [] now leaves = leaves.map fun leaf => (leaf.1, leaf.2.resolve none now) := by
  simp only [resolved, get?_nil]

/-- The leaves of fields are put in after the fields before them, one field after another, if the leaves
below each of them build up its value. -/
theorem assignAll_leavesOf_after {fields front : Fields} (sorted : Entries.Sorted (front ++ fields))
    (inner : ∀ entry ∈ fields, Place.assignAll (resolved [] now entry.2.leaves) none
      = entry.2.resolveForSet none now) :
    Place.assignAll (resolved [] now (Value.leavesOf fields)) front.root
      = (front ++ Value.resolveFields [] now fields).root := by
  induction fields generalizing front with
  | nil => exact congrArg root (List.append_nil front).symm
  | cons entry fields ih =>
    obtain ⟨key, v⟩ := entry
    obtain ⟨sortedFront, -, before⟩ := List.pairwise_append.mp sorted
    obtain ⟨built, others⟩ := List.forall_mem_cons.mp inner
    obtain ⟨next, stored⟩ := Value.exists_resolveForSet v none now
    -- All fields put in so far come before this one, so that its entry is put at the end.
    have last : ∀ entry ∈ front, entry.1 < key := fun entry mem => before entry mem _ List.mem_cons_self
    have absent : Entries.find? key front = none :=
      Entries.find?_eq_none fun entry mem same => String.lt_irrefl key (same ▸ last entry mem)
    have first : Place.assignAll
        (resolved [] now (v.leaves.map fun leaf => (key :: leaf.1, leaf.2))) front.root
        = Fields.root (front ++ [(key, next)]) := by
      have below : resolved [] now (v.leaves.map fun leaf => (key :: leaf.1, leaf.2))
          = (resolved [] now v.leaves).map fun assignment => (key :: assignment.1, assignment.2) := by
        rw [resolved_nil, resolved_nil, List.map_map, List.map_map]
        rfl
      rw [below, Place.assignAll_below sortedFront, absent, built, stored]
      exact congrArg root (Entries.insert_of_last last next)
    have sortedNext : Entries.Sorted ((front ++ [(key, next)]) ++ fields) :=
      sorted.of_keys (by simp)
    rw [Value.leavesOf, resolved_append, Place.assignAll_append, first, ih sortedNext others,
      Value.resolveFields, Entries.find?_nil, stored, ← List.append_cons]

theorem assignAll_leavesOf {fields : Fields} (sorted : Entries.Sorted fields)
    (inner : ∀ entry ∈ fields, Place.assignAll (resolved [] now entry.2.leaves) none
      = entry.2.resolveForSet none now) :
    Place.assignAll (resolved [] now (Value.leavesOf fields)) (root [])
      = (Value.resolveFields [] now fields).root :=
  assignAll_leavesOf_after ((List.nil_append fields).symm ▸ sorted) inner

theorem assignAll_leaves (ordered : v.Ordered) (mergeable : v.Mergeable) (now : Timestamp) :
    Place.assignAll (resolved [] now v.leaves) none = v.resolveForSet none now := by
  induction ordered with
  | @leaf v notMap =>
    rw [Value.leaves_of_not_map notMap]
    cases mergeable with
    | map => cases notMap
    | leaf _ _ kept => exact (Value.resolveForSet_of_not_map notMap kept).symm
  | @map fields sorted _ ih =>
    obtain ⟨filled, inner⟩ := Value.mergeable_map.mp mergeable
    cases fields with
    | nil => rfl
    | cons entry fields =>
      have valid := Value.validLeaf_of_mem_leavesOf filled fun entry mem => (inner entry mem).validLeaf
      have nonempty : resolved [] now (Value.leavesOf (entry :: fields)) ≠ [] :=
        List.map_eq_nil_iff.not.mpr (Value.leaves_ne_nil (.map (entry :: fields)))
      have below : ∀ assignment ∈ resolved [] now (Value.leavesOf (entry :: fields)),
          assignment.1 ≠ [] ∧ assignment.2 ≠ none := by
        refine List.forall_mem_map.mpr fun leaf mem => ⟨ne_nil_of_mem_leavesOf leaf mem, ?_⟩
        rw [← resolveLeaf_eq (valid leaf mem).2.2]
        exact Option.some_ne_none _
      calc Place.assignAll (resolved [] now (Value.leavesOf (entry :: fields))) none
        _ = Place.assignAll (resolved [] now (Value.leavesOf (entry :: fields))) (root []) :=
          Place.assignAll_none nonempty below
        _ = (Value.resolveFields [] now (entry :: fields)).root :=
          assignAll_leavesOf sorted fun entry mem => ih entry mem (inner entry mem)

private theorem applySet_none (ordered : data.Ordered) (mergeable : (Value.map data).Mergeable)
    (now : Timestamp) : applySet none data true now = applySet none data false now := by
  obtain ⟨sorted, inner⟩ := ordered_iff.mp ordered
  obtain ⟨-, mergeableInner⟩ := Value.mergeable_map.mp mergeable
  refine root_inj.mp ((root_applySet mergeable none now).trans ?_)
  exact assignAll_leavesOf sorted fun entry mem =>
    assignAll_leaves (inner entry mem) (mergeableInner entry mem) now

/-- A merge comes to the same as the other writes do. Where there is no document it makes the one that a
set without merging makes; a document that is there it changes as an update does with the same data and
the paths of all leaves of the data, in whatever order they are listed. -/
theorem merge_agrees {payload : Fields} (ordered : payload.Ordered)
    (accepted : Payload.encodeSet payload = .ok data) (now : Timestamp) :
    applySet none data true now = applySet none data false now ∧
      (∃ paths, data.LeafPaths paths) ∧
      ∀ (prior : Fields) (paths : List FieldPath) (path : String), prior.Ordered → data.LeafPaths paths →
        Documents.updated path (some prior) data paths now
          = .ok (applySet (some prior) data true now) := by
  have orderedData := Payload.ordered_of_encodeSet ordered accepted
  have mergeable := Payload.mergeable_of_encodeSet accepted
  have independent := independent_leavesOf orderedData mergeable
  refine ⟨applySet_none orderedData mergeable now, exists_leafPaths orderedData mergeable, ?_⟩
  intro prior paths path orderedPrior listed
  have perm := listed.writesAt_perm orderedData
  have new : ∀ assignment ∈ resolved prior now (writesAt data paths), assignment.2.Ordered :=
    fun assignment mem => independent.new prior now assignment ((perm.map _).mem_iff.mp mem)
  refine congrArg Except.ok (root_inj.mp ?_)
  calc (applyUpdate prior data paths now).root
    _ = Place.assignAll (resolved prior now (writesAt data paths)) prior.root :=
      root_updatePaths orderedPrior new
    _ = Place.assignAll (resolved prior now (Value.leavesOf data)) prior.root :=
      (Place.assignAll_perm (Place.ordered_map.mpr orderedPrior) (independent.new prior now)
        (independent.resolvedApart prior now) (perm.map _).symm).symm
    _ = (applySet (some prior) data true now).root := (root_applySet mergeable (some prior) now).symm

/-- Counts one more in a drawer, puts in an empty one and marks a field for removal. -/
def inventory : Fields :=
  [("drawers", .map [("middle", .map []), ("upper", .increment (.integer 1))]), ("labels", .deleteField)]

def inventoried : Fields :=
  [("drawers", .map [("middle", .map []), ("upper", .increment (.integer 1))]),
    ("labels", Value.deletionRecord)]

theorem merge_agrees_cupboard :
    let made : Fields :=
      [("drawers", .map [("middle", .map []), ("upper", .integer 1)]), ("labels", Value.deletionRecord)]
    let changed : Fields :=
      [("doors", .integer 2),
        ("drawers", .map [("lower", .string "tools"), ("middle", .map []), ("upper", .integer 4)]),
        ("labels", Value.deletionRecord)]
    inventory.Ordered ∧ Payload.encodeSet inventory = .ok inventoried ∧
      applySet none inventoried true (.new 5 0) = made ∧
      applySet none inventoried false (.new 5 0) = made ∧
      ∃ paths, inventoried.LeafPaths paths ∧ cupboard.Ordered ∧
        applySet (some cupboard) inventoried true (.new 5 0) = changed ∧
        Documents.updated "rooms/cupboard" (some cupboard) inventoried paths (.new 5 0)
          = .ok changed := by
  intro made changed
  have ordered : inventory.Ordered := by decide
  have accepted : Payload.encodeSet inventory = .ok inventoried := by rfl
  have orderedPrior : cupboard.Ordered := by decide
  have alone : applySet none inventoried true (.new 5 0) = made := by rfl
  have merged : applySet (some cupboard) inventoried true (.new 5 0) = changed := by rfl
  obtain ⟨fresh, ⟨paths, listed⟩, updates⟩ := merge_agrees ordered accepted (.new 5 0)
  have updated := updates cupboard paths "rooms/cupboard" orderedPrior listed
  rw [merged] at updated
  exact ⟨ordered, accepted, alone, fresh ▸ alone, paths, listed, orderedPrior, merged, updated⟩

theorem get?_getD (keys : List String) (prior : Option Fields) :
    get? keys (prior.getD []) = prior.bind (get? keys) := by
  cases prior with
  | none => exact get?_nil keys
  | some prior => rfl

/-- A merge writes its leaves and nothing else. Each leaf is found afterwards at its path, a marker as
what it stands for beside the field as it was. All fields that are neither on the way to a leaf nor
inside one are as they were. Made once more, a merge of plain data changes nothing. -/
theorem merge_touches_leaves {payload : Fields} {prior : Option Fields}
    (orderedPrior : ∀ fields ∈ prior, fields.Ordered) (ordered : payload.Ordered)
    (accepted : Payload.encodeSet payload = .ok data) (now : Timestamp) :
    (∀ keys v, data.Leaf keys v → ∃ stored,
        v.resolve (prior.bind (get? keys)) now = some stored ∧
        get? keys (applySet prior data true now) = some stored ∧
        (v.isSentinel = false → stored = v)) ∧
      (∀ keys, (∀ leaf v, data.Leaf leaf v → FieldPath.overlap keys leaf = false) →
        get? keys (applySet prior data true now) = prior.bind (get? keys)) ∧
      (data.Plain → ∀ later, applySet (some (applySet prior data true now)) data true later
        = applySet prior data true now) := by
  have orderedData := Payload.ordered_of_encodeSet ordered accepted
  have mergeable := Payload.mergeable_of_encodeSet accepted
  have independent := independent_leavesOf orderedData mergeable
  have orderedBefore := ordered_getD orderedPrior
  have written := root_applySet mergeable prior now
  have found (keys : List String) (v : Value) (mem : (keys, v) ∈ Value.leavesOf data) :
      get? keys (applySet prior data true now) = v.resolve (get? keys (prior.getD [])) now :=
    independent.get?_of_mem orderedBefore written mem
  refine ⟨fun keys v leaf => ?_, fun keys apart => ?_, fun plain later => ?_⟩
  · have mem := (mem_leavesOf orderedData).mpr leaf
    have kept := (validLeaf_of_mem mergeable _ mem).2.2
    rw [found keys v mem, get?_getD]
    refine ⟨_, (resolveLeaf_eq kept).symm, (resolveLeaf_eq kept).symm, fun value => ?_⟩
    exact Option.some.inj ((resolveLeaf_eq kept).trans (Value.resolve_of_not_sentinel value))
  · rw [independent.get?_of_apart orderedBefore written fun write mem => ?_, get?_getD]
    exact apart write.1 write.2 ((mem_leavesOf orderedData).mp mem)
  · have orderedAfter := ordered_applySet orderedPrior orderedData mergeable true now
    refine root_inj.mp ((root_applySet mergeable (some _) later).trans ?_)
    refine Place.assignAll_eq_self (Place.ordered_map.mpr orderedAfter) ?_
    refine List.forall_mem_map.mpr fun leaf mem => ?_
    have plainLeaf : leaf.2.isPlain :=
      of_get? (P := fun v => v.isPlain) (fun _ => Value.allPlainFields_iff) plain
        ((mem_leavesOf orderedData).mp mem).1
    have held : get? leaf.1 (applySet prior data true now) = some leaf.2 := by
      rw [found leaf.1 leaf.2 mem, Value.resolve_of_isPlain plainLeaf]
    rw [← get?_eq_read (ne_nil_of_mem_leavesOf leaf mem), Value.resolve_of_isPlain plainLeaf]
    exact held

/-- Data with a field marked for removal, which a set takes for a plain record. -/
def glazing : Fields := [("doors", .map [("left", .string "glass")]), ("labels", .deleteField)]

def glazed : Fields := [("doors", .map [("left", .string "glass")]), ("labels", Value.deletionRecord)]

theorem merge_touches_leaves_cupboard :
    cupboard.Ordered ∧ glazing.Ordered ∧ Payload.encodeSet glazing = .ok glazed ∧ glazed.Plain ∧
      let after := applySet (some cupboard) glazed true (.new 5 0)
      get? ["doors", "left"] after = some (.string "glass") ∧
        get? ["drawers"] after = get? ["drawers"] cupboard ∧
        ∀ later, applySet (some after) glazed true later = after := by
  have orderedPrior : cupboard.Ordered := by decide
  have ordered : glazing.Ordered := by decide
  have accepted : Payload.encodeSet glazing = .ok glazed := by rfl
  have plain : glazed.Plain := Value.allPlainFields_iff.mp rfl
  have orderedSome : ∀ fields ∈ some cupboard, fields.Ordered := by simpa using orderedPrior
  obtain ⟨written, untouched, again⟩ := merge_touches_leaves orderedSome ordered accepted (.new 5 0)
  refine ⟨orderedPrior, ordered, accepted, plain, ?_, ?_, again plain⟩
  · obtain ⟨stored, -, found, value⟩ := written ["doors", "left"] (.string "glass") ⟨rfl, rfl⟩
    rw [found, value rfl]
  · refine untouched ["drawers"] fun leaf v isLeaf => ?_
    have apart : ∀ leaf ∈ Value.leavesOf glazed, FieldPath.overlap ["drawers"] leaf.1 = false := by decide
    exact apart (leaf, v) ((mem_leavesOf (Payload.ordered_of_encodeSet ordered accepted)).mpr isLeaf)

end Fields

end DocumentStore
