import DocumentStore.Proofs.Write.Merge

/-! # Fields marked for removal in a set

A set removes nothing. For a field that its payload marks for removal it stores a record that names the
marker. The check of the payload puts this record in early; where a set is applied to data that nobody has
checked, the record is put in late. Without merging the two come to the same. A merge takes the early record
for a map like any other, so that the fields which the document has at its place stay beside the name of the
marker, while the late record replaces whatever is there. -/

namespace DocumentStore

namespace Payload

open Value (deletionRecord)

variable {P : Value → Value → Prop} {keys : List String} {v next : Value} {fields encoded : Fields}

theorem forall₂_setFields
    (inner : ∀ entry ∈ fields, ∀ keys next, setValue keys entry.2 = .ok next → P entry.2 next)
    (accepted : setFields keys fields = .ok encoded) :
    List.Forall₂ (fun entry next => next.1 = entry.1 ∧ P entry.2 next.2) fields encoded := by
  induction fields generalizing encoded with
  | nil =>
    cases accepted
    exact .nil
  | cons entry fields ih =>
    obtain ⟨-, next, rest, checked, others, rfl⟩ := setFields_cons accepted
    obtain ⟨first, inner⟩ := List.forall_mem_cons.mp inner
    exact .cons ⟨rfl, first _ next checked⟩ (ih inner others)

/-- What the check of a set makes of a value: a record of a marker for removal, the value itself of
everything else but maps, and of a map the map of what it makes of the values in it. -/
theorem setValue_induction (marker : P .deleteField deletionRecord)
    (leaf : ∀ v : Value, v.asMap? = none → v ≠ .deleteField → P v v)
    (map : ∀ fields encoded,
      List.Forall₂ (fun entry next => next.1 = entry.1 ∧ P entry.2 next.2) fields encoded →
        P (.map fields) (.map encoded))
    (accepted : setValue keys v = .ok next) : P v next := by
  have ofLeaf {keys : List String} {v next : Value} (notMap : v.asMap? = none)
      (accepted : setValue keys v = .ok next) : P v next := by
    rcases of_setValue_leaf accepted notMap with ⟨rfl, rfl⟩ | ⟨rfl, -, kept⟩
    · exact marker
    · exact leaf _ notMap kept
  induction v using Value.nested_induction generalizing keys next with
  | array elements ih => exact ofLeaf rfl accepted
  | leaf v notArray notMap => exact ofLeaf notMap accepted
  | map fields ih =>
    rw [setValue] at accepted
    obtain ⟨encoded, nested, rfl⟩ := map_eq_ok.mp accepted
    exact map fields encoded (forall₂_setFields (fun entry mem _ _ checked => ih entry mem checked) nested)

end Payload

namespace Fields

open Value (deletionRecord tagKey tag)

variable {payload data prior fields encoded : Fields} {keys : List String} {v next : Value}
  {before place : Place} {now : Timestamp} {leaves : List FieldWrite}

private theorem resolveFields_forall₂ (alike : List.Forall₂ (fun entry next : String × Value =>
      next.1 = entry.1 ∧ ∀ before, next.2.resolveForSet before now = entry.2.resolveForSet before now)
      fields encoded) (prior : Fields) :
    Value.resolveFields prior now encoded = Value.resolveFields prior now fields := by
  induction alike with
  | nil => rfl
  | @cons entry next fields encoded first _ ih =>
    obtain ⟨key, v⟩ := entry
    obtain ⟨name, w⟩ := next
    obtain ⟨rfl, same⟩ := first
    rw [Value.resolveFields, Value.resolveFields, same, ih]

private theorem resolveForSet_setValue (accepted : Payload.setValue keys v = .ok next) (now : Timestamp)
    (before : Option Value) : next.resolveForSet before now = v.resolveForSet before now := by
  refine Payload.setValue_induction
    (P := fun v next => ∀ before, next.resolveForSet before now = v.resolveForSet before now)
    ?marker ?leaf ?map accepted before
  case marker => exact fun _ => rfl
  case leaf => exact fun _ _ _ _ => rfl
  case map => exact fun _ _ alike _ => congrArg (some ∘ Value.map) (resolveFields_forall₂ alike _)

private theorem applySet_encodeSet (accepted : Payload.encodeSet payload = .ok data)
    (prior : Option Fields)
    (now : Timestamp) : applySet prior data false now = applySet prior payload false now := by
  have alike := resolveForSet_setValue (Payload.setValue_of_encodeSet accepted) now
    (some (.map (prior.getD [])))
  exact Value.map.inj (Option.some.inj alike)

private theorem find?_resolveFields (key : String) (prior : Fields) (now : Timestamp)
    (fields : Fields) :
    Entries.find? key (Value.resolveFields prior now fields)
      = (Entries.find? key fields).bind fun v => v.resolveForSet (Entries.find? key prior) now := by
  induction fields with
  | nil => rfl
  | cons entry fields ih =>
    obtain ⟨name, v⟩ := entry
    obtain ⟨next, stored⟩ := Value.exists_resolveForSet v (Entries.find? name prior) now
    rw [Value.resolveFields, stored, Entries.find?, Entries.find?]
    split
    · rename_i same
      subst same
      exact stored.symm
    · exact ih

theorem read_resolveForSet (before : Option Value) (now : Timestamp)
    (marked : Place.read keys (some v) = some .deleteField) :
    Place.read keys (v.resolveForSet before now) = some deletionRecord := by
  induction keys generalizing v before with
  | nil =>
    cases marked
    rfl
  | cons key keys ih =>
    rcases Place.map_or_not (some v) with ⟨fields, same⟩ | notMap
    · cases same
      rw [Place.read_map] at marked
      cases found : Entries.find? key fields with
      | none =>
        rw [found, Place.read_none] at marked
        cases marked
      | some inner =>
        rw [found] at marked
        rw [Value.resolveForSet, Place.read_map, find?_resolveFields, found]
        exact ih _ marked
    · rw [Place.read_of_not_map notMap] at marked
      cases marked

/-- A leaf in the form in which the check of a set hands it on. -/
def checkedLeaf : FieldWrite → FieldWrite
  | (keys, .deleteField) => (keys ++ [tagKey], .string (tag .deleteField))
  | leaf => leaf

private theorem checkedLeaf_cons (key : String) (leaf : FieldWrite) :
    checkedLeaf (key :: leaf.1, leaf.2) = (key :: (checkedLeaf leaf).1, (checkedLeaf leaf).2) := by
  obtain ⟨keys, v⟩ := leaf
  cases v <;> rfl

private theorem checkedLeaf_of_ne {leaf : FieldWrite} (kept : leaf.2 ≠ .deleteField) :
    checkedLeaf leaf = leaf := by
  obtain ⟨keys, v⟩ := leaf
  cases v <;> first | rfl | exact absurd rfl kept

theorem leavesOf_forall₂ (alike : List.Forall₂ (fun entry next : String × Value =>
      next.1 = entry.1 ∧ next.2.leaves = entry.2.leaves.map checkedLeaf) fields encoded) :
    Value.leavesOf encoded = (Value.leavesOf fields).map checkedLeaf := by
  induction alike with
  | nil => rfl
  | @cons entry next fields encoded first _ ih =>
    obtain ⟨key, v⟩ := entry
    obtain ⟨name, w⟩ := next
    obtain ⟨rfl, same⟩ := first
    rw [Value.leavesOf, Value.leavesOf, same, ih, List.map_append, List.map_map, List.map_map]
    refine congrArg (· ++ _) (List.map_congr_left fun leaf _ => ?_)
    exact (checkedLeaf_cons _ leaf).symm

private theorem leaves_setValue (accepted : Payload.setValue keys v = .ok next) :
    next.leaves = v.leaves.map checkedLeaf := by
  refine Payload.setValue_induction (P := fun v next => next.leaves = v.leaves.map checkedLeaf)
    ?marker ?leaf ?map accepted
  case marker => rfl
  case leaf =>
    intro v notMap kept
    rw [Value.leaves_of_not_map notMap]
    exact congrArg (fun leaf => [leaf]) (checkedLeaf_of_ne kept).symm
  case map =>
    intro fields encoded alike
    cases alike with
    | nil => rfl
    | cons first others => exact leavesOf_forall₂ (.cons first others)

theorem leavesOf_encodeSet (accepted : Payload.encodeSet payload = .ok data) :
    Value.leavesOf data = (Value.leavesOf payload).map checkedLeaf :=
  leavesOf_forall₂ <| Payload.forall₂_setFields (P := fun v next => next.leaves = v.leaves.map checkedLeaf)
    (fun _ _ _ _ checked => leaves_setValue checked) accepted

/-- The name of the marker beside the fields of the map at a place. -/
def tagged (before : Option Value) : Value :=
  .map (Entries.insert tagKey (.string (tag .deleteField)) ((before.bind Value.asMap?).getD []))

theorem assign_tag (before : Place) :
    Place.assign [tagKey] (some (.string (tag .deleteField))) before = some (tagged before) := by
  rcases before.map_or_not with ⟨fields, rfl⟩ | notMap
  · rfl
  · rw [Place.assign_some_of_not_map notMap, tagged, notMap]
    rfl

private theorem ordered_tagged (ordered : Place.Ordered before) :
    Place.Ordered (some (tagged before)) := by
  rw [← assign_tag]
  exact ordered.assign (fun _ found => Option.some.inj found ▸ .leaf rfl) _

theorem tagged_eq_iff (ordered : Place.Ordered before) : tagged before = deletionRecord ↔
    ∀ fields, before = some (.map fields) → ∀ entry ∈ fields, entry.1 = tagKey := by
  rcases before.map_or_not with ⟨fields, rfl⟩ | notMap
  · have sorted := (Place.ordered_map.mp ordered).sorted
    simp only [tagged, deletionRecord, Option.bind_some, Value.asMap?, Option.getD_some, Value.map.injEq,
      Option.some.injEq, forall_eq', Entries.insert_eq_singleton sorted]
  · refine iff_of_true ?_ fun fields same => ?_
    · rw [tagged, notMap]
      rfl
    · rw [same] at notMap
      cases notMap

/-- What a merge stores for a leaf of a payload if the leaf was checked before. -/
def mergedLeaf (before : Place) (now : Timestamp) : Value → Place
  | .deleteField => some (tagged before)
  | v => v.resolve before now

private theorem ordered_mergedLeaf (ordered : Place.Ordered before) (writable : v.Writable)
    (orderedLeaf : v.Ordered) : Place.Ordered (mergedLeaf before now v) := by
  unfold mergedLeaf
  split
  · exact ordered_tagged ordered
  · exact Value.ordered_resolve writable orderedLeaf

private theorem ordered_resolveLeaf (writable : v.Writable) (orderedLeaf : v.Ordered) :
    Place.Ordered (some (resolveLeaf before now v)) := by
  by_cases marked : v = .deleteField
  · subst marked
    exact fun _ found => Option.some.inj found ▸ Value.ordered_deletionRecord
  · rw [resolveLeaf_eq marked]
    exact Value.ordered_resolve writable orderedLeaf

private theorem mergedLeaf_eq_iff (ordered : Place.Ordered before) :
    mergedLeaf before now v = some (resolveLeaf before now v) ↔ (v = .deleteField →
      ∀ fields, before = some (.map fields) → ∀ entry ∈ fields, entry.1 = tagKey) := by
  by_cases marked : v = .deleteField
  · subst marked
    rw [← tagged_eq_iff ordered, forall_prop_of_true rfl]
    exact Option.some_inj
  · refine iff_of_true ?_ fun same => absurd same marked
    rw [resolveLeaf_eq marked]
    cases v <;> first | rfl | exact absurd rfl marked

theorem assign_checkedLeaf {leaf : FieldWrite} (now : Timestamp)
    (unwritten : Place.read leaf.1 place = get? leaf.1 prior) :
    Place.assign (checkedLeaf leaf).1
        ((checkedLeaf leaf).2.resolve (get? (checkedLeaf leaf).1 prior) now) place
      = Place.assign leaf.1 (mergedLeaf (get? leaf.1 prior) now leaf.2) place := by
  obtain ⟨keys, v⟩ := leaf
  cases v with
  | deleteField =>
    show Place.assign (keys ++ [tagKey]) (some (.string (tag .deleteField))) place = _
    rw [Place.assign_append, unwritten, assign_tag]
    rfl
  | _ => rfl

private theorem assignAll_checked (ordered : place.Ordered)
    (unwritten : ∀ leaf ∈ leaves, Place.read leaf.1 place = get? leaf.1 prior)
    (new : ∀ leaf ∈ leaves, (mergedLeaf (get? leaf.1 prior) now leaf.2).Ordered)
    (apart : leaves.Pairwise fun a b => FieldPath.overlap a.1 b.1 = false) :
    Place.assignAll (resolved prior now (leaves.map checkedLeaf)) place
      = Place.assignAll
          (leaves.map fun leaf => (leaf.1, mergedLeaf (get? leaf.1 prior) now leaf.2)) place := by
  induction leaves generalizing place with
  | nil => rfl
  | cons leaf leaves ih =>
    obtain ⟨unwrittenFirst, unwrittenOthers⟩ := List.forall_mem_cons.mp unwritten
    obtain ⟨first, others⟩ := List.forall_mem_cons.mp new
    obtain ⟨apartFirst, apartOthers⟩ := List.pairwise_cons.mp apart
    have assigned := ordered.assign first leaf.1
    have step := assign_checkedLeaf now unwrittenFirst
    refine Eq.trans ?_ (ih assigned (fun other mem => ?_) others apartOthers)
    · exact congrArg (Place.assignAll (resolved prior now (leaves.map checkedLeaf))) step
    · rw [Place.read_assign_of_apart ordered ?_, unwrittenOthers other mem]
      rw [FieldPath.overlap_comm]
      exact apartFirst other mem

theorem ordered_get? {prior : Option Fields} (orderedPrior : ∀ fields ∈ prior, fields.Ordered) :
    ∀ leaf ∈ Value.leavesOf payload, Place.Ordered (get? leaf.1 (prior.getD [])) := by
  intro leaf mem
  rw [get?_eq_read (ne_nil_of_mem_leavesOf leaf mem)]
  exact (Place.ordered_map.mpr (ordered_getD orderedPrior)).read leaf.1

theorem mem_of_marked (ordered : payload.Ordered) (marked : get? keys payload = some .deleteField) :
    (keys, Value.deleteField) ∈ Value.leavesOf payload :=
  (mem_leavesOf ordered).mpr ⟨marked, rfl⟩

section Accepted

variable (accepted : Payload.encodeSet payload = .ok data)

include accepted

theorem filled_and_writable : ∀ leaf ∈ Value.leavesOf payload, "" ∉ leaf.1 ∧ leaf.2.Writable := by
  intro leaf mem
  have checked : checkedLeaf leaf ∈ Value.leavesOf data := by
    rw [leavesOf_encodeSet accepted]
    exact List.mem_map_of_mem mem
  obtain ⟨filled, writable, -⟩ := validLeaf_of_mem (Payload.mergeable_of_encodeSet accepted) _ checked
  obtain ⟨keys, v⟩ := leaf
  cases v with
  | deleteField => exact ⟨fun empty => filled (List.mem_append_left _ empty), .deleteField⟩
  | _ => exact ⟨filled, writable⟩

/-- A merge of the payload itself makes an assignment for each of its leaves. -/
theorem root_merge_payload (prior : Option Fields) (now : Timestamp) :
    (applySet prior payload true now).root = Place.assignAll ((Value.leavesOf payload).map fun leaf =>
      (leaf.1, some (resolveLeaf (get? leaf.1 (prior.getD [])) now leaf.2))) (prior.getD []).root :=
  root_merge fun leaf mem => (filled_and_writable accepted leaf mem).1

variable (ordered : payload.Ordered)

include ordered

theorem independent_payload : Independent (Value.leavesOf payload) :=
  independent_of_writable ordered fun leaf mem => (filled_and_writable accepted leaf mem).2

variable {prior : Option Fields} (orderedPrior : ∀ fields ∈ prior, fields.Ordered)

theorem ordered_resolvedLeaves (prior : Option Fields) (now : Timestamp) :
    ∀ leaf ∈ Value.leavesOf payload,
      Place.Ordered (some (resolveLeaf (get? leaf.1 (prior.getD [])) now leaf.2)) := by
  intro leaf mem
  have independent := independent_payload accepted ordered
  exact ordered_resolveLeaf (independent.writable leaf mem) (independent.ordered leaf mem)

include orderedPrior

theorem ordered_mergedLeaves (now : Timestamp) : ∀ leaf ∈ Value.leavesOf payload,
    (mergedLeaf (get? leaf.1 (prior.getD [])) now leaf.2).Ordered := by
  intro leaf mem
  have independent := independent_payload accepted ordered
  exact ordered_mergedLeaf (ordered_get? orderedPrior leaf mem) (independent.writable leaf mem)
    (independent.ordered leaf mem)

/-- A merge of the checked data makes its assignments at the same places. -/
theorem root_merge_checked (now : Timestamp) :
    (applySet prior data true now).root = Place.assignAll ((Value.leavesOf payload).map fun leaf =>
      (leaf.1, mergedLeaf (get? leaf.1 (prior.getD [])) now leaf.2)) (prior.getD []).root := by
  rw [root_applySet (Payload.mergeable_of_encodeSet accepted), leavesOf_encodeSet accepted]
  exact assignAll_checked (Place.ordered_map.mpr (ordered_getD orderedPrior))
    (fun leaf mem => (get?_eq_read (ne_nil_of_mem_leavesOf leaf mem)).symm)
    (ordered_mergedLeaves accepted ordered orderedPrior now) (apart_leavesOf ordered)

/-- The two merges differ where the document has a map with other fields at a place marked for removal. -/
theorem merges_alike_iff (now : Timestamp) :
    applySet prior data true now = applySet prior payload true now ↔
      ∀ keys, get? keys payload = some .deleteField →
        ∀ fields, prior.bind (get? keys) = some (.map fields) → ∀ entry ∈ fields, entry.1 = tagKey := by
  rw [← root_inj, root_merge_checked accepted ordered orderedPrior, root_merge_payload accepted,
    Place.assignAll_inj (Place.ordered_map.mpr (ordered_getD orderedPrior))
      (ordered_mergedLeaves accepted ordered orderedPrior now)
      (ordered_resolvedLeaves accepted ordered prior now) (apart_leavesOf ordered)]
  constructor
  · intro alike keys marked
    have mem := mem_of_marked ordered marked
    rw [← get?_getD]
    exact (mergedLeaf_eq_iff (ordered_get? orderedPrior _ mem)).mp (alike _ mem) rfl
  · intro only leaf mem
    refine (mergedLeaf_eq_iff (ordered_get? orderedPrior _ mem)).mpr fun marked => ?_
    rw [get?_getD]
    exact only leaf.1 (marked ▸ ((mem_leavesOf ordered).mp mem).1)

/-- What is stored at a place that is marked for removal: the record, unless the check put it in before a
merge, which leaves the other fields of a map that was there. -/
theorem stored_of_marked (marked : get? keys payload = some .deleteField) (now : Timestamp) :
    (∀ merge, get? keys (applySet prior payload merge now) = some deletionRecord) ∧
      get? keys (applySet prior data true now) = some (tagged (prior.bind (get? keys))) := by
  have mem := mem_of_marked ordered marked
  have nonempty := ne_nil_of_mem_leavesOf _ mem
  have orderedRoot := Place.ordered_map.mpr (ordered_getD orderedPrior)
  refine ⟨fun merge => ?_, ?_⟩
  · rw [get?_eq_read nonempty]
    cases merge with
    | true =>
      rw [root_merge_payload accepted]
      exact Place.read_assignAll_map orderedRoot (ordered_resolvedLeaves accepted ordered prior now)
        (apart_leavesOf ordered) mem
    | false =>
      rw [get?_eq_read nonempty] at marked
      exact read_resolveForSet (some (.map (prior.getD []))) now marked
  · rw [get?_eq_read nonempty, root_merge_checked accepted ordered orderedPrior, ← get?_getD]
    exact Place.read_assignAll_map orderedRoot (ordered_mergedLeaves accepted ordered orderedPrior now)
      (apart_leavesOf ordered) mem

end Accepted

/-- Checking the data of a set before it is applied comes to the same as applying the payload itself if the
set does not merge. If it merges the two come to the same just where the document has no map with other
fields at a place that the payload marks for removal: the payload itself makes the record of every marker
there, and the checked data leaves those fields beside the name of the marker. -/
theorem checked_sets_alike {prior : Option Fields} (orderedPrior : ∀ fields ∈ prior, fields.Ordered)
    (ordered : payload.Ordered) (accepted : Payload.encodeSet payload = .ok data) (now : Timestamp) :
    applySet prior data false now = applySet prior payload false now ∧
      (applySet prior data true now = applySet prior payload true now ↔
        ∀ keys, get? keys payload = some .deleteField →
          ∀ fields, prior.bind (get? keys) = some (.map fields) → ∀ entry ∈ fields, entry.1 = tagKey) ∧
      ∀ keys, get? keys payload = some .deleteField →
        (∀ merge, get? keys (applySet prior payload merge now) = some deletionRecord) ∧
        get? keys (applySet prior data true now) = some (tagged (prior.bind (get? keys))) :=
  ⟨applySet_encodeSet accepted prior now, merges_alike_iff accepted ordered orderedPrior now,
    fun _ marked => stored_of_marked accepted ordered orderedPrior marked now⟩

/-- A cupboard whose labels are counted. -/
def labelled : Fields := [("labels", .map [("oak", .integer 1)])]

theorem checked_sets_alike_labelled :
    labelled.Ordered ∧ inventory.Ordered ∧ Payload.encodeSet inventory = .ok inventoried ∧
      applySet (some labelled) inventoried false (.new 5 0)
        = applySet (some labelled) inventory false (.new 5 0) ∧
      applySet (some labelled) inventoried true (.new 5 0)
        ≠ applySet (some labelled) inventory true (.new 5 0) ∧
      get? ["labels"] (applySet (some labelled) inventory true (.new 5 0)) = some deletionRecord ∧
      get? ["labels"] (applySet (some labelled) inventoried true (.new 5 0))
        = some (.map [(tagKey, .string "delete"), ("oak", .integer 1)]) := by
  have orderedPrior : ∀ fields ∈ some labelled, fields.Ordered := by decide
  have ordered : inventory.Ordered := by decide
  have accepted : Payload.encodeSet inventory = .ok inventoried := by rfl
  have marked : get? ["labels"] inventory = some .deleteField := by rfl
  obtain ⟨unmerged, merged, stored⟩ := checked_sets_alike orderedPrior ordered accepted (.new 5 0)
  obtain ⟨late, early⟩ := stored ["labels"] marked
  refine ⟨orderedPrior labelled rfl, ordered, accepted, unmerged, fun same => ?_, late true, early⟩
  have only := merged.mp same ["labels"] marked [("oak", .integer 1)] rfl
  exact absurd (only _ List.mem_cons_self) (by decide)

theorem not_checked_sets_alike :
    ¬ ∀ (payload data : Fields) (prior : Option Fields) (merge : Bool) (now : Timestamp),
      (∀ fields ∈ prior, fields.Ordered) → payload.Ordered → Payload.encodeSet payload = .ok data →
        applySet prior data merge now = applySet prior payload merge now := by
  intro alike
  have same := alike [("labels", .deleteField)] [("labels", deletionRecord)] (some labelled) true (.new 0 0)
    (by decide) (by decide) rfl
  have early : applySet (some labelled) [("labels", deletionRecord)] true (.new 0 0)
      = [("labels", .map [(tagKey, .string "delete"), ("oak", .integer 1)])] := by rfl
  have late : applySet (some labelled) [("labels", .deleteField)] true (.new 0 0)
      = [("labels", deletionRecord)] := by rfl
  rw [early, late] at same
  cases same

end Fields

end DocumentStore
