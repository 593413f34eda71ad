import DocumentStore.Proofs.Outcome
import DocumentStore.Proofs.Value.Leaves
import DocumentStore.Proofs.Value.Paths
import DocumentStore.Write.Apply
import DocumentStore.Write.Payload

/-! # Markers are resolved

The checks of payloads let a marker stand only where its place in the document is known: as a whole
field of an update, or anywhere in the maps of a set but not in its arrays. What is stored there is
computed from plain values. So a write whose data was checked makes plain fields out of plain
fields. -/

namespace DocumentStore

/-- No marker stands in the fields. -/
def Fields.Plain (fields : Fields) : Prop := ∀ entry ∈ fields, entry.2.isPlain

namespace Value

theorem isPlain_map {fields : Fields} : (map fields).isPlain ↔ fields.Plain := allPlainFields_iff

/-- What may be written as a whole field: a plain value, or a marker that asks for a number or for
plain elements. -/
inductive Writable : Value → Prop where
  | value {v : Value} (plain : v.isPlain) : Writable v
  | serverTimestamp : Writable .serverTimestamp
  | increment {operand : Value} (number : operand.asDouble?.isSome) : Writable (.increment operand)
  | arrayUnion {elements : List Value} (plain : allPlain elements) : Writable (.arrayUnion elements)
  | arrayRemove {elements : List Value} (plain : allPlain elements) :
      Writable (.arrayRemove elements)
  | deleteField : Writable .deleteField

/-- What the check of a set lets through: no key on the way to a leaf is empty, and no leaf is marked for
removal. -/
inductive Mergeable : Value → Prop where
  | leaf {v : Value} (notMap : v.asMap? = none) (writable : v.Writable) (kept : v ≠ .deleteField) :
      Mergeable v
  | map {fields : Fields} (filled : ∀ entry ∈ fields, entry.1 ≠ "")
      (inner : ∀ entry ∈ fields, Mergeable entry.2) : Mergeable (.map fields)

theorem mergeable_map {fields : Fields} :
    (Value.map fields).Mergeable
      ↔ (∀ entry ∈ fields, entry.1 ≠ "") ∧ ∀ entry ∈ fields, entry.2.Mergeable := by
  constructor
  · intro mergeable
    cases mergeable with
    | map filled inner => exact ⟨filled, inner⟩
    | leaf notMap => cases notMap
  · rintro ⟨filled, inner⟩
    exact .map filled inner

private theorem mergeable_deletionRecord : deletionRecord.Mergeable := by
  refine .map (List.forall_mem_singleton.mpr (by decide)) (List.forall_mem_singleton.mpr ?_)
  exact .leaf rfl (.value rfl) nofun

/-- A leaf that can be written: no key on the way to it is empty, and its value stands for something. -/
def ValidLeaf (leaf : List String × Value) : Prop :=
  "" ∉ leaf.1 ∧ leaf.2.Writable ∧ leaf.2 ≠ .deleteField

theorem validLeaf_of_mem_leavesOf {fields : Fields} (filled : ∀ entry ∈ fields, entry.1 ≠ "")
    (inner : ∀ entry ∈ fields, ∀ leaf ∈ entry.2.leaves, ValidLeaf leaf) :
    ∀ leaf ∈ leavesOf fields, ValidLeaf leaf := by
  intro leaf mem
  obtain ⟨entry, hentry, below, hbelow, rfl⟩ := mem_leavesOf_iff.mp mem
  obtain ⟨valid, rest⟩ := inner entry hentry below hbelow
  exact ⟨List.not_mem_cons_of_ne_of_not_mem (filled entry hentry).symm valid, rest⟩

theorem Mergeable.validLeaf {v : Value} (mergeable : v.Mergeable) :
    ∀ leaf ∈ v.leaves, ValidLeaf leaf := by
  induction mergeable with
  | leaf notMap writable kept =>
    rw [leaves_of_not_map notMap]
    exact List.forall_mem_singleton.mpr ⟨List.not_mem_nil, writable, kept⟩
  | @map fields filled _ ih =>
    rw [leaves]
    split
    · rename_i empty
      rw [List.isEmpty_iff.mp empty]
      have kept : Value.map [] ≠ .deleteField := by simp
      exact List.forall_mem_singleton.mpr ⟨List.not_mem_nil, .value rfl, kept⟩
    · exact validLeaf_of_mem_leavesOf filled ih

end Value

theorem Fields.validLeaf_of_mem {data : Fields} (mergeable : (Value.map data).Mergeable) :
    ∀ leaf ∈ Value.leavesOf data, Value.ValidLeaf leaf := by
  obtain ⟨filled, inner⟩ := Value.mergeable_map.mp mergeable
  exact Value.validLeaf_of_mem_leavesOf filled fun entry mem => (inner entry mem).validLeaf

namespace Payload

open Value (Writable Mergeable deletionRecord)

variable {keys : List String} {v next : Value} {fields encoded : Fields}

private theorem checkSentinel_eq_ok (sentinel : v.isSentinel) :
    checkSentinel keys v = .ok () ↔ v.Writable := by
  constructor
  · intro accepted
    cases v with
    | serverTimestamp => exact .serverTimestamp
    | increment operand =>
      cases operand with
      | integer n => exact .increment rfl
      | double d => exact .increment rfl
      | _ => cases accepted
    | arrayUnion elements => exact .arrayUnion (by simpa [checkSentinel] using accepted)
    | arrayRemove elements => exact .arrayRemove (by simpa [checkSentinel] using accepted)
    | deleteField => exact .deleteField
    | _ => cases sentinel
  · intro writable
    cases writable with
    | value plain =>
      rw [Value.isSentinel_of_isPlain plain] at sentinel
      cases sentinel
    | serverTimestamp => rfl
    | @increment operand number =>
      cases operand with
      | integer n => rfl
      | double d => rfl
      | _ => cases number
    | arrayUnion plain => exact if_pos plain
    | arrayRemove plain => exact if_pos plain
    | deleteField => rfl

/-- The check of a whole field lets through what may be written there. -/
theorem checkWhole_eq_ok : checkWhole keys v = .ok () ↔ v.Writable := by
  unfold checkWhole
  split
  · rename_i sentinel
    exact checkSentinel_eq_ok sentinel
  · rename_i value
    constructor
    · intro accepted
      exact .value (by simpa using accepted)
    · intro writable
      cases writable with
      | value plain => exact if_pos plain
      | _ => exact absurd rfl value

theorem setFields_cons {key : String} (accepted : setFields keys ((key, v) :: fields) = .ok encoded) :
    key ≠ "" ∧ ∃ next rest, setValue (keys ++ [key]) v = .ok next ∧ setFields keys fields = .ok rest ∧
      encoded = (key, next) :: rest := by
  rw [setFields] at accepted
  split at accepted
  · cases accepted
  · rename_i filled
    split at accepted
    · cases accepted
    · rename_i next first
      split at accepted
      · cases accepted
      · rename_i rest others
        cases accepted
        exact ⟨filled, next, rest, first, others, rfl⟩

/-- A set keeps the keys of its data and checks the values under them. -/
theorem of_setFields (accepted : setFields keys fields = .ok encoded) :
    encoded.map Prod.fst = fields.map Prod.fst ∧ ∀ next ∈ encoded, next.1 ≠ "" ∧
      ∃ entry ∈ fields, setValue (keys ++ [next.1]) entry.2 = .ok next.2 := by
  induction fields generalizing encoded with
  | nil =>
    cases accepted
    exact ⟨rfl, List.forall_mem_nil _⟩
  | cons entry fields ih =>
    obtain ⟨key, v⟩ := entry
    obtain ⟨filled, next, rest, first, others, rfl⟩ := setFields_cons accepted
    obtain ⟨sameKeys, checked⟩ := ih others
    refine ⟨congrArg (key :: ·) sameKeys, List.forall_mem_cons.mpr ⟨?_, fun next mem => ?_⟩⟩
    · exact ⟨filled, (key, v), List.mem_cons_self, first⟩
    · obtain ⟨nonempty, entry, hentry, valid⟩ := checked next mem
      exact ⟨nonempty, entry, List.mem_cons_of_mem _ hentry, valid⟩

/-- A value that is not a map is kept as it is, unless it marks its field for removal. -/
theorem of_setValue_leaf (accepted : setValue keys v = .ok next) (notMap : v.asMap? = none) :
    v = .deleteField ∧ next = deletionRecord ∨ next = v ∧ v.Writable ∧ v ≠ .deleteField := by
  cases v with
  | map fields => cases notMap
  | deleteField =>
    rw [setValue] at accepted
    cases accepted
    exact .inl ⟨rfl, rfl⟩
  | _ =>
    rw [setValue] at accepted
    · obtain ⟨⟨⟩, allowed, rfl⟩ := map_eq_ok.mp accepted
      exact .inr ⟨rfl, checkWhole_eq_ok.mp allowed, nofun⟩
    · nofun
    · nofun

private theorem mergeable_of_setValue_leaf (accepted : setValue keys v = .ok next)
    (notMap : v.asMap? = none) :
    next.Mergeable := by
  rcases of_setValue_leaf accepted notMap with ⟨rfl, rfl⟩ | ⟨rfl, writable, kept⟩
  · exact Value.mergeable_deletionRecord
  · exact .leaf notMap writable kept

private theorem mergeable_of_setValue (accepted : setValue keys v = .ok next) : next.Mergeable := by
  induction v using Value.nested_induction generalizing keys next with
  | array elements ih => exact mergeable_of_setValue_leaf accepted rfl
  | leaf v notArray notMap => exact mergeable_of_setValue_leaf accepted notMap
  | map fields ih =>
    rw [setValue] at accepted
    obtain ⟨encoded, nested, rfl⟩ := map_eq_ok.mp accepted
    obtain ⟨-, checked⟩ := of_setFields nested
    refine .map (fun entry mem => (checked entry mem).1) fun entry mem => ?_
    obtain ⟨-, old, hold, valid⟩ := checked entry mem
    exact ih old hold valid

/-- The data of a set is checked as the map of its fields would be. -/
theorem setValue_of_encodeSet (accepted : encodeSet fields = .ok encoded) :
    setValue [] (.map fields) = .ok (.map encoded) := by
  rw [setValue]
  exact map_eq_ok.mpr ⟨encoded, accepted, rfl⟩

theorem mergeable_of_encodeSet (accepted : encodeSet fields = .ok encoded) :
    (Value.map encoded).Mergeable :=
  mergeable_of_setValue (setValue_of_encodeSet accepted)

/-- The data of an update holds at each of its paths what may be written there. -/
def UpdateData.Writable (update : UpdateData) : Prop :=
  ∀ path ∈ update.paths, ∃ v, Fields.get? path.segments update.data = some v ∧ v.Writable

/-- A field is added to an update at a path that overlaps none before it. -/
theorem UpdateData.of_add {earlier later : UpdateData} {name : String}
    (added : earlier.add name v = .ok later) :
    ∃ path, FieldPath.ofString name = .ok path ∧
      (∀ other ∈ earlier.paths, FieldPath.overlap other.segments path.segments = false) ∧
      v.Writable ∧ later = ⟨Fields.put path.segments v earlier.data, earlier.paths ++ [path]⟩ := by
  obtain ⟨path, valid, added⟩ := bind_eq_ok.mp added
  split at added
  · cases added
  · rename_i apart
    obtain ⟨⟨⟩, accepted, added⟩ := bind_eq_ok.mp added
    cases added
    refine ⟨path, mapError_eq_ok.mp valid, fun other mem => ?_, checkWhole_eq_ok.mp accepted, rfl⟩
    simpa using List.find?_eq_none.mp apart other mem

theorem UpdateData.Writable.add {earlier later : UpdateData} {name : String}
    (writable : earlier.Writable) (added : earlier.add name v = .ok later) : later.Writable := by
  obtain ⟨path, -, apart, writableValue, rfl⟩ := of_add added
  refine List.forall_mem_append.mpr ⟨fun other mem => ?_, List.forall_mem_singleton.mpr ?_⟩
  · rw [Fields.get?_put_of_not_overlap (apart other mem)]
    exact writable other mem
  · exact ⟨v, Fields.get?_put_self path.nonempty, writableValue⟩

private theorem writable_of_addUpdates {earlier later : UpdateData} {data : List (String × Value)}
    (writable : earlier.Writable) (added : addUpdates earlier data = .ok later) :
    later.Writable := by
  induction data generalizing earlier with
  | nil =>
    cases added
    exact writable
  | cons entry data ih =>
    obtain ⟨next, first, rest⟩ := bind_eq_ok.mp added
    exact ih (writable.add first) rest

theorem writable_of_encodeUpdate {update : UpdateData} (accepted : encodeUpdate fields = .ok update) :
    update.Writable := by
  unfold encodeUpdate at accepted
  split at accepted
  · cases accepted
  · have start : UpdateData.Writable ⟨[], []⟩ := nofun
    exact writable_of_addUpdates start accepted

end Payload

namespace Value

variable {v next : Value} {elements : List Value} {fields prior : Fields} {keys : List String}
  {now : Timestamp} {before : Option Value}

private theorem allPlain_union {added : List Value} (plain : allPlain elements)
    (hadded : allPlain added) :
    allPlain (union elements added) := by
  rw [allPlain_iff] at plain hadded ⊢
  induction added generalizing elements with
  | nil => exact plain
  | cons v vs ih =>
    rw [List.forall_mem_cons] at hadded
    rw [union]
    split
    · exact ih plain hadded.2
    · refine ih (List.forall_mem_append.mpr ⟨plain, ?_⟩) hadded.2
      exact List.forall_mem_singleton.mpr hadded.1

private theorem allPlain_without (plain : allPlain elements) (removed : List Value) :
    allPlain (without elements removed) := by
  rw [allPlain_iff] at plain ⊢
  exact fun v mem => plain v (List.mem_of_mem_filter mem)

private theorem allPlain_priorElements (plain : before.all isPlain) :
    allPlain (priorElements before) := by
  cases before with
  | none => rfl
  | some v =>
    cases v with
    | array elements => exact plain
    | _ => rfl

private theorem isPlain_of_asDouble? (number : v.asDouble?.isSome) : v.isPlain := by
  cases v with
  | integer n => rfl
  | double d => rfl
  | _ => cases number

theorem isPlain_incremented (plain : v.isPlain) : (incremented before v).isPlain := by
  unfold incremented
  split
  · rfl
  · rfl
  · rfl
  · exact plain

theorem resolve_of_isPlain (plain : v.isPlain) : v.resolve before now = some v := by
  cases v <;> first | rfl | cases plain

/-- What may be written as a whole field stands for a plain value, if for any. -/
theorem Writable.isPlain_of_resolve (writable : v.Writable) (plain : before.all isPlain)
    (resolved : v.resolve before now = some next) : next.isPlain := by
  cases writable with
  | value plainValue =>
    rw [resolve_of_isPlain plainValue] at resolved
    cases resolved
    exact plainValue
  | serverTimestamp =>
    cases resolved
    rfl
  | increment number =>
    cases resolved
    exact isPlain_incremented (isPlain_of_asDouble? number)
  | arrayUnion plainElements =>
    cases resolved
    exact allPlain_union (allPlain_priorElements plain) plainElements
  | arrayRemove plainElements =>
    cases resolved
    exact allPlain_without (allPlain_priorElements plain) _
  | deleteField => cases resolved

private theorem plain_asMap? (plain : before.all isPlain) : ((before.bind asMap?).getD []).Plain := by
  cases before with
  | none => exact List.forall_mem_nil _
  | some v =>
    cases v with
    | map fields => exact isPlain_map.mp plain
    | _ => exact List.forall_mem_nil _

private theorem isPlain_find? (plain : prior.Plain) (key : String) :
    (Entries.find? key prior).all isPlain := by
  cases found : Entries.find? key prior with
  | none => rfl
  | some v => exact plain _ (Entries.mem_of_find? found)

theorem isPlain_get? (plain : prior.Plain) (keys : List String) :
    (Fields.get? keys prior).all isPlain := by
  cases found : Fields.get? keys prior with
  | none => rfl
  | some v => exact Fields.of_get? (P := (Value.isPlain ·)) (fun _ => isPlain_map) plain found

/-- There is a value for every field that a set writes. -/
theorem exists_resolveForSet (v : Value) (before : Option Value) (now : Timestamp) :
    ∃ next, v.resolveForSet before now = some next := by
  cases v <;> exact ⟨_, rfl⟩

theorem resolveForSet_of_not_map (notMap : v.asMap? = none) (kept : v ≠ .deleteField) :
    v.resolveForSet before now = v.resolve before now := by
  cases v <;> first | rfl | exact absurd rfl kept | cases notMap

/-- A set keeps the keys of its data and resolves the values under them, each against the field that was
there before. -/
theorem of_resolveFields (prior : Fields) (now : Timestamp) (fields : Fields) :
    (resolveFields prior now fields).map Prod.fst = fields.map Prod.fst ∧
      ∀ next ∈ resolveFields prior now fields, ∃ entry ∈ fields,
        entry.2.resolveForSet (Entries.find? entry.1 prior) now = some next.2 := by
  induction fields with
  | nil => exact ⟨rfl, List.forall_mem_nil _⟩
  | cons entry fields ih =>
    obtain ⟨key, v⟩ := entry
    obtain ⟨sameKeys, resolved⟩ := ih
    obtain ⟨next, stored⟩ := exists_resolveForSet v (Entries.find? key prior) now
    rw [resolveFields, stored]
    refine ⟨congrArg (key :: ·) sameKeys, List.forall_mem_cons.mpr ⟨?_, fun next mem => ?_⟩⟩
    · exact ⟨(key, v), List.mem_cons_self, stored⟩
    · obtain ⟨entry, hentry, stored⟩ := resolved next mem
      exact ⟨entry, List.mem_cons_of_mem _ hentry, stored⟩

theorem plain_resolveFields (plain : prior.Plain)
    (inner : ∀ entry ∈ fields, ∀ before : Option Value, before.all isPlain →
      ∀ next, entry.2.resolveForSet before now = some next → next.isPlain) :
    (resolveFields prior now fields).Plain := by
  intro next mem
  obtain ⟨entry, hentry, stored⟩ := (of_resolveFields prior now fields).2 next mem
  exact inner entry hentry _ (isPlain_find? plain entry.1) next.2 stored

private theorem isPlain_resolveForSet (mergeable : v.Mergeable) (plain : before.all isPlain)
    (resolved : v.resolveForSet before now = some next) : next.isPlain := by
  induction mergeable generalizing before next with
  | leaf notMap writable kept =>
    rw [resolveForSet_of_not_map notMap kept] at resolved
    exact writable.isPlain_of_resolve plain resolved
  | map _ _ ih =>
    rw [resolveForSet] at resolved
    cases resolved
    refine isPlain_map.mpr (plain_resolveFields (plain_asMap? plain) ?_)
    exact fun entry mem before plain next resolved => ih entry mem plain resolved

end Value

namespace Fields

variable {v : Value} {keys : List String} {fields prior data : Fields} {now : Timestamp}
  {before : Option Value}

theorem Plain.put (plain : fields.Plain) (new : v.isPlain) : (put keys v fields).Plain :=
  forall_put (P := (Value.isPlain ·)) (fun _ => Value.isPlain_map) plain new

private theorem Plain.remove (plain : fields.Plain) : (remove keys fields).Plain :=
  forall_remove (P := (Value.isPlain ·)) (fun _ => Value.isPlain_map) plain

private theorem isPlain_resolveLeaf (writable : v.Writable) (plain : before.all Value.isPlain) :
    (resolveLeaf before now v).isPlain := by
  unfold resolveLeaf
  split
  · rfl
  · cases resolved : v.resolve before now with
    | none => rfl
    | some next => exact writable.isPlain_of_resolve plain resolved

private theorem isPlain_atPath? (plain : prior.Plain) (keys : List String) :
    (atPath? keys prior).all Value.isPlain := by
  unfold atPath?
  split
  · rfl
  · exact Value.isPlain_get? plain keys

private theorem Plain.mergeLeaves (plain : fields.Plain) (hprior : prior.Plain)
    {leaves : List (List String × Value)} (writable : ∀ leaf ∈ leaves, leaf.2.Writable) :
    (mergeLeaves prior now leaves fields).Plain := by
  induction leaves generalizing fields with
  | nil => exact plain
  | cons leaf leaves ih =>
    obtain ⟨keys, v⟩ := leaf
    obtain ⟨first, others⟩ := List.forall_mem_cons.mp writable
    have before := isPlain_atPath? hprior keys
    exact ih (plain.put (isPlain_resolveLeaf first before)) others

theorem plain_applySet {prior : Option Fields} (plain : ∀ fields ∈ prior, fields.Plain)
    (mergeable : (Value.map data).Mergeable) (merge : Bool) :
    (applySet prior data merge now).Plain := by
  have before : (prior.getD []).Plain := by
    cases prior with
    | none => exact List.forall_mem_nil _
    | some fields => exact plain fields rfl
  unfold applySet
  split
  · exact before.mergeLeaves before fun leaf mem => (validLeaf_of_mem mergeable leaf mem).2.1
  · obtain ⟨-, inner⟩ := Value.mergeable_map.mp mergeable
    refine Value.plain_resolveFields before fun entry mem before plain next resolved => ?_
    exact Value.isPlain_resolveForSet (inner entry mem) plain resolved

theorem Plain.updatePaths (plain : fields.Plain) (hprior : prior.Plain) {paths : List FieldPath}
    (writable : Payload.UpdateData.Writable ⟨data, paths⟩) :
    (updatePaths prior data now paths fields).Plain := by
  induction paths generalizing fields with
  | nil => exact plain
  | cons path paths ih =>
    obtain ⟨⟨v, found, first⟩, others⟩ := List.forall_mem_cons.mp writable
    rw [Fields.updatePaths, found]
    dsimp only
    split
    · rename_i next resolved
      have stored := first.isPlain_of_resolve (Value.isPlain_get? hprior path.segments) resolved
      exact ih (plain.put stored) others
    · exact ih plain.remove others

end Fields

end DocumentStore
