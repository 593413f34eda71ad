import DocumentStore.Proofs.Value.Assignment
import DocumentStore.Proofs.Write.Markers
import DocumentStore.Store.Memory

/-! # What an update does to a document

A write names a path and gives a value for the field there. A list of writes of which none is on the way
to another one makes the assignments that its values stand for, all resolved against the document as it
was before. An update whose data was checked is such a list, with one write for each field of its payload:
it changes the fields it names and no others, and two updates of different fields may change places. -/

namespace DocumentStore

/-- A write to one field: the keys that lead to it and the value it is to have. -/
abbrev FieldWrite := List String × Value

namespace Value

variable {v : Value} {before : Option Value} {now : Timestamp}

theorem resolve_of_not_sentinel (value : v.isSentinel = false) : v.resolve before now = some v := by
  cases v <;> first | rfl | cases value

/-- A value stands for itself, and a marker for a number, a time or an array. -/
theorem of_resolve {stored : Value} (writable : v.Writable)
    (resolved : v.resolve before now = some stored) : stored = v ∨ stored.asMap? = none := by
  cases writable with
  | value plain =>
    rw [resolve_of_isPlain plain] at resolved
    exact .inl (Option.some.inj resolved).symm
  | serverTimestamp =>
    cases resolved
    exact .inr rfl
  | @increment operand number =>
    cases resolved
    refine .inr ?_
    unfold incremented
    split
    · rfl
    · rfl
    · rfl
    · cases operand <;> first | rfl | cases number
  | arrayUnion =>
    cases resolved
    exact .inr rfl
  | arrayRemove =>
    cases resolved
    exact .inr rfl
  | deleteField => cases resolved

/-- Tables are stored as they are in the payload. -/
theorem ordered_resolve (writable : v.Writable) (ordered : v.Ordered) :
    Place.Ordered (v.resolve before now) := by
  intro stored resolved
  rcases of_resolve writable resolved with rfl | notMap
  · exact ordered
  · exact .leaf notMap

end Value

namespace Fields

variable {prior after data fields : Fields} {keys : List String} {v : Value} {now : Timestamp}
  {writes later : List FieldWrite} {paths : List FieldPath}

/-- The assignments of a list of writes, resolved against the document `prior`. -/
def resolved (prior : Fields) (now : Timestamp) (writes : List FieldWrite) : List Place.Assignment :=
  writes.map fun write => (write.1, write.2.resolve (get? write.1 prior) now)

theorem resolved_append : resolved prior now (writes ++ later)
    = resolved prior now writes ++ resolved prior now later :=
  List.map_append

/-- Writes of checked values to fields of which none is on the way to another one or inside it. -/
structure Independent (writes : List FieldWrite) : Prop where
  nonempty : ∀ write ∈ writes, write.1 ≠ []
  writable : ∀ write ∈ writes, write.2.Writable
  ordered : ∀ write ∈ writes, write.2.Ordered
  apart : writes.Pairwise fun a b => FieldPath.overlap a.1 b.1 = false

namespace Independent

theorem new (independent : Independent writes) (prior : Fields) (now : Timestamp) :
    ∀ assignment ∈ resolved prior now writes, assignment.2.Ordered :=
  List.forall_mem_map.mpr fun write mem =>
    Value.ordered_resolve (independent.writable write mem) (independent.ordered write mem)

theorem resolvedApart (independent : Independent writes) (prior : Fields) (now : Timestamp) :
    Place.Apart (resolved prior now writes) :=
  List.pairwise_map.mpr independent.apart

private theorem append (first : Independent writes) (second : Independent later)
    (apart : ∀ a ∈ writes, ∀ b ∈ later, FieldPath.overlap a.1 b.1 = false) :
    Independent (writes ++ later) where
  nonempty := List.forall_mem_append.mpr ⟨first.nonempty, second.nonempty⟩
  writable := List.forall_mem_append.mpr ⟨first.writable, second.writable⟩
  ordered := List.forall_mem_append.mpr ⟨first.ordered, second.ordered⟩
  apart := List.pairwise_append.mpr ⟨first.apart, second.apart, apart⟩

variable (independent : Independent writes) (ordered : prior.Ordered)
  (written : after.root = Place.assignAll (resolved prior now writes) prior.root)

include independent ordered written

theorem orderedAfter : after.Ordered := by
  have assigned := (Place.ordered_map.mpr ordered).assignAll (independent.new prior now)
  rw [← written] at assigned
  exact Place.ordered_map.mp assigned

/-- A field that was written holds what its value stands for. -/
theorem get?_of_mem (mem : (keys, v) ∈ writes) :
    get? keys after = v.resolve (get? keys prior) now := by
  rw [get?_eq_read (independent.nonempty _ mem), written]
  exact Place.read_assignAll_map (Place.ordered_map.mpr ordered)
    (fun write mem => independent.new prior now _ (List.mem_map_of_mem mem)) independent.apart mem

/-- Fields that are neither on the way to a written one nor inside it are left alone. -/
theorem get?_of_apart (apart : ∀ write ∈ writes, FieldPath.overlap keys write.1 = false) :
    get? keys after = get? keys prior := by
  cases keys with
  | nil => rfl
  | cons key keys =>
    rw [get?_eq_read (List.cons_ne_nil _ _), get?_eq_read (List.cons_ne_nil _ _), written]
    exact Place.read_assignAll_of_apart (Place.ordered_map.mpr ordered) (independent.new prior now)
      (List.forall_mem_map.mpr apart)

/-- Writes that follow others and keep out of their way see the same document. -/
theorem root_append (apart : ∀ a ∈ writes, ∀ b ∈ later, FieldPath.overlap a.1 b.1 = false) :
    Place.assignAll (resolved after now later) after.root
      = Place.assignAll (resolved prior now (writes ++ later)) prior.root := by
  have same : resolved after now later = resolved prior now later := by
    refine List.map_congr_left fun write mem => ?_
    rw [independent.get?_of_apart ordered written fun other hother => ?_]
    rw [FieldPath.overlap_comm]
    exact apart other hother write mem
  rw [same, written, resolved_append, Place.assignAll_append]

end Independent

/-- The writes of the data at a list of paths. -/
def writesAt (data : Fields) (paths : List FieldPath) : List FieldWrite :=
  paths.filterMap fun path => (get? path.segments data).map fun v => (path.segments, v)

theorem mem_writesAt {write : FieldWrite} :
    write ∈ writesAt data paths
      ↔ ∃ path ∈ paths, get? path.segments data = some write.2 ∧ path.segments = write.1 := by
  simp only [writesAt, List.mem_filterMap, Option.map_eq_some_iff]
  constructor
  · rintro ⟨path, mem, v, found, rfl⟩
    exact ⟨path, mem, found, rfl⟩
  · rintro ⟨path, mem, found, same⟩
    exact ⟨path, mem, write.2, found, by rw [same]⟩

theorem root_updatePaths (ordered : fields.Ordered)
    (new : ∀ assignment ∈ resolved prior now (writesAt data paths), assignment.2.Ordered) :
    (updatePaths prior data now paths fields).root
      = Place.assignAll (resolved prior now (writesAt data paths)) fields.root := by
  induction paths generalizing fields with
  | nil => rfl
  | cons path paths ih =>
    rw [updatePaths]
    cases found : get? path.segments data with
    | none =>
      have skipped : writesAt data (path :: paths) = writesAt data paths := by
        simp [writesAt, found]
      rw [skipped] at new ⊢
      exact ih ordered new
    | some v =>
      have taken : writesAt data (path :: paths) = (path.segments, v) :: writesAt data paths := by
        simp [writesAt, found]
      rw [taken] at new ⊢
      have first : Place.Ordered (v.resolve (get? path.segments prior) now) := new _ List.mem_cons_self
      have others := (List.forall_mem_cons.mp new).2
      have assigned := (Place.ordered_map.mpr ordered).assign first path.segments
      show _ = Place.assignAll (resolved prior now (writesAt data paths))
        (Place.assign path.segments (v.resolve (get? path.segments prior) now) fields.root)
      dsimp only
      split
      · rename_i next resolved
        rw [resolved, ← root_put path.nonempty] at assigned ⊢
        exact ih (Place.ordered_map.mp assigned) others
      · rename_i resolved
        rw [resolved, ← root_remove ordered path.nonempty] at assigned ⊢
        exact ih (Place.ordered_map.mp assigned) others

end Fields

namespace Payload

variable {payload rest : List (String × Value)} {name : String} {v : Value}

/-- The data of an update as its payload asks for: each name is read as a path at which the data has the
value of that name, there are no other paths, and none leads through another one. -/
structure UpdateData.Records (update : UpdateData) (payload : List (String × Value)) : Prop where
  complete : ∀ entry ∈ payload, ∃ path ∈ update.paths, FieldPath.ofString entry.1 = .ok path ∧
    Fields.get? path.segments update.data = some entry.2
  sound : ∀ path ∈ update.paths, ∃ entry ∈ payload, FieldPath.ofString entry.1 = .ok path ∧
    Fields.get? path.segments update.data = some entry.2
  apart : update.paths.Pairwise fun p q => FieldPath.overlap p.segments q.segments = false

theorem UpdateData.Records.add {earlier later : UpdateData} (records : earlier.Records payload)
    (added : earlier.add name v = .ok later) : later.Records (payload ++ [(name, v)]) := by
  obtain ⟨path, valid, apart, -, rfl⟩ := of_add added
  have old (other : FieldPath) (mem : other ∈ earlier.paths) :
      Fields.get? other.segments (Fields.put path.segments v earlier.data)
        = Fields.get? other.segments earlier.data := Fields.get?_put_of_not_overlap (apart other mem)
  have new : Fields.get? path.segments (Fields.put path.segments v earlier.data) = some v :=
    Fields.get?_put_self path.nonempty
  refine ⟨List.forall_mem_append.mpr ⟨fun entry mem => ?_, List.forall_mem_singleton.mpr ?_⟩,
    List.forall_mem_append.mpr ⟨fun other mem => ?_, List.forall_mem_singleton.mpr ?_⟩, ?_⟩
  · obtain ⟨other, hother, named, found⟩ := records.complete entry mem
    exact ⟨other, List.mem_append_left _ hother, named, (old other hother).trans found⟩
  · exact ⟨path, List.mem_append_right _ (List.mem_singleton_self path), valid, new⟩
  · obtain ⟨entry, hentry, named, found⟩ := records.sound other mem
    exact ⟨entry, List.mem_append_left _ hentry, named, (old other mem).trans found⟩
  · exact ⟨(name, v), List.mem_append_right _ (List.mem_singleton_self _), valid, new⟩
  · exact List.pairwise_append.mpr ⟨records.apart, List.pairwise_singleton _ _,
      fun other mem => List.forall_mem_singleton.mpr (apart other mem)⟩

private theorem records_of_addUpdates {earlier later : UpdateData} (records : earlier.Records payload)
    (added : addUpdates earlier rest = .ok later) : later.Records (payload ++ rest) := by
  induction rest generalizing payload earlier with
  | nil =>
    cases added
    rwa [List.append_nil]
  | cons entry rest ih =>
    obtain ⟨next, first, others⟩ := bind_eq_ok.mp added
    rw [List.append_cons]
    exact ih (records.add first) others

theorem records_of_encodeUpdate {payload : Fields} {update : UpdateData}
    (accepted : encodeUpdate payload = .ok update) : update.Records payload := by
  unfold encodeUpdate at accepted
  split at accepted
  · cases accepted
  · have start : UpdateData.Records ⟨[], []⟩ [] := ⟨nofun, nofun, List.Pairwise.nil⟩
    exact records_of_addUpdates start accepted

end Payload

namespace Fields

open Payload (UpdateData)

variable {payload prior after : Fields} {update : UpdateData} {now : Timestamp}

section Accepted

variable (accepted : Payload.encodeUpdate payload = .ok update)

include accepted

theorem exists_write_of_mem {entry : String × Value} (mem : entry ∈ payload) :
    ∃ path, FieldPath.ofString entry.1 = .ok path ∧
      (path.segments, entry.2) ∈ writesAt update.data update.paths := by
  obtain ⟨path, hpath, named, found⟩ := (Payload.records_of_encodeUpdate accepted).complete entry mem
  exact ⟨path, named, mem_writesAt.mpr ⟨path, hpath, found, rfl⟩⟩

theorem exists_entry_of_write {write : FieldWrite} (mem : write ∈ writesAt update.data update.paths) :
    ∃ entry ∈ payload, ∃ path ∈ update.paths, FieldPath.ofString entry.1 = .ok path ∧
      write = (path.segments, entry.2) := by
  obtain ⟨path, hpath, found, same⟩ := mem_writesAt.mp mem
  obtain ⟨entry, hentry, named, held⟩ := (Payload.records_of_encodeUpdate accepted).sound path hpath
  have value : write.2 = entry.2 := Option.some.inj (found.symm.trans held)
  exact ⟨entry, hentry, path, hpath, named, Prod.ext same.symm value⟩

/-- The writes of a checked update keep out of each other's way. -/
theorem independent_writesAt (ordered : payload.Ordered) :
    Independent (writesAt update.data update.paths) where
  nonempty write mem := by
    obtain ⟨path, -, -, same⟩ := mem_writesAt.mp mem
    exact same ▸ path.nonempty
  writable write mem := by
    obtain ⟨path, hpath, found, -⟩ := mem_writesAt.mp mem
    obtain ⟨v, held, writable⟩ := Payload.writable_of_encodeUpdate accepted path hpath
    rw [found] at held
    cases held
    exact writable
  ordered write mem := by
    obtain ⟨entry, hentry, path, -, -, rfl⟩ := exists_entry_of_write accepted mem
    exact (ordered_iff.mp ordered).2 entry hentry
  apart := by
    refine List.Pairwise.filterMap _ ?_ (Payload.records_of_encodeUpdate accepted).apart
    intro p q apart a ha b hb
    obtain ⟨_, -, rfl⟩ := Option.map_eq_some_iff.mp ha
    obtain ⟨_, -, rfl⟩ := Option.map_eq_some_iff.mp hb
    exact apart

theorem root_applyUpdate (orderedPrior : prior.Ordered) (ordered : payload.Ordered) (now : Timestamp) :
    (applyUpdate prior update.data update.paths now).root
      = Place.assignAll (resolved prior now (writesAt update.data update.paths)) prior.root :=
  root_updatePaths orderedPrior ((independent_writesAt accepted ordered).new prior now)

/-- An update keeps the tables of a document sorted. -/
theorem ordered_applyUpdate (orderedPrior : prior.Ordered) (ordered : payload.Ordered)
    (now : Timestamp) : (applyUpdate prior update.data update.paths now).Ordered :=
  (independent_writesAt accepted ordered).orderedAfter orderedPrior
    (root_applyUpdate accepted orderedPrior ordered now)

end Accepted

/-- An update of a document that is there succeeds and touches the fields that its payload names and no
others. Each of them holds the value given for it or what the marker given for it stands for, resolved
against the field as it was, and is gone if the marker asks for its removal. All fields that are neither
on the way to one of them nor inside one are as they were. -/
theorem update_touches_named_fields (orderedPrior : prior.Ordered) (ordered : payload.Ordered)
    (accepted : Payload.encodeUpdate payload = .ok update) (path : String) (now : Timestamp) :
    ∃ after, Documents.updated path (some prior) update.data update.paths now = .ok after ∧
      (∀ entry ∈ payload, ∃ named, FieldPath.ofString entry.1 = .ok named ∧
        get? named.segments after = entry.2.resolve (get? named.segments prior) now ∧
        (entry.2.isSentinel = false → get? named.segments after = some entry.2) ∧
        (entry.2 = .deleteField → get? named.segments after = none)) ∧
      ∀ keys, (∀ entry ∈ payload, ∀ named, FieldPath.ofString entry.1 = .ok named →
          FieldPath.overlap keys named.segments = false) →
        get? keys after = get? keys prior := by
  have independent := independent_writesAt accepted ordered
  have written := root_applyUpdate accepted orderedPrior ordered now
  refine ⟨_, rfl, fun entry mem => ?_, fun keys apart => ?_⟩
  · obtain ⟨named, valid, mem⟩ := exists_write_of_mem accepted mem
    have stored := independent.get?_of_mem orderedPrior written mem
    refine ⟨named, valid, stored, fun value => ?_, fun removal => ?_⟩
    · rw [stored, Value.resolve_of_not_sentinel value]
    · rw [stored, removal]
      rfl
  · refine independent.get?_of_apart orderedPrior written fun write mem => ?_
    obtain ⟨entry, hentry, named, -, valid, rfl⟩ := exists_entry_of_write accepted mem
    exact apart entry hentry named valid

/-- A cupboard with a number where its doors could be described. -/
def cupboard : Fields :=
  [("doors", .integer 2), ("drawers", .map [("lower", .string "tools"), ("upper", .integer 3)]),
    ("labels", .array [.string "oak"])]

/-- Puts something below the number, and takes something out of a map. -/
def refit : Fields := [("doors.left", .serverTimestamp), ("drawers.lower", .deleteField)]

def refitting : UpdateData :=
  ⟨[("doors", .map [("left", .serverTimestamp)]), ("drawers", .map [("lower", .deleteField)])],
    [⟨["doors", "left"], by decide, by decide⟩, ⟨["drawers", "lower"], by decide, by decide⟩]⟩

theorem update_touches_named_fields_cupboard :
    cupboard.Ordered ∧ refit.Ordered ∧ Payload.encodeUpdate refit = .ok refitting ∧
      ∃ after, Documents.updated "rooms/cupboard" (some cupboard) refitting.data refitting.paths (.new 5 0)
          = .ok after ∧
        get? ["doors", "left"] after = some (.timestamp (.new 5 0)) ∧
        get? ["drawers", "lower"] after = none ∧ get? ["drawers", "upper"] after = some (.integer 3) := by
  have orderedPrior : cupboard.Ordered := by decide
  have ordered : refit.Ordered := by decide
  have accepted : Payload.encodeUpdate refit = .ok refitting := by cbv
  have left : FieldPath.ofString "doors.left" = .ok ⟨["doors", "left"], by decide, by decide⟩ := by cbv
  have lower : FieldPath.ofString "drawers.lower" = .ok ⟨["drawers", "lower"], by decide, by decide⟩ := by
    cbv
  obtain ⟨after, updated, touched, untouched⟩ :=
    update_touches_named_fields orderedPrior ordered accepted "rooms/cupboard" (.new 5 0)
  refine ⟨orderedPrior, ordered, accepted, after, updated, ?_, ?_, ?_⟩
  · obtain ⟨named, read, stored, -⟩ := touched ("doors.left", .serverTimestamp) (by simp [refit])
    cases left.symm.trans read
    exact stored
  · obtain ⟨named, read, -, -, removed⟩ := touched ("drawers.lower", .deleteField) (by simp [refit])
    cases lower.symm.trans read
    exact removed rfl
  · rw [untouched ["drawers", "upper"] ?_]
    · rfl
    · simp only [refit, List.forall_mem_cons]
      refine ⟨fun named read => ?_, fun named read => ?_, List.forall_mem_nil _⟩
      · cases left.symm.trans read
        decide
      · cases lower.symm.trans read
        decide

theorem apart_writesAt {data others : Fields} {paths later : List FieldPath}
    (apart : ∀ p ∈ paths, ∀ q ∈ later, FieldPath.overlap p.segments q.segments = false) :
    ∀ a ∈ writesAt data paths, ∀ b ∈ writesAt others later, FieldPath.overlap a.1 b.1 = false := by
  intro a ha b hb
  obtain ⟨p, hp, -, sameA⟩ := mem_writesAt.mp ha
  obtain ⟨q, hq, -, sameB⟩ := mem_writesAt.mp hb
  rw [← sameA, ← sameB]
  exact apart p hp q hq

/-- The second of two updates of different fields resolves its markers as the first one found them. -/
theorem root_applyUpdate_applyUpdate {others : Fields} {second : UpdateData}
    (orderedPrior : prior.Ordered) (ordered : payload.Ordered) (orderedOthers : others.Ordered)
    (accepted : Payload.encodeUpdate payload = .ok update)
    (acceptedOthers : Payload.encodeUpdate others = .ok second)
    (apart : ∀ p ∈ update.paths, ∀ q ∈ second.paths, FieldPath.overlap p.segments q.segments = false)
    (now : Timestamp) :
    (applyUpdate (applyUpdate prior update.data update.paths now) second.data second.paths now).root
      = Place.assignAll (resolved prior now
          (writesAt update.data update.paths ++ writesAt second.data second.paths)) prior.root := by
  have independent := independent_writesAt accepted ordered
  have written := root_applyUpdate accepted orderedPrior ordered now
  have orderedBetween := ordered_applyUpdate accepted orderedPrior ordered now
  rw [root_applyUpdate acceptedOthers orderedBetween orderedOthers]
  exact independent.root_append orderedPrior written (apart_writesAt apart)

/-- Two updates of different fields come to the same in both orders, also when they go through the same
maps and make them or find something else in their place. -/
theorem updates_commute {others : Fields} {second : UpdateData} (orderedPrior : prior.Ordered)
    (ordered : payload.Ordered) (orderedOthers : others.Ordered)
    (accepted : Payload.encodeUpdate payload = .ok update)
    (acceptedOthers : Payload.encodeUpdate others = .ok second)
    (apart : ∀ p ∈ update.paths, ∀ q ∈ second.paths, FieldPath.overlap p.segments q.segments = false)
    (path : String) (now : Timestamp) :
    ∃ after,
      (Documents.updated path (some prior) update.data update.paths now >>= fun between =>
        Documents.updated path (some between) second.data second.paths now) = .ok after ∧
      (Documents.updated path (some prior) second.data second.paths now >>= fun between =>
        Documents.updated path (some between) update.data update.paths now) = .ok after := by
  have apart' : ∀ q ∈ second.paths, ∀ p ∈ update.paths,
      FieldPath.overlap q.segments p.segments = false := fun q hq p hp => by
    rw [FieldPath.overlap_comm]
    exact apart p hp q hq
  have both := (independent_writesAt accepted ordered).append
    (independent_writesAt acceptedOthers orderedOthers) (apart_writesAt apart)
  have swapped : (resolved prior now
      (writesAt update.data update.paths ++ writesAt second.data second.paths)).Perm
      (resolved prior now (writesAt second.data second.paths ++ writesAt update.data update.paths)) :=
    List.perm_append_comm.map _
  have same : applyUpdate (applyUpdate prior second.data second.paths now) update.data update.paths now
      = applyUpdate (applyUpdate prior update.data update.paths now) second.data second.paths now := by
    rw [← root_inj,
      root_applyUpdate_applyUpdate orderedPrior ordered orderedOthers accepted acceptedOthers apart,
      root_applyUpdate_applyUpdate orderedPrior orderedOthers ordered acceptedOthers accepted apart']
    exact (Place.assignAll_perm (Place.ordered_map.mpr orderedPrior) (both.new prior now)
      (both.resolvedApart prior now) swapped).symm
  exact ⟨_, rfl, congrArg Except.ok same⟩

/-- Makes a map of the number in its turn, and changes what the other update leaves. -/
def restock : Fields :=
  [("doors.right", .string "glass"), ("drawers.upper", .increment (.integer 4)),
    ("labels", .arrayUnion [.string "sold"])]

def restocking : UpdateData :=
  ⟨[("doors", .map [("right", .string "glass")]), ("drawers", .map [("upper", .increment (.integer 4))]),
      ("labels", .arrayUnion [.string "sold"])],
    [⟨["doors", "right"], by decide, by decide⟩, ⟨["drawers", "upper"], by decide, by decide⟩,
      ⟨["labels"], by decide, by decide⟩]⟩

theorem updates_commute_cupboard :
    let after : Fields :=
      [("doors", .map [("left", .timestamp (.new 5 0)), ("right", .string "glass")]),
        ("drawers", .map [("upper", .integer 7)]), ("labels", .array [.string "oak", .string "sold"])]
    cupboard.Ordered ∧ refit.Ordered ∧ restock.Ordered ∧
      Payload.encodeUpdate refit = .ok refitting ∧ Payload.encodeUpdate restock = .ok restocking ∧
      (∀ p ∈ refitting.paths, ∀ q ∈ restocking.paths,
        FieldPath.overlap p.segments q.segments = false) ∧
      (Documents.updated "rooms/cupboard" (some cupboard) refitting.data refitting.paths (.new 5 0) >>=
        fun between => Documents.updated "rooms/cupboard" (some between) restocking.data
          restocking.paths (.new 5 0)) = .ok after ∧
      (Documents.updated "rooms/cupboard" (some cupboard) restocking.data restocking.paths (.new 5 0) >>=
        fun between => Documents.updated "rooms/cupboard" (some between) refitting.data
          refitting.paths (.new 5 0)) = .ok after := by
  intro after
  have orderedPrior : cupboard.Ordered := by decide
  have ordered : refit.Ordered := by decide
  have orderedOthers : restock.Ordered := by decide
  have accepted : Payload.encodeUpdate refit = .ok refitting := by cbv
  have acceptedOthers : Payload.encodeUpdate restock = .ok restocking := by cbv
  have apart : ∀ p ∈ refitting.paths, ∀ q ∈ restocking.paths,
      FieldPath.overlap p.segments q.segments = false := by decide
  have refittedFirst : (Documents.updated "rooms/cupboard" (some cupboard) refitting.data refitting.paths
      (.new 5 0) >>= fun between => Documents.updated "rooms/cupboard" (some between) restocking.data
        restocking.paths (.new 5 0)) = .ok after := by rfl
  obtain ⟨ended, first, second⟩ := updates_commute orderedPrior ordered orderedOthers accepted
    acceptedOthers apart "rooms/cupboard" (.new 5 0)
  obtain rfl : ended = after := Except.ok.inj (first.symm.trans refittedFirst)
  exact ⟨orderedPrior, ordered, orderedOthers, accepted, acceptedOthers, apart, first, second⟩

end Fields

end DocumentStore
