import DocumentStore.Proofs.Entries
import DocumentStore.Proofs.Time.Reading
import DocumentStore.Proofs.Value.Inside
import DocumentStore.Proofs.Wire.Value
import Mathlib

/-! # What is read is written again

Values are written as typed JSON and read from it. A value without markers is read back if all its
doubles are finite and all its timestamps have years of four digits. Reading accepts more texts than
are ever written: every value it gives can be written again, but of those with other doubles or other
years what is written cannot be read. -/

namespace DocumentStore

namespace Value

variable {v w : Value} {elements : List Value} {fields : Fields}

private theorem allPortable_iff : allPortable elements ↔ ∀ v ∈ elements, v.isPortable :=
  test_iff_forall rfl fun _ _ => rfl

private theorem allPortableFields_iff :
    allPortableFields fields ↔ ∀ entry ∈ fields, entry.2.isPortable :=
  test_iff_forall rfl fun _ _ => rfl

/-- All doubles in a value are finite. -/
def Finite (v : Value) : Prop := ∀ d : Double, (double d).Inside v → d.isFinite

/-- All timestamps in a value have years that are written with four digits. -/
def FourDigitYears (v : Value) : Prop := ∀ t : Timestamp, (timestamp t).Inside v → t.HasFourDigitYear

private theorem isPortable_iff_inside : v.isPortable ↔
    ∀ w : Value, w.Inside v → w.isSentinel = false ∧ (∀ d, w = .double d → d.isFinite) ∧
      ∀ t, w = .timestamp t → t.HasFourDigitYear := by
  induction v using nested_induction with
  | array elements ih =>
    rw [forall_inside_array, isPortable, allPortable_iff]
    simp only [isSentinel, reduceCtorEq, false_implies, implies_true, true_and]
    exact forall₂_congr ih
  | map fields ih =>
    rw [forall_inside_map, isPortable, allPortableFields_iff]
    simp only [isSentinel, reduceCtorEq, false_implies, implies_true, true_and]
    exact forall₂_congr ih
  | leaf v notArray notMap =>
    rw [forall_inside_leaf notArray notMap]
    cases v <;> simp_all [isPortable, isSentinel, asArray?, asMap?]

theorem isPortable_iff : v.isPortable ↔
    (∀ w : Value, w.Inside v → w.isSentinel = false) ∧ v.Finite ∧ v.FourDigitYears := by
  rw [isPortable_iff_inside]
  constructor
  · intro all
    exact ⟨fun w inside => (all w inside).1, fun d inside => (all _ inside).2.1 d rfl,
      fun t inside => (all _ inside).2.2 t rfl⟩
  · rintro ⟨plain, finite, years⟩ w inside
    exact ⟨plain w inside, fun d same => finite d (same ▸ inside),
      fun t same => years t (same ▸ inside)⟩

/-- What reading gives holds no marker, and all its timestamps have a date. -/
def Received (v : Value) : Prop :=
  ∀ w : Value, w.Inside v → w.isSentinel = false ∧ ∀ t, w = .timestamp t → t.HasDate

theorem received_array : (array elements).Received ↔ ∀ v ∈ elements, v.Received := by
  unfold Received
  rw [forall_inside_array]
  simp [isSentinel]

theorem received_map : (map fields).Received ↔ ∀ entry ∈ fields, entry.2.Received := by
  unfold Received
  rw [forall_inside_map]
  simp [isSentinel]

private theorem received_timestamp {t : Timestamp} : (timestamp t).Received ↔ t.HasDate := by
  unfold Received
  rw [forall_inside_leaf rfl rfl]
  simp [isSentinel]

private theorem received_of_simple (plain : v.isSentinel = false) (notArray : v.asArray? = none)
    (notMap : v.asMap? = none) (timeless : ∀ t, v ≠ .timestamp t) : v.Received :=
  (forall_inside_leaf notArray notMap).mpr ⟨plain, fun t same => absurd same (timeless t)⟩

end Value

namespace Wire

open Value (Received)

variable {v w : Value} {j : Json}

private theorem received_of_decodeSimple? {members : List (String × Json)}
    (found : decodeSimple? members = some (.ok v)) : v.Received := by
  unfold decodeSimple? at found
  dsimp only at found
  split at found
  · cases found
    exact Value.received_of_simple rfl rfl rfl nofun
  split at found
  · split at found
    · cases found
      exact Value.received_of_simple rfl rfl rfl nofun
    · cases found
  split at found
  · obtain ⟨n, -, rfl⟩ := map_eq_ok.mp (Option.some.inj found)
    exact Value.received_of_simple rfl rfl rfl nofun
  split at found
  · obtain ⟨d, -, rfl⟩ := map_eq_ok.mp (Option.some.inj found)
    exact Value.received_of_simple rfl rfl rfl nofun
  split at found
  · obtain ⟨s, -, found⟩ := bind_eq_ok.mp (Option.some.inj found)
    obtain ⟨t, read, found⟩ := bind_eq_ok.mp found
    cases found
    exact Value.received_timestamp.mpr (Timestamp.hasDate_of_read (mapError_eq_ok.mp read))
  split at found
  · obtain ⟨s, -, rfl⟩ := map_eq_ok.mp (Option.some.inj found)
    exact Value.received_of_simple rfl rfl rfl nofun
  split at found
  · obtain ⟨s, -, found⟩ := bind_eq_ok.mp (Option.some.inj found)
    obtain ⟨bs, -, found⟩ := bind_eq_ok.mp found
    cases found
    exact Value.received_of_simple rfl rfl rfl nofun
  split at found
  · obtain ⟨path, -, rfl⟩ := map_eq_ok.mp (Option.some.inj found)
    exact Value.received_of_simple rfl rfl rfl nofun
  · cases found

mutual

/-- Reading gives no marker and no timestamp without a date. The induction follows the reader, which
goes down to elements and fields through the objects around them. -/
theorem received_of_decodeValue (j : Json) {v : Value} (read : decodeValue j = .ok v) :
    v.Received := by
  cases j with
  | object members =>
    rw [decodeValue] at read
    split at read
    · rename_i result found
      subst read
      exact received_of_decodeSimple? found
    split at read
    · rename_i result found
      obtain ⟨vs, rfl, rfl⟩ := map_eq_ok.mp read
      exact Value.received_array.mpr (received_of_arrayMember? members found)
    split at read
    · rename_i result found
      obtain ⟨fields, rfl, rfl⟩ := map_eq_ok.mp read
      exact Value.received_map.mpr (received_of_mapMember? members found)
    · cases read
  | _ => cases read
termination_by structural j

theorem received_of_decodeList (items : List Json) {vs : List Value}
    (read : decodeList items = .ok vs) : ∀ v ∈ vs, v.Received := by
  cases items with
  | nil =>
    cases read
    exact List.forall_mem_nil _
  | cons item items =>
    obtain ⟨v, rest, first, others, rfl⟩ := decodeList_cons_eq_ok.mp read
    exact List.forall_mem_cons.mpr
      ⟨received_of_decodeValue item first, received_of_decodeList items others⟩
termination_by structural items

theorem received_of_decodeMembers (members : List (String × Json)) {fields : Fields}
    (read : decodeMembers members = .ok fields) : ∀ entry ∈ fields, entry.2.Received := by
  cases members with
  | nil =>
    cases read
    exact List.forall_mem_nil _
  | cons entry members =>
    obtain ⟨key, member⟩ := entry
    obtain ⟨v, rest, first, others, rfl⟩ := decodeMembers_cons_eq_ok.mp read
    exact List.forall_mem_cons.mpr
      ⟨received_of_decodeValue member first, received_of_decodeMembers members others⟩
termination_by structural members

theorem received_of_arrayMember? (members : List (String × Json)) {vs : List Value}
    (found : arrayMember? members = some (.ok vs)) : ∀ v ∈ vs, v.Received := by
  cases members with
  | nil => cases found
  | cons entry members =>
    obtain ⟨name, j⟩ := entry
    rw [arrayMember?] at found
    split at found
    · exact received_of_elements j (Option.some.inj found)
    · exact received_of_arrayMember? members found
termination_by structural members

theorem received_of_elements (j : Json) {vs : List Value} (read : elements j = .ok vs) :
    ∀ v ∈ vs, v.Received := by
  cases j with
  | object members => exact received_of_elementsIn members read
  | _ =>
    cases read
    exact List.forall_mem_nil _
termination_by structural j

theorem received_of_elementsIn (members : List (String × Json)) {vs : List Value}
    (read : elementsIn members = .ok vs) : ∀ v ∈ vs, v.Received := by
  cases members with
  | nil =>
    cases read
    exact List.forall_mem_nil _
  | cons entry members =>
    obtain ⟨name, j⟩ := entry
    rw [elementsIn] at read
    split at read
    · exact received_of_elementList j read
    · exact received_of_elementsIn members read
termination_by structural members

theorem received_of_elementList (j : Json) {vs : List Value} (read : elementList j = .ok vs) :
    ∀ v ∈ vs, v.Received := by
  cases j with
  | array items => exact received_of_decodeList items read
  | _ =>
    cases read
    exact List.forall_mem_nil _
termination_by structural j

theorem received_of_mapMember? (members : List (String × Json)) {fields : Fields}
    (found : mapMember? members = some (.ok fields)) : ∀ entry ∈ fields, entry.2.Received := by
  cases members with
  | nil => cases found
  | cons entry members =>
    obtain ⟨name, j⟩ := entry
    rw [mapMember?] at found
    split at found
    · exact received_of_mapFields j (Option.some.inj found)
    · exact received_of_mapMember? members found
termination_by structural members

theorem received_of_mapFields (j : Json) {fields : Fields} (read : mapFields j = .ok fields) :
    ∀ entry ∈ fields, entry.2.Received := by
  cases j with
  | object members => exact received_of_mapFieldsIn members read
  | _ =>
    cases read
    exact List.forall_mem_nil _
termination_by structural j

theorem received_of_mapFieldsIn (members : List (String × Json)) {fields : Fields}
    (read : mapFieldsIn members = .ok fields) : ∀ entry ∈ fields, entry.2.Received := by
  cases members with
  | nil =>
    cases read
    exact List.forall_mem_nil _
  | cons entry members =>
    obtain ⟨name, j⟩ := entry
    rw [mapFieldsIn] at read
    split at read
    · exact received_of_decodeFields j read
    · exact received_of_mapFieldsIn members read
termination_by structural members

theorem received_of_decodeFields (j : Json) {fields : Fields} (read : decodeFields j = .ok fields) :
    ∀ entry ∈ fields, entry.2.Received := by
  cases j with
  | object members => exact received_of_decodeMembers members read
  | _ => cases read
termination_by structural j

end

private theorem exists_encodeList {vs : List Value} (each : ∀ v ∈ vs, ∃ j, encodeValue v = .ok j) :
    ∃ items, encodeList vs = .ok items := by
  simpa only [encodeList_eq_ok] using exists_forall₂_iff.mpr each

private theorem exists_encodeFields {fields : Fields}
    (each : ∀ entry ∈ fields, ∃ j, encodeValue entry.2 = .ok j) :
    ∃ members, encodeFields fields = .ok members := by
  simp only [encodeFields_eq_ok]
  refine exists_forall₂_iff.mpr fun entry mem => ?_
  obtain ⟨item, written⟩ := each entry mem
  exact ⟨(entry.1, item), rfl, written⟩

theorem exists_encodeValue (received : v.Received) : ∃ j, encodeValue v = .ok j := by
  induction v using Value.nested_induction with
  | array elements ih =>
    have each := Value.received_array.mp received
    obtain ⟨items, written⟩ := exists_encodeList fun v mem => ih v mem (each v mem)
    exact ⟨_, by rw [encodeValue, written]; rfl⟩
  | map fields ih =>
    have each := Value.received_map.mp received
    obtain ⟨members, written⟩ := exists_encodeFields fun entry mem => ih entry mem (each entry mem)
    exact ⟨_, by rw [encodeValue, written]; rfl⟩
  | leaf v notArray notMap =>
    obtain ⟨plain, dated⟩ := received v .itself
    cases v with
    | array elements => cases notArray
    | map fields => cases notMap
    | timestamp t =>
      obtain ⟨s, text⟩ := (dated t rfl).exists_writeFull
      exact ⟨_, by rw [encodeValue, text]⟩
    | serverTimestamp => cases plain
    | increment operand => cases plain
    | arrayUnion elements => cases plain
    | arrayRemove elements => cases plain
    | deleteField => cases plain
    | _ => exact ⟨_, rfl⟩

/-- The names by which reading tells the kinds of values. -/
def kinds : List String :=
  ["nullValue", "booleanValue", "integerValue", "doubleValue", "timestampValue", "stringValue",
    "bytesValue", "referenceValue", "arrayValue", "mapValue"]

private theorem arrayMember?_eq (members : List (String × Json)) :
    arrayMember? members = (Entries.find? "arrayValue" members).map elements := by
  induction members with
  | nil => rfl
  | cons entry members ih =>
    rw [arrayMember?, Entries.find?]
    split
    · rfl
    · exact ih

private theorem mapMember?_eq (members : List (String × Json)) :
    mapMember? members = (Entries.find? "mapValue" members).map mapFields := by
  induction members with
  | nil => rfl
  | cons entry members ih =>
    rw [mapMember?, Entries.find?]
    split
    · rfl
    · exact ih

theorem decodeValue_of_unknown {members : List (String × Json)}
    (unknown : ∀ member ∈ members, member.1 ∉ kinds) :
    decodeValue (.object members) = .error .unknownKind := by
  have absent {kind : String} (known : kind ∈ kinds) : Entries.find? kind members = none :=
    Entries.find?_eq_none fun member mem same => unknown member mem (same ▸ known)
  rw [decodeValue, arrayMember?_eq, mapMember?_eq]
  simp (disch := decide) [decodeSimple?, absent]

theorem decodeValue_of_isSentinel (marker : v.isSentinel) (written : encodeValue v = .ok j) :
    decodeValue j = .error .unknownKind := by
  cases v with
  | serverTimestamp =>
    cases written
    exact decodeValue_of_unknown (by decide)
  | increment operand =>
    obtain ⟨n, -, rfl⟩ := map_eq_ok.mp written
    refine decodeValue_of_unknown ?_
    simp [kinds, Value.tagKey]
  | arrayUnion elements =>
    obtain ⟨items, -, rfl⟩ := map_eq_ok.mp written
    refine decodeValue_of_unknown ?_
    simp [kinds, Value.tagKey]
  | arrayRemove elements =>
    obtain ⟨items, -, rfl⟩ := map_eq_ok.mp written
    refine decodeValue_of_unknown ?_
    simp [kinds, Value.tagKey]
  | deleteField =>
    cases written
    refine decodeValue_of_unknown ?_
    simp [kinds, Value.tagKey]
  | _ => cases marker

mutual

theorem isPortable_of_decodeValue (v : Value) {j : Json} {w : Value}
    (written : encodeValue v = .ok j) (read : decodeValue j = .ok w) : v.isPortable := by
  cases v with
  | double d =>
    cases written
    rw [decodeValue_double] at read
    obtain ⟨e, read, -⟩ := map_eq_ok.mp read
    unfold Json.ofDouble at read
    split at read
    · assumption
    · cases read
  | timestamp t =>
    rw [encodeValue] at written
    split at written
    · rename_i s text
      cases written
      rw [decodeValue_timestamp] at read
      obtain ⟨u, read, -⟩ := map_eq_ok.mp read
      exact decide_eq_true (Timestamp.HasFourDigitYear.of_read text (mapError_eq_ok.mp read))
    · cases written
  | array elements =>
    obtain ⟨items, listed, rfl⟩ := map_eq_ok.mp written
    rw [decodeValue_array] at read
    obtain ⟨ws, readList, -⟩ := map_eq_ok.mp read
    exact allPortable_of_decodeList elements listed readList
  | map fields =>
    obtain ⟨members, listed, rfl⟩ := map_eq_ok.mp written
    rw [decodeValue_map] at read
    obtain ⟨others, readMembers, -⟩ := map_eq_ok.mp read
    exact allPortable_of_decodeMembers fields listed readMembers
  | serverTimestamp => cases (decodeValue_of_isSentinel rfl written).symm.trans read
  | increment operand => cases (decodeValue_of_isSentinel rfl written).symm.trans read
  | arrayUnion elements => cases (decodeValue_of_isSentinel rfl written).symm.trans read
  | arrayRemove elements => cases (decodeValue_of_isSentinel rfl written).symm.trans read
  | deleteField => cases (decodeValue_of_isSentinel rfl written).symm.trans read
  | _ => rfl
termination_by structural v

theorem allPortable_of_decodeList (vs : List Value) {items : List Json} {ws : List Value}
    (written : encodeList vs = .ok items) (read : decodeList items = .ok ws) :
    Value.allPortable vs := by
  cases vs with
  | nil => rfl
  | cons v vs =>
    obtain ⟨item, rest, first, others, rfl⟩ := encodeList_cons_eq_ok.mp written
    obtain ⟨w, ws, readFirst, readOthers, -⟩ := decodeList_cons_eq_ok.mp read
    have head := isPortable_of_decodeValue v first readFirst
    have tail := allPortable_of_decodeList vs others readOthers
    rw [Value.allPortable, head, tail]
    rfl
termination_by structural vs

theorem allPortable_of_decodeMembers (fields : Entries Value) {members : List (String × Json)}
    {others : Fields} (written : encodeFields fields = .ok members)
    (read : decodeMembers members = .ok others) : Value.allPortableFields fields := by
  cases fields with
  | nil => rfl
  | cons entry fields =>
    obtain ⟨key, v⟩ := entry
    obtain ⟨member, rest, first, others, rfl⟩ := encodeFields_cons_eq_ok.mp written
    obtain ⟨w, ws, readFirst, readOthers, -⟩ := decodeMembers_cons_eq_ok.mp read
    have head := isPortable_of_decodeValue v first readFirst
    have tail := allPortable_of_decodeMembers fields others readOthers
    rw [Value.allPortableFields, head, tail]
    rfl
termination_by structural fields

end

/-- A value without markers, with finite doubles and with years of four digits is written, and read
back as it was. -/
theorem written_read_back (plain : ∀ w : Value, w.Inside v → w.isSentinel = false)
    (finite : v.Finite) (years : v.FourDigitYears) :
    ∃ j, encodeValue v = .ok j ∧ decodeValue j = .ok v :=
  decodeValue_encodeValue v (Value.isPortable_iff.mpr ⟨plain, finite, years⟩)

/-- A room with a value of every kind and with keys that are names of kinds. -/
def furnishedRoom : Value :=
  .map [("arrayValue", .array []),
    ("fields", .map [("mapValue", .map []), ("nullValue", .null), ("values", .boolean true)]),
    ("items", .array [.integer 2, .double (Double.ofInt 2), .string "values", .bytes [0, 255],
      .reference "rooms/attic", .timestamp (.new (-1) 5)])]

theorem furnishedRoom_read_back :
    (∀ w : Value, w.Inside furnishedRoom → w.isSentinel = false) ∧ furnishedRoom.Finite ∧
      furnishedRoom.FourDigitYears ∧
      ∃ j, encodeValue furnishedRoom = .ok j ∧ decodeValue j = .ok furnishedRoom := by
  have portable : furnishedRoom.isPortable := by decide
  obtain ⟨plain, finite, years⟩ := Value.isPortable_iff.mp portable
  exact ⟨plain, finite, years, written_read_back plain finite years⟩

/-- Whatever is read can be written again, and it is read from there exactly if its doubles are finite
and its years have four digits; otherwise nothing is read. -/
theorem read_again_iff (read : decodeValue j = .ok v) :
    ∃ again, encodeValue v = .ok again ∧
      ∀ w, decodeValue again = .ok w ↔ w = v ∧ v.Finite ∧ v.FourDigitYears := by
  have received := received_of_decodeValue j read
  obtain ⟨again, written⟩ := exists_encodeValue received
  refine ⟨again, written, fun w => ⟨fun readAgain => ?_, ?_⟩⟩
  · have portable := isPortable_of_decodeValue v written readAgain
    obtain ⟨same, writtenSame, readBack⟩ := decodeValue_encodeValue v portable
    cases writtenSame.symm.trans written
    cases readBack.symm.trans readAgain
    exact ⟨rfl, (Value.isPortable_iff.mp portable).2⟩
  · rintro ⟨rfl, finite, years⟩
    have plain (u : Value) (inside : u.Inside w) : u.isSentinel = false := (received u inside).1
    obtain ⟨same, writtenSame, readBack⟩ :=
      decodeValue_encodeValue w (Value.isPortable_iff.mpr ⟨plain, finite, years⟩)
    cases writtenSame.symm.trans written
    exact readBack

/-- Typed JSON as only others write it: an integer as a number, a time with an offset, a map without
fields and a member that means nothing. -/
def foreignJson : Json :=
  typed "arrayValue" (.object [("size", .int 3), ("values", .array [typed "integerValue" (.int 7),
    typed "timestampValue" (.string "2020-01-01t00:30:00+01:00"), typed "mapValue" .null])])

theorem foreignJson_read_again :
    ∃ v, decodeValue foreignJson = .ok v ∧ ∃ again, encodeValue v = .ok again ∧
      ∀ w, decodeValue again = .ok w ↔ w = v ∧ v.Finite ∧ v.FourDigitYears := by
  have read : decodeValue foreignJson
      = .ok (.array [.integer 7, .timestamp (.new 1577835000 0), .map []]) := by cbv
  exact ⟨_, read, read_again_iff read⟩

/-- What is no number is read from a text and written as a null, which is not read. -/
theorem not_read_again_nan :
    ¬ ∀ j v, decodeValue j = .ok v →
      ∃ again, encodeValue v = .ok again ∧ decodeValue again = .ok v := by
  intro all
  have read : decodeValue (typed "doubleValue" (.string "NaN")) = .ok (.double .nan) := by rfl
  obtain ⟨again, written, readAgain⟩ := all _ _ read
  cases written
  rw [decodeValue_double] at readAgain
  cases readAgain

end Wire

end DocumentStore
