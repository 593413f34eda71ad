import DocumentStore.Proofs.Outcome
import DocumentStore.Proofs.Text.Base64
import DocumentStore.Proofs.Text.Decimal
import DocumentStore.Proofs.Time.Rfc3339
import DocumentStore.Wire.Value

/-! # Typed JSON is read back

A value without markers, whose doubles are finite and whose timestamps have years of four digits, is
read back from its typed JSON, at any depth. -/

namespace DocumentStore

namespace Value

mutual

/-- Tells the values that travel without loss. -/
def isPortable : Value → Bool
  | .double d => d.isFinite
  | .timestamp t => t.HasFourDigitYear
  | .array elements => allPortable elements
  | .map fields => allPortableFields fields
  | .serverTimestamp | .increment _ | .arrayUnion _ | .arrayRemove _ | .deleteField => false
  | _ => true

/-- Tells the lists of such values. -/
def allPortable : List Value → Bool
  | [] => true
  | v :: vs => isPortable v && allPortable vs

/-- Tells the fields with such values. -/
def allPortableFields : Entries Value → Bool
  | [] => true
  | (_, v) :: fields => isPortable v && allPortableFields fields

end

end Value

namespace Wire

open Value

section Cons

variable {v : Value} {vs : List Value} {key : String} {fields : Fields} {item : Json}
  {items : List Json} {members : List (String × Json)}

theorem encodeList_cons_eq_ok : encodeList (v :: vs) = .ok items ↔
    ∃ item rest, encodeValue v = .ok item ∧ encodeList vs = .ok rest ∧ item :: rest = items := by
  rw [encodeList]
  cases encodeValue v <;> cases encodeList vs <;> simp

theorem encodeFields_cons_eq_ok : encodeFields ((key, v) :: fields) = .ok members ↔
    ∃ item rest, encodeValue v = .ok item ∧ encodeFields fields = .ok rest ∧
      (key, item) :: rest = members := by
  rw [encodeFields]
  cases encodeValue v <;> cases encodeFields fields <;> simp

theorem encodeList_eq_ok : encodeList vs = .ok items ↔
    List.Forall₂ (fun v item => encodeValue v = .ok item) vs items := by
  induction vs generalizing items with
  | nil => simp [encodeList, eq_comm]
  | cons v vs ih =>
    rw [encodeList_cons_eq_ok, List.forall₂_cons_left_iff]
    simp only [ih, exists_and_left, eq_comm]

theorem encodeFields_eq_ok : encodeFields fields = .ok members ↔
    List.Forall₂ (fun entry member => member.1 = entry.1 ∧ encodeValue entry.2 = .ok member.2)
      fields members := by
  induction fields generalizing members with
  | nil => simp [encodeFields, eq_comm]
  | cons entry fields ih =>
    obtain ⟨key, v⟩ := entry
    rw [encodeFields_cons_eq_ok, List.forall₂_cons_left_iff]
    constructor
    · rintro ⟨item, rest, first, others, rfl⟩
      exact ⟨(key, item), rest, ⟨rfl, first⟩, ih.mp others, rfl⟩
    · rintro ⟨⟨_, item⟩, rest, ⟨rfl, first⟩, others, rfl⟩
      exact ⟨item, rest, first, ih.mpr others, rfl⟩

theorem decodeList_cons_eq_ok : decodeList (item :: items) = .ok vs ↔
    ∃ v rest, decodeValue item = .ok v ∧ decodeList items = .ok rest ∧ v :: rest = vs := by
  rw [decodeList]
  cases decodeValue item <;> cases decodeList items <;> simp

theorem decodeMembers_cons_eq_ok : decodeMembers ((key, item) :: members) = .ok fields ↔
    ∃ v rest, decodeValue item = .ok v ∧ decodeMembers members = .ok rest ∧
      (key, v) :: rest = fields := by
  rw [decodeMembers]
  cases decodeValue item <;> cases decodeMembers members <;> simp

end Cons

section Kinds

-- The names of the kinds differ, so each kind is read from what it is written as.

theorem decodeValue_double (j : Json) :
    decodeValue (typed "doubleValue" j) = (decodeDouble j).map .double := by
  simp [decodeValue, typed, decodeSimple?, Entries.find?]

theorem decodeValue_timestamp (s : String) :
    decodeValue (typed "timestampValue" (.string s))
      = ((Timestamp.read s).mapError .timestampText).map .timestamp := by
  cases read : Timestamp.read s <;>
    simp [decodeValue, typed, decodeSimple?, Entries.find?, decodeText, read, bind, Except.bind,
      pure, Except.pure, Except.map]

theorem decodeValue_array (items : List Json) :
    decodeValue (typed "arrayValue" (.object [("values", .array items)]))
      = (decodeList items).map .array := by
  simp [decodeValue, typed, decodeSimple?, Entries.find?, arrayMember?, Wire.elements, elementsIn,
    elementList]

theorem decodeValue_map (members : List (String × Json)) :
    decodeValue (typed "mapValue" (.object [("fields", .object members)]))
      = (decodeMembers members).map .map := by
  simp [decodeValue, typed, decodeSimple?, Entries.find?, arrayMember?, mapMember?, mapFields,
    mapFieldsIn, decodeFields]

end Kinds

mutual

theorem decodeValue_encodeValue (v : Value) (portable : v.isPortable) :
    ∃ j, encodeValue v = .ok j ∧ decodeValue j = .ok v := by
  cases v with
  | null => exact ⟨_, rfl, by simp [decodeValue, typed, decodeSimple?, Entries.find?]⟩
  | boolean b => exact ⟨_, rfl, by simp [decodeValue, typed, decodeSimple?, Entries.find?]⟩
  | integer n =>
    refine ⟨_, rfl, ?_⟩
    simp [decodeValue, typed, decodeSimple?, Entries.find?, decodeInteger,
      Text.readInteger_writeInteger, Except.map]
  | double d =>
    have kept : Json.ofDouble d = .float d := if_pos portable
    exact ⟨_, rfl, by rw [decodeValue_double, kept]; rfl⟩
  | timestamp t =>
    obtain ⟨s, written, read⟩ := Timestamp.read_writeFull (of_decide_eq_true portable)
    exact ⟨_, by rw [encodeValue, written], by rw [decodeValue_timestamp, read]; rfl⟩
  | string s =>
    refine ⟨_, rfl, ?_⟩
    simp [decodeValue, typed, decodeSimple?, Entries.find?, decodeText, Except.map]
  | bytes bs =>
    refine ⟨_, rfl, ?_⟩
    simp [decodeValue, typed, decodeSimple?, Entries.find?, decodeText, bind, Except.bind,
      Text.Base64.decode_encode, pure, Except.pure]
  | reference path =>
    refine ⟨_, rfl, ?_⟩
    simp [decodeValue, typed, decodeSimple?, Entries.find?, decodeText, Except.map]
  | array elements =>
    obtain ⟨items, written, read⟩ := decodeList_encodeList elements portable
    exact ⟨_, by rw [encodeValue, written, Except.map], by rw [decodeValue_array, read, Except.map]⟩
  | map fields =>
    obtain ⟨members, written, read⟩ := decodeMembers_encodeFields fields portable
    exact ⟨_, by rw [encodeValue, written, Except.map], by rw [decodeValue_map, read, Except.map]⟩
  | serverTimestamp => cases portable
  | increment operand => cases portable
  | arrayUnion elements => cases portable
  | arrayRemove elements => cases portable
  | deleteField => cases portable
termination_by structural v

theorem decodeList_encodeList (vs : List Value) (portable : allPortable vs) :
    ∃ items, encodeList vs = .ok items ∧ decodeList items = .ok vs := by
  cases vs with
  | nil => exact ⟨[], rfl, rfl⟩
  | cons v vs =>
    simp only [allPortable, Bool.and_eq_true] at portable
    obtain ⟨item, writtenItem, readItem⟩ := decodeValue_encodeValue v portable.1
    obtain ⟨items, written, read⟩ := decodeList_encodeList vs portable.2
    exact ⟨item :: items, encodeList_cons_eq_ok.mpr ⟨item, items, writtenItem, written, rfl⟩,
      decodeList_cons_eq_ok.mpr ⟨v, vs, readItem, read, rfl⟩⟩
termination_by structural vs

theorem decodeMembers_encodeFields (fields : Entries Value) (portable : allPortableFields fields) :
    ∃ members, encodeFields fields = .ok members ∧ decodeMembers members = .ok fields := by
  cases fields with
  | nil => exact ⟨[], rfl, rfl⟩
  | cons entry fields =>
    obtain ⟨key, v⟩ := entry
    simp only [allPortableFields, Bool.and_eq_true] at portable
    obtain ⟨member, writtenMember, readMember⟩ := decodeValue_encodeValue v portable.1
    obtain ⟨members, written, read⟩ := decodeMembers_encodeFields fields portable.2
    exact ⟨(key, member) :: members,
      encodeFields_cons_eq_ok.mpr ⟨member, members, writtenMember, written, rfl⟩,
      decodeMembers_cons_eq_ok.mpr ⟨v, fields, readMember, read, rfl⟩⟩
termination_by structural fields

end

end Wire

end DocumentStore
