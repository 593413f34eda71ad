import DocumentStore.Proofs.Json.Inside
import DocumentStore.Proofs.Number.Integers
import DocumentStore.Proofs.Outcome
import DocumentStore.Proofs.Value.Inside
import DocumentStore.Value.PlainJson

/-! # Plain JSON is read back

What JSON and documents have in common goes from one to the other and back without loss, with integers
and doubles kept apart. A value has a JSON form unless something in it, at any depth, has none: a marker,
a double that is not finite or a timestamp without a date. -/

namespace DocumentStore

/-- Tells the JSON values that documents can hold as they are, but for what may stand inside arrays and
objects. -/
def Json.isCommon : Json → Bool
  | .int n => decide (IsInt64 n)
  | .float d => d.isFinite
  | _ => true

namespace Value

theorem ofJsonInteger_of_isInt64 {n : Int} (fits : IsInt64 n) :
    ofJsonInteger n = .integer (Int64.ofInt n) := if_pos fits

theorem ofJsonList_eq_map (items : List Json) : ofJsonList items = items.map ofJson := by
  induction items with
  | nil => rfl
  | cons j items ih => rw [ofJsonList, ih, List.map_cons]

theorem ofJsonMembers_eq_map (members : List (String × Json)) :
    ofJsonMembers members = members.map fun entry => (entry.1, ofJson entry.2) := by
  induction members with
  | nil => rfl
  | cons entry members ih => rw [ofJsonMembers, ih, List.map_cons]

theorem toJsonList_eq_ok {vs : List Value} {items : List Json} :
    toJsonList vs = .ok items ↔ List.Forall₂ (fun v j => v.toJson = .ok j) vs items := by
  induction vs generalizing items with
  | nil => simp [toJsonList, eq_comm]
  | cons v vs ih =>
    rw [toJsonList, List.forall₂_cons_left_iff]
    simp only [← ih]
    cases v.toJson <;> cases toJsonList vs <;> simp [eq_comm]

theorem toJsonFields_eq_ok {fields : Fields} {members : List (String × Json)} :
    toJsonFields fields = .ok members ↔
      List.Forall₂ (fun entry member => member.1 = entry.1 ∧ entry.2.toJson = .ok member.2)
        fields members := by
  induction fields generalizing members with
  | nil => simp [toJsonFields, eq_comm]
  | cons entry fields ih =>
    rw [toJsonFields, List.forall₂_cons_left_iff]
    simp only [← ih]
    cases entry.2.toJson <;> cases toJsonFields fields <;> simp [eq_comm]

private theorem toJsonList_ofJsonList {items : List Json}
    (each : ∀ j ∈ items, (ofJson j).toJson = .ok j) :
    toJsonList (ofJsonList items) = .ok items := by
  rw [toJsonList_eq_ok, ofJsonList_eq_map, List.forall₂_map_left_iff, List.forall₂_same]
  exact each

private theorem toJsonFields_ofJsonMembers {members : List (String × Json)}
    (each : ∀ entry ∈ members, (ofJson entry.2).toJson = .ok entry.2) :
    toJsonFields (ofJsonMembers members) = .ok members := by
  rw [toJsonFields_eq_ok, ofJsonMembers_eq_map, List.forall₂_map_left_iff, List.forall₂_same]
  exact fun entry mem => ⟨rfl, each entry mem⟩

theorem toJson_ofJson {j : Json} (common : ∀ k : Json, k.Inside j → k.isCommon) :
    (ofJson j).toJson = .ok j := by
  induction j using Json.nested_induction with
  | array items ih =>
    obtain ⟨-, each⟩ := Json.forall_inside_array.mp common
    rw [ofJson, toJson, toJsonList_ofJsonList fun j mem => ih j mem (each j mem)]
    rfl
  | object members ih =>
    obtain ⟨-, each⟩ := Json.forall_inside_object.mp common
    rw [ofJson, toJson, toJsonFields_ofJsonMembers fun entry mem => ih entry mem (each entry mem)]
    rfl
  | scalar j scalar =>
    have number := common j .itself
    cases j with
    | array items => cases scalar
    | object members => cases scalar
    | int n =>
      have fits : IsInt64 n := of_decide_eq_true number
      rw [ofJson, ofJsonInteger_of_isInt64 fits, toJson, fits.toInt_ofInt]
    | float d => exact if_pos number
    | _ => rfl

/-- Tells the values of the kinds that JSON has, but for what may stand inside arrays and maps. -/
def isCommon : Value → Bool
  | .null | .boolean _ | .integer _ | .string _ | .array _ | .map _ => true
  | .double d => d.isFinite
  | _ => false

private theorem exists_toJsonList {vs : List Value}
    (each : ∀ v ∈ vs, ∃ j, v.toJson = .ok j ∧ ofJson j = v) :
    ∃ items, toJsonList vs = .ok items ∧ ofJsonList items = vs := by
  obtain ⟨items, both⟩ := exists_forall₂_iff.mpr each
  have read : List.Forall₂ (· = ·) vs (items.map ofJson) :=
    List.forall₂_map_right_iff.mpr (both.imp fun _ _ pair => pair.2.symm)
  rw [List.forall₂_eq_eq_eq, ← ofJsonList_eq_map] at read
  exact ⟨items, toJsonList_eq_ok.mpr (both.imp fun _ _ pair => pair.1), read.symm⟩

private theorem exists_toJsonFields {fields : Fields}
    (each : ∀ entry ∈ fields, ∃ j, entry.2.toJson = .ok j ∧ ofJson j = entry.2) :
    ∃ members, toJsonFields fields = .ok members ∧ ofJsonMembers members = fields := by
  have member : ∀ entry ∈ fields, ∃ member : String × Json,
      (member.1 = entry.1 ∧ entry.2.toJson = .ok member.2) ∧ entry = (member.1, ofJson member.2) := by
    intro entry mem
    obtain ⟨j, written, read⟩ := each entry mem
    exact ⟨(entry.1, j), ⟨rfl, written⟩, Prod.ext rfl read.symm⟩
  obtain ⟨members, both⟩ := exists_forall₂_iff.mpr member
  have read : List.Forall₂ (· = ·) fields (members.map fun member => (member.1, ofJson member.2)) :=
    List.forall₂_map_right_iff.mpr (both.imp fun _ _ pair => pair.2)
  rw [List.forall₂_eq_eq_eq, ← ofJsonMembers_eq_map] at read
  exact ⟨members, toJsonFields_eq_ok.mpr (both.imp fun _ _ pair => pair.1), read.symm⟩

theorem ofJson_toJson {v : Value} (common : ∀ w : Value, w.Inside v → w.isCommon) :
    ∃ j, v.toJson = .ok j ∧ ofJson j = v := by
  induction v using nested_induction with
  | array elements ih =>
    obtain ⟨-, each⟩ := forall_inside_array.mp common
    obtain ⟨items, written, read⟩ := exists_toJsonList fun v mem => ih v mem (each v mem)
    exact ⟨.array items, by rw [toJson, written]; rfl, by rw [ofJson, read]⟩
  | map fields ih =>
    obtain ⟨-, each⟩ := forall_inside_map.mp common
    obtain ⟨members, written, read⟩ :=
      exists_toJsonFields fun entry mem => ih entry mem (each entry mem)
    exact ⟨.object members, by rw [toJson, written]; rfl, by rw [ofJson, read]⟩
  | leaf v notArray notMap =>
    have kind := common v .itself
    cases v with
    | integer n =>
      refine ⟨_, rfl, ?_⟩
      rw [ofJson, ofJsonInteger_of_isInt64 (isInt64_toInt n), Int64.ofInt_toInt]
    | double d => exact ⟨_, if_pos kind, rfl⟩
    | null => exact ⟨_, rfl, rfl⟩
    | boolean b => exact ⟨_, rfl, rfl⟩
    | string s => exact ⟨_, rfl, rfl⟩
    | array elements => cases notArray
    | map fields => cases notMap
    | _ => cases kind

/-- A value has no JSON form of its own, whatever it holds. -/
def Formless (v : Value) : Prop :=
  v.isSentinel ∨ (∃ d, v = .double d ∧ d.isFinite = false) ∨ ∃ t, v = .timestamp t ∧ ¬ t.HasDate

private theorem exists_toJsonList_iff {vs : List Value} :
    (∃ items, toJsonList vs = .ok items) ↔ ∀ v ∈ vs, ∃ j, v.toJson = .ok j := by
  simp only [toJsonList_eq_ok, exists_forall₂_iff]

private theorem exists_toJsonFields_iff {fields : Fields} :
    (∃ members, toJsonFields fields = .ok members) ↔ ∀ entry ∈ fields, ∃ j, entry.2.toJson = .ok j := by
  simp only [toJsonFields_eq_ok, exists_forall₂_iff]
  simp

private theorem exists_toJson_iff {v : Value} :
    (∃ j, v.toJson = .ok j) ↔ ∀ w : Value, w.Inside v → ¬ w.Formless := by
  induction v using nested_induction with
  | array elements ih =>
    have form : ¬ (array elements).Formless := by simp [Formless, isSentinel]
    rw [forall_inside_array, and_iff_right form, ← forall₂_congr ih, ← exists_toJsonList_iff]
    simp only [toJson, map_eq_ok]
    constructor
    · rintro ⟨-, items, written, -⟩
      exact ⟨items, written⟩
    · rintro ⟨items, written⟩
      exact ⟨_, items, written, rfl⟩
  | map fields ih =>
    have form : ¬ (map fields).Formless := by simp [Formless, isSentinel]
    rw [forall_inside_map, and_iff_right form, ← forall₂_congr ih, ← exists_toJsonFields_iff]
    simp only [toJson, map_eq_ok]
    constructor
    · rintro ⟨-, members, written, -⟩
      exact ⟨members, written⟩
    · rintro ⟨members, written⟩
      exact ⟨_, members, written, rfl⟩
  | leaf v notArray notMap =>
    rw [forall_inside_leaf notArray notMap]
    cases v with
    | double d => cases finite : d.isFinite <;> simp [toJson, Formless, isSentinel, finite]
    | timestamp t =>
      by_cases date : t.HasDate <;> simp [toJson, Formless, isSentinel, Timestamp.writeExact?,
        Timestamp.write?, date]
    | array elements => cases notArray
    | map fields => cases notMap
    | _ => simp [toJson, Formless, isSentinel]

/-- JSON whose numbers are integers of sixty-four bits or finite comes back from its document value. A
value of the common kinds comes back from its JSON form. And a value has no JSON form exactly if something
in it has none: a marker, a double that is not finite or a timestamp without a date. -/
theorem plain_json_lossless :
    (∀ j : Json, (∀ k : Json, k.Inside j → k.isCommon) → (ofJson j).toJson = .ok j) ∧
      (∀ v : Value, (∀ w : Value, w.Inside v → w.isCommon) → ∃ j, v.toJson = .ok j ∧ ofJson j = v) ∧
      ∀ v : Value, (∃ fault, v.toJson = .error fault) ↔
        ∃ w : Value, w.Inside v ∧ (w.isSentinel ∨ (∃ d, w = .double d ∧ d.isFinite = false) ∨
          ∃ t, w = .timestamp t ∧ ¬ t.HasDate) := by
  refine ⟨fun j => toJson_ofJson, fun v => ofJson_toJson, fun v => ?_⟩
  have failed : (∃ fault, v.toJson = .error fault) ↔ ¬ ∃ j, v.toJson = .ok j := by
    cases v.toJson <;> simp
  rw [failed, exists_toJson_iff]
  simp only [not_forall, not_not, exists_prop]
  rfl

/-- A room with one size, given as an integer and as a double. -/
def measuredRoomJson : Json :=
  .object [("name", .string "attic"), ("sizes", .array [.int (-1), .float (.ofInt (-1)), .null])]

def measuredRoom : Value :=
  .map [("name", .string "attic"), ("sizes", .array [.integer (-1), .double (.ofInt (-1)), .null])]

theorem plain_json_lossless_measuredRoom :
    (∀ k : Json, k.Inside measuredRoomJson → k.isCommon) ∧
      (ofJson measuredRoomJson).toJson = .ok measuredRoomJson ∧
      (∀ w : Value, w.Inside measuredRoom → w.isCommon) ∧
      (∃ j, measuredRoom.toJson = .ok j ∧ ofJson j = measuredRoom) ∧
      ∃ fault, (array [measuredRoom, .map [("sizes", .double .nan)]]).toJson = .error fault := by
  obtain ⟨back, forth, failed⟩ := plain_json_lossless
  have commonJson : ∀ k : Json, k.Inside measuredRoomJson → k.isCommon := by
    have scalar {j : Json} (alone : j.isScalar) (number : j.isCommon) :
        ∀ k : Json, k.Inside j → k.isCommon := (Json.forall_inside_scalar alone).mpr number
    simp only [measuredRoomJson, Json.forall_inside_object, Json.forall_inside_array,
      List.forall_mem_cons, List.not_mem_nil, false_implies, implies_true, and_true]
    exact ⟨rfl, scalar rfl rfl, rfl, scalar rfl rfl, scalar rfl (by decide), scalar rfl rfl⟩
  have common : ∀ w : Value, w.Inside measuredRoom → w.isCommon := by
    have leaf {v : Value} (notArray : v.asArray? = none) (notMap : v.asMap? = none) (kind : v.isCommon) :
        ∀ w : Value, w.Inside v → w.isCommon := (forall_inside_leaf notArray notMap).mpr kind
    simp only [measuredRoom, forall_inside_map, forall_inside_array, List.forall_mem_cons,
      List.not_mem_nil, false_implies, implies_true, and_true]
    exact ⟨rfl, leaf rfl rfl rfl, rfl, leaf rfl rfl rfl, leaf rfl rfl (by decide), leaf rfl rfl rfl⟩
  refine ⟨commonJson, back _ commonJson, common, forth _ common, (failed _).mpr ?_⟩
  refine ⟨.double .nan, .element (List.mem_cons_of_mem _ List.mem_cons_self) ?_, ?_⟩
  · exact .field List.mem_cons_self .itself
  · exact .inr (.inl ⟨.nan, rfl, rfl⟩)

end Value

end DocumentStore
