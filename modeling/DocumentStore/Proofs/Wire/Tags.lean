import DocumentStore.Proofs.Entries
import DocumentStore.Proofs.Json.Inside
import DocumentStore.Proofs.Query.Operands
import DocumentStore.Proofs.Wire.Value
import DocumentStore.Wire.Query

/-! # Markers in what is sent

A marker is sent as a record with a tag. The record of any other value, and the records that a request
is made of, have other members, so a request has a tagged record in it exactly if a marker stands
somewhere in the values that it carries. -/

namespace DocumentStore

namespace Json

/-- A record with a tag, as it is sent for a marker. -/
def IsTagged (j : Json) : Prop :=
  ∃ members tag, j = .object members ∧ (Value.tagKey, .string tag) ∈ members

/-- No tagged record stands anywhere in a JSON value. -/
def Untagged (j : Json) : Prop := ∀ k : Json, k.Inside j → ¬ k.IsTagged

variable {j : Json} {items : List Json} {members : List (String × Json)}

theorem untagged_of_isScalar (scalar : j.isScalar) : j.Untagged := by
  refine (forall_inside_scalar scalar).mpr ?_
  rintro ⟨members, tag, rfl, -⟩
  cases scalar

@[simp] theorem untagged_string (s : String) : (string s).Untagged := untagged_of_isScalar rfl

@[simp] theorem untagged_bool (b : Bool) : (bool b).Untagged := untagged_of_isScalar rfl

private theorem isScalar_ofDouble (d : Double) : (ofDouble d).isScalar := by
  unfold ofDouble
  split
  · rfl
  · rfl

theorem untagged_array : (array items).Untagged ↔ ∀ j ∈ items, j.Untagged := by
  have notTagged : ¬ (array items).IsTagged := by simp [IsTagged]
  rw [Untagged, forall_inside_array, and_iff_right notTagged]
  rfl

theorem untagged_object : (object members).Untagged ↔
    (∀ tag, (Value.tagKey, string tag) ∉ members) ∧ ∀ entry ∈ members, entry.2.Untagged := by
  rw [Untagged, forall_inside_object]
  simp [IsTagged, Untagged]

/-- An object without a member under the name of tags is judged by its members. -/
theorem untagged_record (other : ∀ entry ∈ members, entry.1 ≠ Value.tagKey) :
    (object members).Untagged ↔ ∀ entry ∈ members, entry.2.Untagged := by
  refine untagged_object.trans (and_iff_right fun tag mem => ?_)
  exact other _ mem rfl

theorem untagged_single {name : String} (other : name ≠ Value.tagKey) :
    (object [(name, j)]).Untagged ↔ j.Untagged := by
  rw [untagged_record (by simpa using other), List.forall_mem_singleton]

private theorem not_untagged_of_tag {tag : String} :
    ¬ (object ((Value.tagKey, .string tag) :: members)).Untagged :=
  fun untagged => (untagged_object.mp untagged).1 tag List.mem_cons_self

end Json

open Json

namespace Wire

variable {v : Value} {j : Json}

theorem not_isScalar_of_encodeValue (written : encodeValue v = .ok j) : j.isScalar = false := by
  cases v with
  | timestamp t =>
    rw [encodeValue] at written
    split at written
    · cases written
      rfl
    · cases written
  | array elements | map fields | increment operand | arrayUnion elements | arrayRemove elements =>
    obtain ⟨content, -, rfl⟩ := map_eq_ok.mp written
    rfl
  | _ =>
    cases written
    rfl

/-- A field of a map may have the name of tags, but what is under it is a record and no tag. -/
theorem untagged_encodeFields {fields : Fields} {members : List (String × Json)}
    (written : encodeFields fields = .ok members) :
    (object members).Untagged ↔ ∀ entry ∈ members, entry.2.Untagged := by
  have records : ∀ entry ∈ members, entry.2.isScalar = false :=
    (forall_mem_iff_of_forall₂ (encodeFields_eq_ok.mp written) fun _ _ _ record =>
      iff_true_intro (not_isScalar_of_encodeValue record.2)).mpr fun _ _ => trivial
  exact untagged_object.trans (and_iff_right fun tag mem => Bool.noConfusion (records _ mem))

/-- The record of a value has a tagged record in it exactly if a marker stands in the value. -/
theorem untagged_encodeValue (written : encodeValue v = .ok j) : j.Untagged ↔ v.isPlain := by
  induction v using Value.nested_induction generalizing j with
  | array elements ih =>
    obtain ⟨items, each, rfl⟩ := map_eq_ok.mp written
    have shape : (typed "arrayValue" (object [("values", array items)])).Untagged ↔
        ∀ j ∈ items, j.Untagged :=
      (untagged_single (by decide)).trans ((untagged_single (by decide)).trans untagged_array)
    rw [shape, Value.isPlain, Value.allPlain_iff]
    exact forall_mem_iff_of_forall₂ (encodeList_eq_ok.mp each) fun v mem _ record => ih v mem record
  | map fields ih =>
    obtain ⟨members, each, rfl⟩ := map_eq_ok.mp written
    have shape : (typed "mapValue" (object [("fields", object members)])).Untagged ↔
        ∀ entry ∈ members, entry.2.Untagged :=
      (untagged_single (by decide)).trans
        ((untagged_single (by decide)).trans (untagged_encodeFields each))
    rw [shape, Value.isPlain, Value.allPlainFields_iff]
    exact forall_mem_iff_of_forall₂ (encodeFields_eq_ok.mp each)
      fun entry mem _ record => ih entry mem record.2
  | leaf v notArray notMap =>
    have untagged {kind : String} {content : Json} (other : kind ≠ Value.tagKey)
        (scalar : content.isScalar) : (typed kind content).Untagged :=
      (untagged_single other).mpr (untagged_of_isScalar scalar)
    cases v with
    | array elements => cases notArray
    | map fields => cases notMap
    | timestamp t =>
      rw [encodeValue] at written
      split at written
      · cases written
        exact iff_of_true (untagged (by decide) rfl) rfl
      · cases written
    | double d =>
      cases written
      exact iff_of_true (untagged (by decide) (isScalar_ofDouble d)) rfl
    | increment operand | arrayUnion elements | arrayRemove elements =>
      obtain ⟨content, -, rfl⟩ := map_eq_ok.mp written
      exact iff_of_false not_untagged_of_tag Bool.false_ne_true
    | serverTimestamp | deleteField =>
      cases written
      exact iff_of_false not_untagged_of_tag Bool.false_ne_true
    | _ =>
      cases written
      exact iff_of_true (untagged (by decide) rfl) rfl

@[simp] theorem untagged_fieldReference (path : FieldPath) : (fieldReference path).Untagged :=
  (untagged_single (by decide)).mpr (untagged_string _)

theorem isPlain_of_unaryName {filter : FieldFilter} {name : String}
    (unary : unaryName? filter = some name) : filter.operand.isPlain := by
  unfold unaryName? at unary
  split at unary
  case h_1 operand | h_2 operand | h_3 operand | h_4 operand =>
    rw [operand]
    rfl
  case h_5 => cases unary

private theorem untagged_encodeFilter {filter : FieldFilter} (written : encodeFilter filter = .ok j) :
    j.Untagged ↔ filter.operand.isPlain := by
  unfold encodeFilter at written
  split at written
  · rename_i name unary
    cases written
    refine iff_of_true ((untagged_single (by decide)).mpr ?_) (isPlain_of_unaryName unary)
    rw [untagged_record (by simp [Value.tagKey])]
    simp
  · obtain ⟨value, record, written⟩ := bind_eq_ok.mp written
    cases written
    rw [untagged_single (by decide), untagged_record (by simp [Value.tagKey])]
    simp [untagged_encodeValue record]

private theorem untagged_encodeFilters {filters : List FieldFilter}
    (written : encodeFilters filters = .ok j) :
    j.Untagged ↔ ∀ filter ∈ filters, filter.operand.isPlain := by
  unfold encodeFilters at written
  split at written
  · rw [List.forall_mem_singleton, untagged_encodeFilter written]
  · obtain ⟨clauses, each, written⟩ := bind_eq_ok.mp written
    cases written
    have shape : (object [("filters", array clauses), ("op", string "AND")]).Untagged ↔
        ∀ clause ∈ clauses, clause.Untagged := by
      rw [untagged_record (by simp [Value.tagKey])]
      simp [untagged_array]
    rw [untagged_single (by decide), shape]
    exact forall_mem_iff_of_forall₂ (mapM_eq_ok.mp each)
      fun _ _ _ clause => untagged_encodeFilter clause

private theorem untagged_encodeOrder (reversed : Bool) (order : OrderBy) :
    (encodeOrder reversed order).Untagged := by
  rw [encodeOrder, untagged_record (by simp [Value.tagKey])]
  simp

private theorem untagged_encodeCursor {start : Bool} {bound : Bound}
    (written : encodeCursor start bound = .ok j) : j.Untagged ↔ ∀ v ∈ bound.values, v.isPlain := by
  obtain ⟨items, each, written⟩ := bind_eq_ok.mp written
  cases written
  rw [untagged_record (by simp [Value.tagKey])]
  simp only [List.forall_mem_cons, untagged_bool, untagged_array, List.not_mem_nil, false_implies,
    implies_true, and_true, true_and]
  exact forall_mem_iff_of_forall₂ (encodeList_eq_ok.mp each)
    fun _ _ _ record => untagged_encodeValue record

/-- Members with some of the allowed names, in their order, in which no tagged record stands exactly if a
proposition holds. -/
structure Judged (allowed : List String) (members : List (String × Json)) (P : Prop) : Prop where
  names : (members.map Prod.fst).Sublist allowed
  untagged : (∀ entry ∈ members, entry.2.Untagged) ↔ P

namespace Judged

variable {allowed allowed' : List String} {members members' : List (String × Json)} {P Q : Prop}

theorem member (name : String) (content : j.Untagged ↔ P) : Judged [name] [(name, j)] P :=
  ⟨List.Sublist.refl _, List.forall_mem_singleton.trans content⟩

theorem missing (name : String) (holds : P) : Judged [name] [] P :=
  ⟨List.nil_sublist _, iff_of_true (List.forall_mem_nil _) holds⟩

theorem append (first : Judged allowed members P) (second : Judged allowed' members' Q) :
    Judged (allowed ++ allowed') (members ++ members') (P ∧ Q) where
  names := List.map_append ▸ first.names.append second.names
  untagged := by rw [List.forall_mem_append, first.untagged, second.untagged]

theorem ofMembers (judged : Judged allowed members P) (distinct : allowed.Nodup)
    (other : Value.tagKey ∉ allowed) : (Json.ofMembers members).Untagged ↔ P := by
  have kept {entry : String × Json} : entry ∈ Entries.ofList members ↔ entry ∈ members :=
    Entries.mem_ofList (judged.names.nodup distinct)
  rw [Json.ofMembers, untagged_record, ← judged.untagged]
  · simp only [kept]
  · intro entry mem same
    exact other (judged.names.subset (List.mem_map.mpr ⟨entry, kept.mp mem, same⟩))

theorem optionalMember {name : String} {content : Option (Except ValueFault Json)}
    (written : Wire.optionalMember name content = .ok members) (absent : content = none → P)
    (present : ∀ j, content = some (.ok j) → (j.Untagged ↔ P)) : Judged [name] members P := by
  unfold Wire.optionalMember at written
  split at written
  · cases written
    exact missing name (absent rfl)
  · obtain ⟨j, rfl, rfl⟩ := map_eq_ok.mp written
    exact member name (present j rfl)

private theorem clauses {filters : List FieldFilter}
    (written : Wire.optionalMember "where"
      (if filters.isEmpty then none else some (encodeFilters filters)) = .ok members) :
    Judged ["where"] members (∀ filter ∈ filters, filter.operand.isPlain) := by
  cases filters with
  | nil => exact optionalMember written (fun _ => List.forall_mem_nil _) fun _ present => nomatch present
  | cons filter filters =>
    exact optionalMember written (fun absent => nomatch absent) fun _ present =>
      untagged_encodeFilters (Option.some.inj present)

private theorem cursor {name : String} {start : Bool} {bound : Option Bound}
    (written : Wire.optionalMember name (bound.map (encodeCursor start)) = .ok members) :
    Judged [name] members (∀ v ∈ bound.toList.flatMap Bound.values, v.isPlain) := by
  cases bound with
  | none => exact optionalMember written (fun _ => List.forall_mem_nil _) fun _ present => nomatch present
  | some bound =>
    rw [Option.toList_some, List.flatMap_singleton]
    exact optionalMember written (fun absent => nomatch absent) fun _ present =>
      untagged_encodeCursor (Option.some.inj present)

private theorem orders (reversed : Bool) (orders : List OrderBy) :
    Judged ["orderBy"] (if orders.isEmpty then []
      else [("orderBy", Json.array (orders.map (encodeOrder reversed)))]) True := by
  split
  · exact missing _ trivial
  · refine member _ (iff_true_intro (untagged_array.mpr ?_))
    exact List.forall_mem_map.mpr fun order _ => untagged_encodeOrder reversed order

private theorem limit (limit : Option Nat) :
    Judged ["limit"] (limit.toList.map fun (n : Nat) => ("limit", Json.int (n : Nat))) True := by
  cases limit with
  | none => exact missing _ trivial
  | some n => exact member _ (iff_true_intro (untagged_of_isScalar rfl))

end Judged

variable {query : Query}

/-- Clauses and cursors carry the values of a query, and the rest of it carries none. A query that counts
from the end is sent with its cursors swapped. -/
theorem judged_structuredMembers {members : List (String × Json)}
    (written : structuredMembers query = .ok members) :
    Judged ["from", "where", "orderBy", "limit", "startAt", "endAt"] members
      (∀ v ∈ query.plan.values, v.isPlain) := by
  obtain ⟨clauses, writtenClauses, written⟩ := bind_eq_ok.mp written
  obtain ⟨start, writtenStart, written⟩ := bind_eq_ok.mp written
  obtain ⟨stop, writtenStop, written⟩ := bind_eq_ok.mp written
  cases written
  have source : Judged ["from"]
      [("from", .array [.object [("collectionId", .string query.collectionId)]])] True :=
    .member _ <| iff_true_intro <| untagged_array.mpr <| List.forall_mem_singleton.mpr <|
      (untagged_single (by decide)).mpr (untagged_string _)
  have all := ((((source.append (.clauses writtenClauses)).append
    (.orders query.plan.keepsLast query.plan.orders)).append (.limit query.plan.limit)).append
    (.cursor writtenStart)).append (.cursor writtenStop)
  refine ⟨all.names, all.untagged.trans ?_⟩
  rw [QueryPlan.values, QueryPlan.bounds, List.flatMap_append, List.forall_mem_append,
    List.forall_mem_append, List.forall_mem_map]
  simp only [and_true, true_and, and_assoc]
  cases query.plan.keepsLast with
  | false => exact Iff.rfl
  | true => exact and_congr_right fun _ => and_comm

private theorem untagged_encodeStructuredQuery {structured : Json}
    (written : encodeStructuredQuery query = .ok structured) :
    structured.Untagged ↔ ∀ v ∈ query.plan.values, v.isPlain := by
  obtain ⟨-, -, written⟩ := bind_eq_ok.mp written
  obtain ⟨-, written⟩ := of_guard written
  obtain ⟨members, writtenMembers, written⟩ := bind_eq_ok.mp written
  cases written
  exact (judged_structuredMembers (mapError_eq_ok.mp writtenMembers)).ofMembers (by decide) (by decide)

/-- What stands around the structured query in a request has no tag. -/
theorem untagged_encodeQueryRequest {request : Json} (written : encodeQueryRequest query = .ok request) :
    request.Untagged ↔ ∀ v ∈ query.plan.values, v.isPlain := by
  obtain ⟨structured, writtenStructured, written⟩ := bind_eq_ok.mp written
  cases written
  have parent : Judged ["parent"] [("parent", .string query.collection.parent.text)] True :=
    .member _ (iff_true_intro (untagged_string _))
  have body := Judged.member "structuredQuery" (untagged_encodeStructuredQuery writtenStructured)
  exact ((parent.append body).ofMembers (by decide) (by decide)).trans (and_iff_right trivial)

end Wire

namespace Query

/-- No marker is an operand or a value of a cursor of a query, but inside arrays and maps markers get
through: a query is free of markers at every depth exactly if everything it was handed is, and what is
sent for it is free of tagged records exactly then. -/
theorem markers_only_inside_values {path : String} {narrowings : List Narrowing} {query next : Query}
    (opened : ofCollection path = .ok query) (narrowed : query.narrowEach? narrowings = .ok next) :
    (∀ v ∈ next.plan.values, v.isSentinel = false) ∧
      ((∀ v ∈ next.plan.values, ∀ w : Value, w.Inside v → w.isSentinel = false) ↔
        ∀ v ∈ (Handed.nothing.afterAll narrowings).values, ∀ w : Value, w.Inside v →
          w.isSentinel = false) ∧
      ∀ request, Wire.encodeQueryRequest next = .ok request →
        (request.Untagged ↔ ∀ v ∈ next.plan.values, ∀ w : Value, w.Inside v → w.isSentinel = false) := by
  have holds := (holds_ofCollection opened).narrowEach? narrowed
  simp only [← Value.isPlain_iff_inside]
  exact ⟨holds.isSentinel_of_mem_values, holds.forall_values_iff,
    fun request => Wire.untagged_encodeQueryRequest⟩

/-- Calls that hand over markers in arrays: as an operand, in a list of a predicate and in a cursor. -/
def markedCalls : List Narrowing :=
  [.call (.field "tags" .equal (.array [.deleteField])),
    .call (.matching (.contains (.list [.constant .serverTimestamp]) (.field "kind"))),
    .call (.orderBy "width" .ascending),
    .call (.cursor .startAt [.array [.serverTimestamp]])]

/-- The rooms that those calls select. -/
def markedRooms : Query where
  collection := ⟨["rooms"]⟩
  plan := {
    filters := [
      ⟨⟨["tags"], by decide, by decide⟩, .equal, .array [.deleteField]⟩,
      ⟨⟨["kind"], by decide, by decide⟩, .isIn, .array [.serverTimestamp]⟩]
    orders := [⟨⟨["width"], by decide, by decide⟩, .ascending⟩]
    limit := none, limitSide := .first, offset := none
    start := some ⟨[.array [.serverTimestamp]], true⟩
    stop := none }

theorem markers_only_inside_values_markedRooms :
    ofCollection "rooms" = .ok allRooms ∧ allRooms.narrowEach? markedCalls = .ok markedRooms ∧
      (∀ v ∈ markedRooms.plan.values, v.isSentinel = false) ∧
      ¬ (∀ v ∈ markedRooms.plan.values, ∀ w : Value, w.Inside v → w.isSentinel = false) ∧
      ∃ request, Wire.encodeQueryRequest markedRooms = .ok request ∧ ¬ request.Untagged := by
  have opened : ofCollection "rooms" = .ok allRooms := by rfl
  have narrowed : allRooms.narrowEach? markedCalls = .ok markedRooms := by rfl
  obtain ⟨request, sent⟩ : ∃ request, Wire.encodeQueryRequest markedRooms = .ok request := ⟨_, rfl⟩
  obtain ⟨single, -, tagged⟩ := markers_only_inside_values opened narrowed
  have marked : ¬ ∀ v ∈ markedRooms.plan.values, ∀ w : Value, w.Inside v → w.isSentinel = false :=
    fun free => Bool.noConfusion <|
      free _ List.mem_cons_self .deleteField (.element List.mem_cons_self .itself)
  exact ⟨opened, narrowed, single, marked, request, sent,
    fun free => marked ((tagged request sent).mp free)⟩

theorem not_free_of_markers :
    (¬ ∀ (path : String) (narrowings : List Narrowing) (query next : Query),
      ofCollection path = .ok query → query.narrowEach? narrowings = .ok next →
        ∀ v ∈ next.plan.values, ∀ w : Value, w.Inside v → w.isSentinel = false) ∧
      ¬ ∀ (path : String) (narrowings : List Narrowing) (query next : Query) (request : Json),
        ofCollection path = .ok query → query.narrowEach? narrowings = .ok next →
          Wire.encodeQueryRequest next = .ok request → request.Untagged := by
  have opened : ofCollection "rooms" = .ok allRooms := by rfl
  have narrowed : allRooms.narrowEach? markedCalls = .ok markedRooms := by rfl
  obtain ⟨request, sent⟩ : ∃ request, Wire.encodeQueryRequest markedRooms = .ok request := ⟨_, rfl⟩
  constructor
  · intro free
    exact Bool.noConfusion <| free _ _ _ _ opened narrowed _ List.mem_cons_self .deleteField
      (.element List.mem_cons_self .itself)
  · intro free
    have plain := (Wire.untagged_encodeQueryRequest sent).mp (free _ _ _ _ _ opened narrowed sent)
    exact Bool.noConfusion (plain _ List.mem_cons_self)

end Query

end DocumentStore
