import DocumentStore.Proofs.Query.Built
import DocumentStore.Proofs.Query.Execution

/-! # Cutting a result at a position

A cursor keeps the documents on one side of a position in the order of a query. Along the result of a query
the comparison with a position does not fall: the documents before the position come first, then those at
it, then those after it. So the methods that cut off the end keep a front of the result, and each of them
leaves out what one of the other methods keeps. -/

namespace DocumentStore

namespace CursorMethod

/-- Tells whether a method keeps the documents that compare in some way with its position. -/
def keeps : CursorMethod → Ordering → Bool
  | .startAt, o => o != .lt
  | .startAfter, o => o == .gt
  | .endAt, o => o != .gt
  | .endBefore, o => o == .lt

/-- The method that keeps what a method leaves out. -/
def opposite : CursorMethod → CursorMethod
  | .startAt => .endBefore
  | .startAfter => .endAt
  | .endAt => .startAfter
  | .endBefore => .startAt

private theorem keeps_opposite (method : CursorMethod) (o : Ordering) :
    method.opposite.keeps o = !method.keeps o := by
  cases method <;> cases o <;> rfl

end CursorMethod

/-- The cursor of a plan on the side of a method. -/
def QueryPlan.side (plan : QueryPlan) (method : CursorMethod) : Option Bound :=
  if method.isStart then plan.start else plan.stop

namespace OrderBy

variable {s t : Snapshot} {v : Value}

private theorem isExact_cursorValue (order : OrderBy) (s : Snapshot) (exact : v.isExact) :
    (order.cursorValue s v).isExact := by
  unfold cursorValue
  split
  · split <;> rfl
  · exact exact

theorem cursorValue_eq (order : OrderBy) (inside : s.key.collection = t.key.collection) (v : Value) :
    order.cursorValue s v = order.cursorValue t v := by
  unfold cursorValue
  rw [inside]

private theorem compareToCursor_composes (order : OrderBy)
    (inside : s.key.collection = t.key.collection)
    (hs : s.isExact) (ht : t.isExact) (hv : v.isExact) :
    Composes (order.compare s t) (order.compareToCursor t v) (order.compareToCursor s v) := by
  rw [compareToCursor, compareToCursor, order.cursorValue_eq inside]
  exact order.direction.apply_composes <| Value.order_composes _ _ _ (order.isExact_value hs)
    (order.isExact_value ht) (order.isExact_cursorValue t hv)

end OrderBy

section Position

variable {orders : List OrderBy} {values : List Value} {s t : Snapshot}

/-- Two documents compare with a position as they compare with one another in the fields for which the
position has values. -/
theorem compareToBound_composes (orders : List OrderBy) (inside : s.key.collection = t.key.collection)
    (hs : s.isExact) (ht : t.isExact) (hvalues : ∀ v ∈ values, v.isExact) :
    Composes (compareByChain (orders.take values.length) s t) (compareToBound orders values t)
      (compareToBound orders values s) := by
  induction orders generalizing values with
  | nil =>
    simp only [List.take_nil, compareByChain, compareToBound]
    exact Composes.eq_left _
  | cons order orders ih =>
    cases values with
    | nil =>
      simp only [List.length_nil, List.take_zero, compareByChain, compareToBound]
      exact Composes.eq_left _
    | cons v values =>
      obtain ⟨first, others⟩ := List.forall_mem_cons.mp hvalues
      exact (order.compareToCursor_composes inside hs ht first).andThen (ih others)

theorem compareByChain_append (first second : List OrderBy) (s t : Snapshot) :
    compareByChain (first ++ second) s t
      = (compareByChain first s t).then (compareByChain second s t) := by
  induction first with
  | nil => rfl
  | cons order first ih => rw [List.cons_append, compareByChain, compareByChain, ih, Ordering.then_assoc]

theorem isLE_compareByChain_take (before : compareDocuments orders s t = .lt) (n : Nat) :
    (compareByChain (orders.take n) s t).isLE := by
  rw [compareDocuments, ← List.take_append_drop n orders, compareByChain_append] at before
  cases first : compareByChain (orders.take n) s t with
  | gt =>
    rw [first] at before
    cases before
  | _ => rfl

theorem keeps_of_before {method : CursorMethod} (front : method.isStart = false)
    (inside : s.key.collection = t.key.collection) (hs : s.isExact) (ht : t.isExact)
    (hvalues : ∀ v ∈ values, v.isExact) (before : compareDocuments orders s t = .lt)
    (kept : method.keeps (compareToBound orders values t)) :
    method.keeps (compareToBound orders values s) := by
  have composes := compareToBound_composes orders inside hs ht hvalues
  have first := isLE_compareByChain_take before values.length
  cases method with
  | endBefore => exact beq_iff_eq.mpr (composes.lt_of_isLE first (beq_iff_eq.mp kept))
  | endAt =>
    have upTo := Ordering.isLE_iff_ne_gt.mpr (bne_iff_ne.mp kept)
    exact bne_iff_ne.mpr (Ordering.isLE_iff_ne_gt.mp (composes.isLE first upTo))
  | startAt => cases front
  | startAfter => cases front

end Position

namespace Query

variable {query cut : Query} {method : CursorMethod} {values : List Value} {documents : List Snapshot}

theorem apply_cursor_eq_ok : query.apply (.cursor method values) = .ok cut ↔
    cut = query.withBound method ⟨values, method.inclusive⟩ ∧ query.plan.Positions values := by
  constructor
  · intro applied
    obtain ⟨bound, made, applied⟩ := bind_eq_ok.mp applied
    obtain ⟨rfl, positions⟩ := boundOf_eq_ok.mp (mapError_eq_ok.mp made)
    cases applied
    exact ⟨rfl, positions⟩
  · rintro ⟨rfl, positions⟩
    rw [apply, boundOf_eq_ok.mpr ⟨rfl, positions⟩]
    rfl

/-- A cursor on a side that has none keeps the documents that its method keeps. -/
theorem matching_withBound (method : CursorMethod) (free : query.plan.side method = none)
    (values : List Value) (documents : List Snapshot) :
    (query.withBound method ⟨values, method.inclusive⟩).matching documents
      = (query.matching documents).filter fun s =>
          method.keeps (compareToBound query.plan.orders values s) := by
  unfold matching
  rw [List.filter_filter]
  cases method
  all_goals
    refine List.filter_congr fun s _ => ?_
    simp only [QueryPlan.side, CursorMethod.isStart, if_true, Bool.false_eq_true, if_false] at free
    simp only [withinBounds, withBound, CursorMethod.isStart, CursorMethod.inclusive, if_true,
      Bool.false_eq_true, if_false, free, Option.all_some, Option.all_none, Bool.true_and,
      Bool.and_true, Bound.admitsFrom, Bound.admitsUpTo, CursorMethod.keeps]
    cases compareToBound query.plan.orders values s <;> simp

/-- A query that returns its whole result: it has no cursor, no offset and no limit. -/
structure Uncut (query : Query) : Prop where
  start : query.plan.start = none
  stop : query.plan.stop = none
  offset : query.plan.offset = none
  limit : query.plan.limit = none

namespace Uncut

variable (uncut : query.Uncut)

include uncut

private theorem free (method : CursorMethod) : query.plan.side method = none := by
  unfold QueryPlan.side
  split
  · exact uncut.start
  · exact uncut.stop

private theorem run_eq (ordered : query.plan.orders ≠ []) (documents : List Snapshot) :
    query.run documents = .ok (query.matching documents) := by
  have valid : query.plan.validate = .ok () :=
    QueryPlan.validate_of_ordered ordered (by simp [QueryPlan.bounds, uncut.start, uncut.stop])
  rw [Query.run_eq valid, QueryPlan.cut, uncut.limit, uncut.offset]
  rfl

private theorem run_withBound (positions : query.plan.Positions values) (method : CursorMethod)
    (documents : List Snapshot) :
    (query.withBound method ⟨values, method.inclusive⟩).run documents
      = .ok ((query.matching documents).filter fun s =>
          method.keeps (compareToBound query.plan.orders values s)) := by
  have orders : (query.withBound method ⟨values, method.inclusive⟩).plan.orders = query.plan.orders := by
    cases method <;> rfl
  have bounds : (query.withBound method ⟨values, method.inclusive⟩).plan.bounds
      = [⟨values, method.inclusive⟩] := by
    cases method <;> simp [QueryPlan.bounds, withBound, CursorMethod.isStart, uncut.start, uncut.stop]
  have valid : (query.withBound method ⟨values, method.inclusive⟩).plan.validate = .ok () := by
    refine QueryPlan.validate_of_ordered (orders ▸ positions.ordered) ?_
    rw [orders, bounds]
    exact List.forall_mem_singleton.mpr positions.fits
  have whole (found : List Snapshot) :
      (query.withBound method ⟨values, method.inclusive⟩).plan.cut found = found := by
    cases method <;>
      simp [QueryPlan.cut, withBound, CursorMethod.isStart, uncut.limit, uncut.offset]
  rw [Query.run_eq valid, whole, matching_withBound method (uncut.free method)]

end Uncut

/-- A method that cuts off the end keeps a front of the result, and its opposite keeps the rest. -/
theorem matching_cut_in_two (front : method.isStart = false)
    (distinct : (documents.map Snapshot.key).Nodup) (exact : ∀ s ∈ documents, s.isExact)
    (exactValues : ∀ v ∈ values, v.isExact) :
    ((query.matching documents).filter fun s =>
        method.keeps (compareToBound query.plan.orders values s)) ++
      ((query.matching documents).filter fun s =>
        method.opposite.keeps (compareToBound query.plan.orders values s))
      = query.matching documents := by
  refine filter_append_filter_of_falling (fun s _ => method.keeps_opposite _) ?_
  refine (pairwise_matching exact distinct).imp_of_mem fun {s t} hs ht before => ?_
  obtain ⟨ms, hs⟩ := mem_matching.mp hs
  obtain ⟨mt, ht⟩ := mem_matching.mp ht
  exact keeps_of_before front (hs.collection.trans ht.collection.symm) (exact s ms) (exact t mt)
    exactValues before

theorem nodup_matching (query : Query) (distinct : (documents.map Snapshot.key).Nodup) :
    ((query.matching documents).map Snapshot.key).Nodup := by
  rw [((query.matching_perm documents).map _).nodup_iff]
  exact (List.filter_sublist.map _).nodup distinct

/-- What a query returns once a cursor method has cut it. -/
def CutBy (query : Query) (method : CursorMethod) (values : List Value)
    (documents result : List Snapshot) : Prop :=
  ∃ cut, query.apply (.cursor method values) = .ok cut ∧ cut.run documents = .ok result

private theorem CutBy.unique {result other : List Snapshot}
    (one : query.CutBy method values documents result)
    (two : query.CutBy method values documents other) : result = other := by
  obtain ⟨cut, accepted, run⟩ := one
  obtain ⟨cut', accepted', run'⟩ := two
  obtain rfl := Except.ok.inj (accepted.symm.trans accepted')
  exact Except.ok.inj (run.symm.trans run')

/-- Values that any cursor method of a query takes are taken by all of them, and they cut the result in two
in either way: into the documents before the position and those from it on, and into the documents up to the
position and those after it. Put together again the two parts are the whole result, which has every
document once. -/
theorem cursors_cut_in_two (uncut : query.Uncut)
    (accepted : query.apply (.cursor method values) = .ok cut)
    (distinct : (documents.map Snapshot.key).Nodup) (exact : ∀ s ∈ documents, s.isExact)
    (exactValues : ∀ v ∈ values, v.isExact) :
    ∃ whole before onward upTo after,
      query.run documents = .ok whole ∧ (whole.map Snapshot.key).Nodup ∧
      query.CutBy .endBefore values documents before ∧
      query.CutBy .startAt values documents onward ∧ before ++ onward = whole ∧
      query.CutBy .endAt values documents upTo ∧
      query.CutBy .startAfter values documents after ∧ upTo ++ after = whole := by
  obtain ⟨-, positions⟩ := apply_cursor_eq_ok.mp accepted
  have cutBy (method : CursorMethod) : query.CutBy method values documents _ :=
    ⟨_, apply_cursor_eq_ok.mpr ⟨rfl, positions⟩, uncut.run_withBound positions method documents⟩
  exact ⟨_, _, _, _, _, uncut.run_eq positions.ordered documents, nodup_matching query distinct,
    cutBy .endBefore, cutBy .startAt, matching_cut_in_two rfl distinct exact exactValues,
    cutBy .endAt, cutBy .startAfter, matching_cut_in_two rfl distinct exact exactValues⟩

/-- Rooms by falling size, and rooms of one size by their names. -/
def roomsBySize : Query where
  collection := ⟨["rooms"]⟩
  plan := { QueryPlan.empty with
    orders := smallRooms.plan.orders ++ [⟨.documentId, .ascending⟩] }

/-- Rooms of which two are of one size, and one has no number for it. -/
def unevenRooms : List Snapshot :=
  [sizedRoom "attic" (.double .nan), sizedRoom "cellar" (.integer 3), sizedRoom "hall" (.integer 9),
    sizedRoom "porch" (.double (.ofInt 3))]

theorem cursors_cut_unevenRooms :
    let position := [Value.integer 3, .string "cellar"]
    let hall := sizedRoom "hall" (.integer 9)
    let cellar := sizedRoom "cellar" (.integer 3)
    let porch := sizedRoom "porch" (.double (.ofInt 3))
    let attic := sizedRoom "attic" (.double .nan)
    roomsBySize.Uncut ∧ (∃ cut, roomsBySize.apply (.cursor .startAt position) = .ok cut) ∧
      (unevenRooms.map Snapshot.key).Nodup ∧ (∀ s ∈ unevenRooms, s.isExact) ∧
      (∀ v ∈ position, v.isExact) ∧
      roomsBySize.run unevenRooms = .ok [hall, cellar, porch, attic] ∧
      roomsBySize.CutBy .endBefore position unevenRooms [hall] ∧
      roomsBySize.CutBy .startAt position unevenRooms [cellar, porch, attic] ∧
      roomsBySize.CutBy .endAt position unevenRooms [hall, cellar] ∧
      roomsBySize.CutBy .startAfter position unevenRooms [porch, attic] := by
  intro position hall cellar porch attic
  have uncut : roomsBySize.Uncut := ⟨rfl, rfl, rfl, rfl⟩
  have accepted : roomsBySize.apply (.cursor .startAt position)
      = .ok (roomsBySize.withBound .startAt ⟨position, true⟩) := rfl
  have distinct : (unevenRooms.map Snapshot.key).Nodup := by decide
  have exact : ∀ s ∈ unevenRooms, s.isExact := by decide
  have exactValues : ∀ v ∈ position, v.isExact := by decide
  have listed : roomsBySize.run unevenRooms = .ok [hall, cellar, porch, attic] := by cbv
  have front : roomsBySize.CutBy .endBefore position unevenRooms [hall] := ⟨_, rfl, by cbv⟩
  have frontWith : roomsBySize.CutBy .endAt position unevenRooms [hall, cellar] := ⟨_, rfl, by cbv⟩
  obtain ⟨whole, before, onward, upTo, after, run, -, isBefore, isOnward, first, isUpTo, isAfter, second⟩ :=
    cursors_cut_in_two uncut accepted distinct exact exactValues
  obtain rfl : whole = [hall, cellar, porch, attic] := Except.ok.inj (run.symm.trans listed)
  obtain rfl := isBefore.unique front
  obtain rfl := isUpTo.unique frontWith
  obtain rfl := List.append_cancel_left first
  obtain rfl := List.append_cancel_left second
  exact ⟨uncut, ⟨_, accepted⟩, distinct, exact, exactValues, run, isBefore, isOnward, isUpTo, isAfter⟩

end Query

end DocumentStore
