import DocumentStore.Proofs.Query.Built
import DocumentStore.Proofs.Query.Position
import Mathlib

/-! # What a query returns

The matching documents are said one by one, by what a document has to be; the result is the one strictly
increasing list of them, cut at the offset and the limit. -/

namespace DocumentStore

/-- What a document has to be for a query to be about it. -/
structure Query.Matches (query : Query) (s : Snapshot) : Prop where
  present : s.fields? ≠ none
  collection : s.key.collection = query.collection
  filters : ∀ filter ∈ query.plan.filters,
    ∃ v, s.fieldValue? filter.field = some v ∧ filter.operator.holds v filter.operand
  ordered : ∀ order ∈ query.plan.orders, ∃ v, s.fieldValue? order.field = some v
  /-- The start cursor comes before the document, or is inclusive and at its position. -/
  start : ∀ bound, query.plan.start = some bound →
    bound.Leads query.plan.orders s ∨ bound.inclusive ∧ bound.Meets query.plan.orders s
  /-- The end cursor comes after the document, or is inclusive and at its position. -/
  stop : ∀ bound, query.plan.stop = some bound →
    bound.Follows query.plan.orders s ∨ bound.inclusive ∧ bound.Meets query.plan.orders s

/-- A list is what remains of another when the offset is skipped and the limit, if there is one, keeps
documents from its side. -/
def QueryPlan.Cuts {α : Type} (plan : QueryPlan) (documents result : List α) : Prop :=
  ∃ skipped rest, documents = skipped ++ rest ∧
    skipped.length = min (plan.offset.getD 0) documents.length ∧
    match plan.limit, plan.limitSide with
    | none, _ => result = rest
    | some limit, .first => result <+: rest ∧ result.length = min limit rest.length
    | some limit, .last => result <:+ rest ∧ result.length = min limit rest.length

private theorem QueryPlan.cuts_cut {α : Type} (plan : QueryPlan) (documents : List α) :
    plan.Cuts documents (plan.cut documents) := by
  refine ⟨documents.take (plan.offset.getD 0), documents.drop (plan.offset.getD 0),
    (List.take_append_drop _ _).symm, List.length_take, ?_⟩
  unfold cut
  cases plan.limit with
  | none => rfl
  | some limit =>
    cases plan.limitSide with
    | first => exact ⟨List.take_prefix _ _, List.length_take⟩
    | last => exact ⟨List.drop_suffix _ _, by simp only [List.length_drop]; omega⟩

namespace FieldFilter

theorem accepts_iff {filter : FieldFilter} {s : Snapshot} :
    filter.accepts s ↔
      ∃ v, s.fieldValue? filter.field = some v ∧ filter.operator.holds v filter.operand := by
  unfold accepts
  cases s.fieldValue? filter.field <;> simp

end FieldFilter

namespace Query

variable {query : Query} {s : Snapshot} {documents permuted : List Snapshot}

theorem selects_iff : query.selects s ↔
    s.fields? ≠ none ∧ s.key.collection = query.collection ∧
      (∀ filter ∈ query.plan.filters, filter.accepts s) ∧
      ∀ order ∈ query.plan.orders, ∃ v, s.fieldValue? order.field = some v := by
  simp [selects, Snapshot.exists?, and_assoc, Option.isSome_iff_exists,
    Option.ne_none_iff_exists']

theorem withinBounds_iff : query.withinBounds s ↔
    (∀ bound, query.plan.start = some bound → bound.admitsFrom query.plan.orders s) ∧
      ∀ bound, query.plan.stop = some bound → bound.admitsUpTo query.plan.orders s := by
  simp [withinBounds, Option.all_eq_true]

/-- The matching documents are those that the passes of a run leave over. -/
theorem matches_iff : query.Matches s ↔ query.selects s ∧ query.withinBounds s := by
  simp only [selects_iff, withinBounds_iff, FieldFilter.accepts_iff, Bound.admitsFrom_iff,
    Bound.admitsUpTo_iff]
  constructor
  · rintro ⟨present, collection, filters, ordered, start, stop⟩
    exact ⟨⟨present, collection, filters, ordered⟩, start, stop⟩
  · rintro ⟨⟨present, collection, filters, ordered⟩, start, stop⟩
    exact ⟨present, collection, filters, ordered, start, stop⟩

/-- The matching documents in the order of the query, before offset and limit. -/
def matching (query : Query) (documents : List Snapshot) : List Snapshot :=
  ((documents.filter query.selects).mergeSort
    fun s t => compareDocuments query.plan.orders s t != .gt).filter query.withinBounds

theorem run_eq (valid : query.plan.validate = .ok ()) (documents : List Snapshot) :
    query.run documents = .ok (query.plan.cut (query.matching documents)) := by
  unfold run
  rw [valid]
  rfl

theorem matching_perm (query : Query) (documents : List Snapshot) :
    (query.matching documents).Perm
      (documents.filter fun s => query.withinBounds s && query.selects s) := by
  rw [← List.filter_filter]
  exact (List.mergeSort_perm _ _).filter _

theorem mem_matching : s ∈ query.matching documents ↔ s ∈ documents ∧ query.Matches s := by
  rw [(query.matching_perm documents).mem_iff, List.mem_filter, matches_iff, Bool.and_eq_true,
    and_comm (a := query.selects s)]

section Distinct

variable (exact : ∀ s ∈ documents, s.isExact) (distinct : (documents.map Snapshot.key).Nodup)

include exact distinct

/-- Distinct documents with exact numbers are listed strictly. -/
theorem pairwise_matching : (query.matching documents).Pairwise
    fun s t => compareDocuments query.plan.orders s t = .lt := by
  have mem {s : Snapshot} (hs : s ∈ documents.filter query.selects) : s.isExact :=
    exact s (List.mem_filter.mp hs).1
  have noTie : (documents.filter query.selects).Pairwise
      fun s t => compareDocuments query.plan.orders s t ≠ .eq :=
    ((List.pairwise_map.mp distinct).filter _).imp fun ne tie =>
      ne (key_eq_of_compareDocuments tie)
  refine (pairwise_lt_mergeSort (fun s hs t ht u hu => ?_)
    (compareDocuments_swap query.plan.orders) noTie).filter _
  exact compareDocuments_composes _ (mem hs) (mem ht) (mem hu)

theorem matching_eq_of_perm (perm : permuted.Perm documents) :
    query.matching permuted = query.matching documents := by
  have exact' : ∀ s ∈ permuted, s.isExact := fun s hs => exact s (perm.mem_iff.mp hs)
  have distinct' : (permuted.map Snapshot.key).Nodup := (perm.map _).nodup_iff.mpr distinct
  refine eq_of_pairwise_lt (compareDocuments_swap query.plan.orders)
    (pairwise_matching exact' distinct') (pairwise_matching exact distinct) ?_
  exact (query.matching_perm permuted).trans
    ((perm.filter _).trans (query.matching_perm documents).symm)

end Distinct

/-- A query that can be built returns the matching documents in strictly increasing order, cut at its
offset and its limit, and returns the same for the documents in any other order. -/
theorem run_lists_matches_in_order {query : Query} {documents : List Snapshot}
    (built : query.Built) (distinct : (documents.map Snapshot.key).Nodup)
    (exact : ∀ s ∈ documents, s.isExact) :
    ∃ matching result : List Snapshot,
      (∀ s, s ∈ matching ↔ s ∈ documents ∧ query.Matches s) ∧
      matching.Pairwise (Precedes query.plan.orders) ∧
      query.plan.Cuts matching result ∧
      query.run documents = .ok result ∧
      ∀ permuted : List Snapshot, permuted.Perm documents → query.run permuted = .ok result := by
  refine ⟨query.matching documents, query.plan.cut (query.matching documents),
    fun s => mem_matching, ?_, query.plan.cuts_cut _, run_eq built.validate documents, ?_⟩
  · exact (pairwise_matching exact distinct).imp compareDocuments_eq_lt.mp
  · intro permuted perm
    rw [run_eq built.validate, matching_eq_of_perm exact distinct perm]

/-- Rooms after the fourth by falling size, of which the last two are kept. -/
def smallRooms : Query where
  collection := ⟨["rooms"]⟩
  plan := { QueryPlan.empty with
    filters := [⟨⟨["size"], by decide, by decide⟩, .lessThan, .integer 5⟩]
    orders := [⟨⟨["size"], by decide, by decide⟩, .descending⟩]
    limit := some 2
    limitSide := .last
    start := some ⟨[.integer 4], false⟩ }

theorem smallRooms_built : smallRooms.Built := by
  have opened : ofCollection "rooms" = .ok ⟨⟨["rooms"]⟩, QueryPlan.empty⟩ := by cbv
  have applied : applyAll ⟨⟨["rooms"]⟩, QueryPlan.empty⟩ [.field "size" .lessThan (.integer 5),
      .orderBy "size" .descending, .cursor .startAfter [.integer 4], .limitToLast 2]
      = .ok smallRooms := by cbv
  exact (Built.collection opened).applyAll applied

def sizedRoom (id : String) (size : Value) : Snapshot where
  key := ⟨⟨["rooms", id]⟩, Nat.le_refl 2, Nat.mod_self 2⟩
  fields? := some [("size", size)]

/-- Three rooms, of which the last is too large. -/
def threeRooms : List Snapshot :=
  [sizedRoom "attic" (.integer 2), sizedRoom "cellar" (.integer 3), sizedRoom "hall" (.integer 9)]

theorem run_smallRooms_threeRooms :
    let result := [sizedRoom "cellar" (.integer 3), sizedRoom "attic" (.integer 2)]
    smallRooms.Built ∧ (threeRooms.map Snapshot.key).Nodup ∧ (∀ s ∈ threeRooms, s.isExact) ∧
      (∃ matching : List Snapshot,
        (∀ s, s ∈ matching ↔ s ∈ threeRooms ∧ smallRooms.Matches s) ∧
        matching.Pairwise (Precedes smallRooms.plan.orders) ∧
        smallRooms.plan.Cuts matching result) ∧
      smallRooms.run threeRooms = .ok result ∧
      ∀ permuted : List Snapshot,
        permuted.Perm threeRooms → smallRooms.run permuted = .ok result := by
  intro result
  have distinct : (threeRooms.map Snapshot.key).Nodup := by decide
  have exact : ∀ s ∈ threeRooms, s.isExact := by decide
  have listed : smallRooms.run threeRooms = .ok result := by cbv
  obtain ⟨matching, found, mem, ordered, cuts, run, permuted⟩ :=
    run_lists_matches_in_order smallRooms_built distinct exact
  obtain rfl : found = result := Except.ok.inj (run.symm.trans listed)
  exact ⟨smallRooms_built, distinct, exact, ⟨matching, mem, ordered, cuts⟩, run, permuted⟩

end Query

end DocumentStore
