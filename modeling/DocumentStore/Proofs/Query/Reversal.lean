import DocumentStore.Proofs.Query.Execution

/-! # Counting from the other end

A limit from the end is the same as a limit from the front of the opposite order. The opposite order
has every direction flipped and the two cursors exchanged; ties are broken by the path in either order,
so the two results agree only where no two documents tie. -/

namespace DocumentStore

namespace OrderBy

/-- The same field in the opposite direction. -/
def flipped (order : OrderBy) : OrderBy := { order with direction := order.direction.flipped }

private theorem compare_flipped (order : OrderBy) (s t : Snapshot) :
    order.flipped.compare s t = (order.compare s t).swap :=
  order.direction.apply_flipped _

private theorem compareToCursor_flipped (order : OrderBy) (s : Snapshot) (v : Value) :
    order.flipped.compareToCursor s v = (order.compareToCursor s v).swap :=
  order.direction.apply_flipped _

end OrderBy

namespace QueryPlan

/-- The plan that counts from the front what a plan counts from the end. -/
def reversed (plan : QueryPlan) : QueryPlan :=
  { plan with
    orders := plan.orders.map OrderBy.flipped
    limitSide := .first
    start := plan.stop
    stop := plan.start }

/-- The plan that counts from the front, in the opposite order if the original counts from the end. -/
def forward (plan : QueryPlan) : QueryPlan :=
  if plan.keepsLast then plan.reversed else { plan with limitSide := .first }

end QueryPlan

section Flipped

variable (orders : List OrderBy) (s t : Snapshot)

private theorem compareByChain_flipped :
    compareByChain (orders.map OrderBy.flipped) s t = (compareByChain orders s t).swap := by
  induction orders with
  | nil => rfl
  | cons order orders ih =>
    rw [List.map_cons, compareByChain, compareByChain, Ordering.swap_then, ih,
      order.compare_flipped]

theorem compareToBound_flipped (values : List Value) :
    compareToBound (orders.map OrderBy.flipped) values s = (compareToBound orders values s).swap := by
  induction orders generalizing values with
  | nil => rfl
  | cons order orders ih =>
    cases values with
    | nil => rfl
    | cons v values =>
      rw [List.map_cons, compareToBound, compareToBound, Ordering.swap_then, ih,
        order.compareToCursor_flipped]

variable (bound : Bound)

theorem Bound.admitsFrom_flipped :
    bound.admitsFrom (orders.map OrderBy.flipped) s = bound.admitsUpTo orders s := by
  rw [admitsFrom, admitsUpTo, compareToBound_flipped]
  cases compareToBound orders bound.values s <;> rfl

private theorem Bound.admitsUpTo_flipped :
    bound.admitsUpTo (orders.map OrderBy.flipped) s = bound.admitsFrom orders s := by
  rw [admitsFrom, admitsUpTo, compareToBound_flipped]
  cases compareToBound orders bound.values s <;> rfl

end Flipped

namespace Query

variable {query : Query} {documents : List Snapshot}

/-- The query that counts from the front what a query counts from the end. -/
def reversed (query : Query) : Query := { query with plan := query.plan.reversed }

/-- The query with the plan that counts from the front. -/
def forward (query : Query) : Query := { query with plan := query.plan.forward }

private theorem selects_reversed (query : Query) (s : Snapshot) :
    query.reversed.selects s = query.selects s := by
  simp only [selects, reversed, QueryPlan.reversed, List.all_map]
  rfl

private theorem withinBounds_reversed (query : Query) (s : Snapshot) :
    query.reversed.withinBounds s = query.withinBounds s := by
  simp only [withinBounds, reversed, QueryPlan.reversed, Bound.admitsFrom_flipped,
    Bound.admitsUpTo_flipped]
  exact Bool.and_comm _ _

theorem matching_reversed_perm (query : Query) (documents : List Snapshot) :
    (query.reversed.matching documents).Perm (query.matching documents) := by
  refine (query.reversed.matching_perm documents).trans (.trans ?_ (query.matching_perm documents).symm)
  simp only [selects_reversed, withinBounds_reversed]
  exact List.Perm.refl _

/-- Documents that do not tie are found in the opposite order. -/
theorem matching_reversed (exact : ∀ s ∈ documents, s.isExact)
    (distinct : (documents.map Snapshot.key).Nodup)
    (noTies : ∀ s ∈ documents, ∀ t ∈ documents, query.Matches s → query.Matches t →
      compareByChain query.plan.orders s t = .eq → s = t) :
    query.reversed.matching documents = (query.matching documents).reverse := by
  have falling : (query.reversed.matching documents).Pairwise
      fun s t => compareDocuments query.reversed.plan.orders s t = .lt :=
    pairwise_matching exact distinct
  have perm := query.matching_reversed_perm documents
  have rising : (query.reversed.matching documents).reverse.Pairwise
      fun s t => compareDocuments query.plan.orders s t = .lt := by
    rw [List.pairwise_reverse]
    refine falling.imp_of_mem fun {s t} hs ht before => ?_
    obtain ⟨ms, hs⟩ := mem_matching.mp (perm.mem_iff.mp hs)
    obtain ⟨mt, ht⟩ := mem_matching.mp (perm.mem_iff.mp ht)
    have after : compareByChain query.plan.orders s t = .gt := by
      have first := Ordering.then_eq_lt.mp before
      rw [show query.reversed.plan.orders = query.plan.orders.map OrderBy.flipped from rfl,
        compareByChain_flipped] at first
      cases chain : compareByChain query.plan.orders s t with
      | gt => rfl
      | lt => simp [chain] at first
      | eq =>
        -- A tie would be one document before itself.
        obtain rfl := noTies s ms t mt hs ht chain
        have itself := compareDocuments_swap query.reversed.plan.orders s s
        rw [before] at itself
        cases itself
    rw [← compareDocuments_swap, compareDocuments, after]
    rfl
  refine List.reverse_eq_iff.mp ?_
  exact eq_of_pairwise_lt (compareDocuments_swap query.plan.orders) rising
    (pairwise_matching exact distinct) ((List.reverse_perm _).trans perm)

theorem keepsLast_iff {plan : QueryPlan} :
    plan.keepsLast ↔ plan.limitSide = .last ∧ ∃ n, plan.limit = some n := by
  simp [QueryPlan.keepsLast, Option.isSome_iff_exists]

private theorem WellFormed.reversed (wellFormed : query.WellFormed) : query.reversed.WellFormed where
  collection := wellFormed.collection
  cursors bound mem := by
    have mem : bound ∈ query.plan.bounds := by
      rcases List.mem_append.mp mem with mem | mem
      · exact List.mem_append_right _ mem
      · exact List.mem_append_left _ mem
    simpa [Query.reversed, QueryPlan.reversed] using wellFormed.cursors bound mem
  limit := wellFormed.limit
  last keeps := by
    obtain ⟨side, -⟩ := keepsLast_iff.mp keeps
    cases side
  candidates := wellFormed.candidates

private theorem WellFormed.forward (wellFormed : query.WellFormed) : query.forward.WellFormed := by
  unfold Query.forward QueryPlan.forward
  split
  · exact wellFormed.reversed
  · refine ⟨wellFormed.collection, wellFormed.cursors, wellFormed.limit, fun keeps => ?_,
      wellFormed.candidates⟩
    obtain ⟨side, -⟩ := keepsLast_iff.mp keeps
    cases side

theorem cut_reversed {plan : QueryPlan} (noOffset : plan.offset = none) (keeps : plan.keepsLast)
    (found : List Snapshot) : (plan.reversed.cut found.reverse).reverse = plan.cut found := by
  obtain ⟨side, n, limit⟩ := keepsLast_iff.mp keeps
  simp only [QueryPlan.cut, QueryPlan.reversed, noOffset, limit, side, Option.getD_none,
    List.drop_zero, List.reverse_take, List.reverse_reverse, List.length_reverse]

theorem cut_first {plan : QueryPlan} (keeps : plan.keepsLast = false) (found : List Snapshot) :
    { plan with limitSide := .first }.cut found = plan.cut found := by
  unfold QueryPlan.cut
  cases limit : plan.limit with
  | none => rfl
  | some n =>
    cases side : plan.limitSide with
    | first => rfl
    | last => simp [QueryPlan.keepsLast, limit, side] at keeps

/-- What a query returns is what its forward form returns, put back in order. -/
theorem run_forward (wellFormed : query.WellFormed) (noOffset : query.plan.offset = none)
    (exact : ∀ s ∈ documents, s.isExact) (distinct : (documents.map Snapshot.key).Nodup)
    (noTies : query.plan.keepsLast → ∀ s ∈ documents, ∀ t ∈ documents,
      query.Matches s → query.Matches t → compareByChain query.plan.orders s t = .eq → s = t) :
    ∃ found, query.forward.run documents = .ok found ∧
      query.run documents = .ok (if query.plan.keepsLast then found.reverse else found) := by
  refine ⟨_, run_eq wellFormed.forward.validate documents, ?_⟩
  rw [run_eq wellFormed.validate, forward]
  unfold QueryPlan.forward
  cases keeps : query.plan.keepsLast with
  | true =>
    have opposite := matching_reversed exact distinct (noTies keeps)
    rw [← cut_reversed noOffset keeps (query.matching documents), ← opposite]
    rfl
  | false =>
    rw [← cut_first keeps]
    rfl

end Query

end DocumentStore
