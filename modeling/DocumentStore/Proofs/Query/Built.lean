import DocumentStore.Proofs.Outcome
import DocumentStore.Query.Builder

/-! # The queries that can be built

A query starts as everything in a collection and grows by calls that succeed. Whatever the calls and
their order, a plan that comes out of them is one that every executor accepts. -/

namespace DocumentStore

/-- The queries that calls of the builder produce. A field may be given by its text or as a field
path. -/
inductive Query.Built : Query → Prop where
  | collection {path : String} {query : Query} (opened : Query.ofCollection path = .ok query) :
      Built query
  | call {query next : Query} {call : BuildCall} (built : Built query)
      (applied : query.apply call = .ok next) : Built next
  | filter {query : Query} {field : FieldPath} {operator : FilterOperator} {operand : Value}
      {filter : FieldFilter} (built : Built query)
      (made : FieldFilter.new field operator operand = .ok filter) :
      Built (query.addFilters [filter])
  | order {query : Query} (order : OrderBy) (built : Built query) : Built (query.addOrder order)

/-- What the builder guarantees of a query. -/
structure Query.WellFormed (query : Query) : Prop where
  collection : Query.IsCollection query.collection
  /-- A cursor has values, and no more of them than there are orderings. -/
  cursors : ∀ bound ∈ query.plan.bounds,
    bound.values ≠ [] ∧ bound.values.length ≤ query.plan.orders.length
  limit : query.plan.limit ≠ some 0
  last : query.plan.keepsLast → query.plan.orders ≠ []
  /-- The operators that take candidates have some. -/
  candidates : ∀ filter ∈ query.plan.filters, filter.operator.takesArray →
    ∃ v vs, filter.operand = .array (v :: vs)

/-- Values that make a cursor, whichever method they are given to. -/
structure QueryPlan.Positions (plan : QueryPlan) (values : List Value) : Prop where
  nonempty : values ≠ []
  fits : values.length ≤ plan.orders.length
  values : ∀ v ∈ values, v.isSentinel = false

theorem QueryPlan.Positions.ordered {plan : QueryPlan} {values : List Value}
    (positions : plan.Positions values) : plan.orders ≠ [] := by
  intro unordered
  have fits := positions.fits
  rw [unordered] at fits
  exact positions.nonempty (List.length_eq_zero_iff.mp (Nat.le_zero.mp fits))

/-- A clause that was made has the parts it was made from, and candidates if it takes any. -/
theorem FieldFilter.of_new {field : FieldPath} {operator : FilterOperator} {operand : Value}
    {filter : FieldFilter} (made : FieldFilter.new field operator operand = .ok filter) :
    filter = ⟨field, operator, operand⟩ ∧ operand.isSentinel = false ∧
      (operator.takesArray → ∃ v vs, operand = .array (v :: vs)) := by
  unfold FieldFilter.new at made
  split at made
  · cases made
  · rename_i plain
    split at made
    · split at made
      · cases made
        exact ⟨rfl, by simpa using plain, fun _ => ⟨_, _, rfl⟩⟩
      · cases made
    · rename_i scalar
      cases made
      exact ⟨rfl, by simpa using plain, fun h => absurd h scalar⟩

/-- Tells the clauses that were made from their parts. -/
def FieldFilter.Made (filter : FieldFilter) : Prop :=
  ∃ field operator operand, FieldFilter.new field operator operand = .ok filter

theorem FieldFilter.Made.candidates {filter : FieldFilter} (made : filter.Made)
    (takesArray : filter.operator.takesArray) : ∃ v vs, filter.operand = .array (v :: vs) := by
  obtain ⟨field, operator, operand, h⟩ := made
  obtain ⟨rfl, -, candidates⟩ := FieldFilter.of_new h
  exact candidates takesArray

namespace Expr

theorem clause_made {name : String} {operator : FilterOperator} {operand : Expr}
    {filter : FieldFilter} (h : clause name operator operand = .ok filter) : filter.Made := by
  obtain ⟨field, -, h⟩ := bind_eq_ok.mp h
  obtain ⟨value, -, h⟩ := bind_eq_ok.mp h
  exact ⟨field, operator, value, h⟩

theorem compileComparison_made {op : Comparison} {left right : Expr} {filter : FieldFilter}
    (h : compileComparison op left right = .ok filter) : filter.Made := by
  unfold compileComparison at h
  split at h
  · cases h
  · exact clause_made h
  · exact clause_made h
  · cases h

private theorem compileMembership_made {candidates : Expr} {name : String} {negated : Bool}
    {filter : FieldFilter} (h : compileMembership candidates name negated = .ok filter) :
    filter.Made := by
  obtain ⟨v, -, h⟩ := bind_eq_ok.mp h
  split at h
  · obtain ⟨field, -, h⟩ := bind_eq_ok.mp h
    exact ⟨field, _, _, h⟩
  · cases h

theorem compileContains_made {collection element : Expr} {negated : Bool} {filter : FieldFilter}
    (h : compileContains collection element negated = .ok filter) : filter.Made := by
  unfold compileContains at h
  split at h
  · split at h <;> cases h
  · split at h
    · cases h
    · exact clause_made h
  · exact compileMembership_made h
  · cases h

theorem compileFlag_made {name : String} {b : Bool} {filter : FieldFilter}
    (h : compileFlag name b = .ok filter) : filter.Made := by
  obtain ⟨field, -, h⟩ := bind_eq_ok.mp h
  exact ⟨field, _, _, h⟩

/-- A single clause that was made is a list of such clauses. -/
theorem forall_made_of_single {x : Except PlanFault FieldFilter} {filters : List FieldFilter}
    (made : ∀ filter, x = .ok filter → filter.Made) (h : x.map ([·]) = .ok filters) :
    ∀ filter ∈ filters, filter.Made := by
  obtain ⟨filter, hx, rfl⟩ := map_eq_ok.mp h
  simpa using made filter hx

mutual

/-- Every clause of a predicate was made from its parts. -/
theorem compile_made {e : Expr} {filters : List FieldFilter} (h : e.compile = .ok filters) :
    ∀ filter ∈ filters, filter.Made := by
  cases e with
  | and left right =>
    simp only [compile] at h
    split at h
    · cases h
    · rename_i first hfirst
      split at h
      · cases h
      · rename_i second hsecond
        cases h
        intro filter mem
        rcases List.mem_append.mp mem with mem | mem
        · exact compile_made hfirst filter mem
        · exact compile_made hsecond filter mem
  | compare op left right => exact forall_made_of_single (fun _ => compileComparison_made) h
  | contains collection element => exact forall_made_of_single (fun _ => compileContains_made) h
  | not inner => exact compileNegation_made h
  | field name => exact forall_made_of_single (fun _ => compileFlag_made) h
  | or _ _ => cases h
  | constant _ => cases h
  | captured _ => cases h
  | list _ => cases h
  | arithmetic _ _ _ => cases h
termination_by structural e

theorem compileNegation_made {e : Expr} {filters : List FieldFilter}
    (h : e.compileNegation = .ok filters) : ∀ filter ∈ filters, filter.Made := by
  cases e with
  | not inner => exact compile_made h
  | compare op left right =>
    cases op with
    | eq => exact forall_made_of_single (fun _ => compileComparison_made) h
    | ne => exact forall_made_of_single (fun _ => compileComparison_made) h
    | _ => cases h
  | contains collection element => exact forall_made_of_single (fun _ => compileContains_made) h
  | field name => exact forall_made_of_single (fun _ => compileFlag_made) h
  | and _ _ => cases h
  | or _ _ => cases h
  | constant _ => cases h
  | captured _ => cases h
  | list _ => cases h
  | arithmetic _ _ _ => cases h
termination_by structural e

end

end Expr

/-- A plan with an ordering is refused only for a cursor that is longer than the ordering. -/
theorem QueryPlan.validate_of_ordered {plan : QueryPlan} (ordered : plan.orders ≠ [])
    (fits : ∀ bound ∈ plan.bounds, bound.values.length ≤ plan.orders.length) :
    plan.validate = .ok () := by
  have sorted : plan.orders.isEmpty = false := List.isEmpty_eq_false_iff.mpr ordered
  unfold validate
  rw [sorted, List.find?_eq_none.mpr fun bound mem => by simpa using fits bound mem]
  simp

namespace Query

variable {query next : Query}

theorem WellFormed.addFilters {filters : List FieldFilter} (h : query.WellFormed)
    (candidates : ∀ filter ∈ filters, filter.operator.takesArray →
      ∃ v vs, filter.operand = .array (v :: vs)) : (query.addFilters filters).WellFormed where
  collection := h.collection
  cursors := h.cursors
  limit := h.limit
  last := h.last
  candidates filter mem := by
    rcases List.mem_append.mp mem with mem | mem
    · exact h.candidates filter mem
    · exact candidates filter mem

theorem WellFormed.addOrder (h : query.WellFormed) (order : OrderBy) :
    (query.addOrder order).WellFormed where
  collection := h.collection
  cursors bound mem := by
    obtain ⟨nonempty, le⟩ := h.cursors bound mem
    exact ⟨nonempty, by simp [Query.addOrder]; omega⟩
  limit := h.limit
  last _ := by simp [Query.addOrder]
  candidates := h.candidates

/-- A method makes a cursor of the values that any method takes. -/
theorem boundOf_eq_ok {plan : QueryPlan} {method : CursorMethod} {values : List Value} {bound : Bound} :
    plan.boundOf method values = .ok bound ↔
      bound = ⟨values, method.inclusive⟩ ∧ plan.Positions values := by
  unfold QueryPlan.boundOf
  constructor
  · intro made
    split at made
    · cases made
    · split at made
      · cases made
      · split at made
        · cases made
        · split at made
          · cases made
          · rename_i nonempty short plain
            cases made
            exact ⟨rfl, by simpa using nonempty, by omega, by simpa using plain⟩
  · rintro ⟨rfl, positions⟩
    have ordered := positions.ordered
    rw [if_neg (by simpa using ordered), if_neg (by simpa using positions.nonempty),
      if_neg (by simpa using positions.fits), if_neg (by simpa using positions.values)]

private theorem WellFormed.withBound {method : CursorMethod} {bound : Bound} (h : query.WellFormed)
    (cursor : bound.values ≠ [] ∧ bound.values.length ≤ query.plan.orders.length) :
    (query.withBound method bound).WellFormed := by
  unfold Query.withBound
  split
  · refine ⟨h.collection, fun b mem => ?_, h.limit, h.last, h.candidates⟩
    rcases List.mem_append.mp mem with mem | mem
    · obtain rfl : b = bound := by simpa using mem
      exact cursor
    · exact h.cursors b (List.mem_append_right _ mem)
  · refine ⟨h.collection, fun b mem => ?_, h.limit, h.last, h.candidates⟩
    rcases List.mem_append.mp mem with mem | mem
    · exact h.cursors b (List.mem_append_left _ mem)
    · obtain rfl : b = bound := by simpa using mem
      exact cursor

private theorem WellFormed.withLimit {n : Nat} {side : LimitSide} (h : query.WellFormed) (pos : n ≠ 0)
    (ordered : side = .last → query.plan.orders ≠ []) : (query.withLimit n side).WellFormed where
  collection := h.collection
  cursors := h.cursors
  limit := by simpa [Query.withLimit] using pos
  last keeps := ordered (by simpa [QueryPlan.keepsLast, Query.withLimit] using keeps)
  candidates := h.candidates

theorem WellFormed.apply {call : BuildCall} (h : query.WellFormed)
    (applied : query.apply call = .ok next) : next.WellFormed := by
  cases call with
  | matching predicate =>
    obtain ⟨filters, compiled, applied⟩ := bind_eq_ok.mp applied
    cases applied
    exact h.addFilters fun filter mem =>
      (Expr.compile_made (mapError_eq_ok.mp compiled) filter mem).candidates
  | field name operator operand =>
    obtain ⟨path, -, applied⟩ := bind_eq_ok.mp applied
    obtain ⟨filter, made, applied⟩ := bind_eq_ok.mp applied
    cases applied
    have made : filter.Made := ⟨path, operator, operand, mapError_eq_ok.mp made⟩
    exact h.addFilters (by simpa using made.candidates)
  | orderBy name direction =>
    obtain ⟨path, -, applied⟩ := bind_eq_ok.mp applied
    cases applied
    exact h.addOrder _
  | orderByExpr e direction =>
    obtain ⟨order, -, applied⟩ := bind_eq_ok.mp applied
    cases applied
    exact h.addOrder order
  | limit n =>
    simp only [Query.apply] at applied
    split at applied
    · cases applied
    · rename_i pos
      cases applied
      exact h.withLimit pos nofun
  | limitToLast n =>
    simp only [Query.apply] at applied
    split at applied
    · cases applied
    · split at applied
      · cases applied
      · rename_i pos ordered
        cases applied
        exact h.withLimit pos fun _ => by simpa using ordered
  | skip n =>
    cases applied
    exact ⟨h.collection, h.cursors, h.limit, h.last, h.candidates⟩
  | cursor method values =>
    obtain ⟨bound, made, applied⟩ := bind_eq_ok.mp applied
    cases applied
    obtain ⟨rfl, positions⟩ := boundOf_eq_ok.mp (mapError_eq_ok.mp made)
    exact h.withBound ⟨positions.nonempty, positions.fits⟩

/-- Every query that can be built has what the builder guarantees. -/
theorem Built.wellFormed (built : query.Built) : query.WellFormed := by
  induction built with
  | collection opened =>
    obtain ⟨collection, -, opened⟩ := bind_eq_ok.mp opened
    split at opened
    · rename_i odd
      cases opened
      exact ⟨odd, by simp [QueryPlan.bounds, QueryPlan.empty], by simp [QueryPlan.empty],
        by simp [QueryPlan.keepsLast, QueryPlan.empty], by simp [QueryPlan.empty]⟩
    · cases opened
  | call built applied ih => exact ih.apply applied
  | filter built made ih =>
    exact ih.addFilters (by simpa using FieldFilter.Made.candidates ⟨_, _, _, made⟩)
  | order order built ih => exact ih.addOrder order

theorem Built.applyAll {calls : List BuildCall} (built : query.Built)
    (applied : query.applyAll calls = .ok next) : next.Built := by
  induction calls generalizing query with
  | nil =>
    cases applied
    exact built
  | cons call calls ih =>
    obtain ⟨between, first, rest⟩ := bind_eq_ok.mp applied
    exact ih (built.call first) rest

theorem WellFormed.validate (h : query.WellFormed) : query.plan.validate = .ok () := by
  unfold QueryPlan.validate
  have ordered (bound : Bound) (mem : bound ∈ query.plan.bounds) : query.plan.orders ≠ [] := by
    obtain ⟨nonempty, le⟩ := h.cursors bound mem
    intro none
    rw [none] at le
    exact nonempty (List.length_eq_zero_iff.mp (Nat.le_zero.mp le))
  rw [if_neg, List.find?_eq_none.mpr, if_neg]
  · intro last
    rw [Bool.and_eq_true, List.isEmpty_iff] at last
    exact h.last last.1 last.2
  · intro bound mem
    simpa using (h.cursors bound mem).2
  · intro unordered
    rw [Bool.and_eq_true, Bool.not_eq_true', List.isEmpty_iff] at unordered
    obtain ⟨bound, mem⟩ := List.exists_mem_of_ne_nil _ (by simpa using unordered.1)
    exact ordered bound mem unordered.2

/-- No executor refuses a query that can be built. -/
theorem Built.validate (built : query.Built) : query.plan.validate = .ok () :=
  built.wellFormed.validate

end Query

end DocumentStore
