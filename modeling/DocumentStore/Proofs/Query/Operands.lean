import DocumentStore.Proofs.Expr.Language
import DocumentStore.Proofs.Query.Narrowing

/-! # The values that a query holds

The operands of clauses and the values of cursors come from the calls of the builder, some as they are
and some folded from the constants of a predicate. A marker that is itself an operand or a value of a
cursor is refused, but the check does not look into arrays and maps: a query is free of markers at every
depth exactly if what it was handed is. -/

namespace DocumentStore

private theorem Arithmetic.isPlain_of_fold {op : Arithmetic} {a b v : Value}
    (folded : op.fold a b = .ok v) :
    v.isPlain := by
  unfold fold at folded
  split at folded
  · rename_i result
    cases folded
    unfold onValues? at result
    split at result
    · obtain ⟨n, -, rfl⟩ := Option.map_eq_some_iff.mp result
      rfl
    · split at result
      · cases result
        rfl
      · cases result
    · unfold onNumbers? at result
      split at result
      · cases result
        rfl
      · cases result
  · cases folded

namespace Expr

mutual

/-- The constants that become part of the value to which an operand folds. Those that are computed with
or compared leave no trace but a number, a text or a truth value. -/
def constants : Expr → List Value
  | .constant v => [v]
  | .captured v => [v]
  | .list items => constantsOfAll items
  | _ => []

/-- The constants of the items of a list. -/
def constantsOfAll : List Expr → List Value
  | [] => []
  | item :: items => constants item ++ constantsOfAll items

end

/-- The constants that become part of the operands of the clauses of a predicate. -/
def operands : Expr → List Value
  | .and left right => operands left ++ operands right
  | .not inner => operands inner
  | .compare _ left right => constants left ++ constants right
  | .contains collection element => constants collection ++ constants element
  | _ => []

mutual

theorem isPlain_of_reduce (e : Expr) {v : Value} (folded : e.reduce = .ok v) :
    v.isPlain ↔ ∀ c ∈ e.constants, c.isPlain := by
  cases e with
  | constant c =>
    cases folded
    simp [constants]
  | captured c =>
    cases folded
    simp [constants]
  | list items =>
    rw [reduce] at folded
    split at folded
    · rename_i values each
      cases folded
      rw [Value.isPlain, Value.allPlain_iff, constants]
      exact isPlain_of_reduceList items each
    · cases folded
  | arithmetic op left right =>
    rw [reduce] at folded
    split at folded
    · cases folded
    · split at folded
      · cases folded
      · simp [constants, Arithmetic.isPlain_of_fold folded]
  | compare op left right =>
    rw [reduce] at folded
    split at folded
    · cases folded
    · split at folded
      · cases folded
      · cases folded
        simp [constants, Value.isPlain]
  | not inner =>
    rw [reduce] at folded
    split at folded
    · cases folded
    · cases folded
      simp [constants, Value.isPlain]
    · cases folded
  | field name => cases folded
  | contains collection element => cases folded
  | and left right => cases folded
  | or left right => cases folded
termination_by structural e

theorem isPlain_of_reduceList (items : List Expr) {values : List Value}
    (folded : reduceList items = .ok values) :
    (∀ v ∈ values, v.isPlain) ↔ ∀ c ∈ constantsOfAll items, c.isPlain := by
  cases items with
  | nil =>
    cases folded
    simp [constantsOfAll]
  | cons item items =>
    rw [reduceList] at folded
    split at folded
    · cases folded
    · rename_i v first
      split at folded
      · cases folded
      · rename_i values others
        cases folded
        rw [List.forall_mem_cons, constantsOfAll, List.forall_mem_append,
          isPlain_of_reduce item first, isPlain_of_reduceList items others]
termination_by structural items

end

private theorem Clause.isPlain_operand {atom : Expr} {filter : FieldFilter}
    (clause : Clause atom filter) :
    filter.operand.isPlain ↔ ∀ c ∈ atom.operands, c.isPlain := by
  have ofComparison {op : Comparison} {left right : Expr} {filter : FieldFilter}
      (clause : ComparisonClause op left right filter) :
      filter.operand.isPlain ↔ ∀ c ∈ constants left ++ constants right, c.isPlain := by
    cases clause with
    | fieldFirst named constant => simpa [constants] using isPlain_of_reduce _ constant.folds
    | fieldLast named constant => simpa [constants] using isPlain_of_reduce _ constant.folds
  cases clause with
  | compare clause => exact ofComparison clause
  | notEqual clause => exact ofComparison clause
  | notDifferent clause => exact ofComparison clause
  | holds named constant => simpa [operands, constants] using isPlain_of_reduce _ constant.folds
  | oneOf named list => simpa [operands, constants] using isPlain_of_reduce _ list.folds
  | noneOf named list => simpa [operands, constants] using isPlain_of_reduce _ list.folds
  | flag named => simp [operands, Value.isPlain]
  | notFlag named => simp [operands, Value.isPlain]

private theorem forall_operands_iff {P : Value → Prop} (e : Expr) :
    (∀ c ∈ e.operands, P c) ↔ ∀ atom ∈ e.atoms, ∀ c ∈ atom.operands, P c := by
  induction e using atoms.induct with
  | case1 left right first second =>
    rw [operands, atoms, List.forall_mem_append, List.forall_mem_append, first, second]
  | case2 inner ih => exact ih
  | case3 e notAnd notNot => rw [atoms.eq_3 e notAnd notNot, List.forall_mem_singleton]

theorem isPlain_of_compile {e : Expr} {filters : List FieldFilter} (compiled : e.compile = .ok filters) :
    (∀ filter ∈ filters, filter.operand.isPlain) ↔ ∀ c ∈ e.operands, c.isPlain := by
  rw [forall_operands_iff]
  exact forall_mem_iff_of_forall₂ ((compile_eq_ok_iff e).mp compiled)
    fun _ _ _ clause => clause.isPlain_operand

end Expr

/-- The values in a plan: the operands of its clauses and the values of its cursors. -/
def QueryPlan.values (plan : QueryPlan) : List Value :=
  plan.filters.map FieldFilter.operand ++ plan.bounds.flatMap Bound.values

/-- What the calls of a builder have handed to a query. A cursor takes the place of the one before it on
the same side. -/
structure Handed where
  operands : List Value
  start : List Value
  stop : List Value

namespace Handed

def nothing : Handed := ⟨[], [], []⟩

def after (handed : Handed) : Narrowing → Handed
  | .call (.matching predicate) => { handed with operands := handed.operands ++ predicate.operands }
  | .call (.field _ _ operand) => { handed with operands := handed.operands ++ [operand] }
  | .filter _ _ operand => { handed with operands := handed.operands ++ [operand] }
  | .call (.cursor method values) =>
    if method.isStart then { handed with start := values } else { handed with stop := values }
  | _ => handed

def afterAll (handed : Handed) (narrowings : List Narrowing) : Handed := narrowings.foldl after handed

def values (handed : Handed) : List Value := handed.operands ++ handed.start ++ handed.stop

end Handed

namespace Query

/-- The query after some calls, up to the first refusal. -/
def narrowEach? (query : Query) (narrowings : List Narrowing) : Except Error Query :=
  narrowings.foldlM narrow? query

/-- A query holds what it was handed, and nothing of it is a marker. -/
structure Holds (query : Query) (handed : Handed) : Prop where
  operands : (∀ filter ∈ query.plan.filters, filter.operand.isPlain) ↔
    ∀ v ∈ handed.operands, v.isPlain
  start : query.plan.start.toList.flatMap Bound.values = handed.start
  stop : query.plan.stop.toList.flatMap Bound.values = handed.stop
  noMarkerOperand : ∀ filter ∈ query.plan.filters, filter.operand.isSentinel = false
  noMarkerBound : ∀ v ∈ handed.start ++ handed.stop, v.isSentinel = false

variable {query next : Query} {handed : Handed}

theorem Holds.of_same (holds : query.Holds handed) (filters : next.plan.filters = query.plan.filters)
    (start : next.plan.start = query.plan.start) (stop : next.plan.stop = query.plan.stop) :
    next.Holds handed where
  operands := filters ▸ holds.operands
  start := start ▸ holds.start
  stop := stop ▸ holds.stop
  noMarkerOperand := filters ▸ holds.noMarkerOperand
  noMarkerBound := holds.noMarkerBound

theorem Holds.addFilters {filters : List FieldFilter} {operands : List Value}
    (holds : query.Holds handed) (made : ∀ filter ∈ filters, filter.Made)
    (plain : (∀ filter ∈ filters, filter.operand.isPlain) ↔ ∀ v ∈ operands, v.isPlain) :
    (query.addFilters filters).Holds { handed with operands := handed.operands ++ operands } where
  operands := by
    show (∀ filter ∈ query.plan.filters ++ filters, _) ↔ ∀ v ∈ handed.operands ++ operands, _
    rw [List.forall_mem_append, List.forall_mem_append, holds.operands, plain]
  start := holds.start
  stop := holds.stop
  noMarkerOperand filter mem := by
    rcases List.mem_append.mp mem with old | new
    · exact holds.noMarkerOperand filter old
    · obtain ⟨field, operator, operand, h⟩ := made filter new
      obtain ⟨rfl, single, -⟩ := FieldFilter.of_new h
      exact single
  noMarkerBound := holds.noMarkerBound

private theorem Holds.addFilter {field : FieldPath} {operator : FilterOperator} {operand : Value}
    {filter : FieldFilter} (holds : query.Holds handed)
    (made : FieldFilter.new field operator operand = .ok filter) :
    (query.addFilters [filter]).Holds { handed with operands := handed.operands ++ [operand] } := by
  refine holds.addFilters (by simpa using ⟨field, operator, operand, made⟩) ?_
  obtain ⟨rfl, -⟩ := FieldFilter.of_new made
  simp

private theorem Holds.withBound {method : CursorMethod} {values : List Value}
    (holds : query.Holds handed) (single : ∀ v ∈ values, v.isSentinel = false) :
    (query.withBound method ⟨values, method.inclusive⟩).Holds
      (if method.isStart then { handed with start := values } else { handed with stop := values }) := by
  have old := List.forall_mem_append.mp holds.noMarkerBound
  unfold Query.withBound
  cases method.isStart with
  | true =>
    exact ⟨holds.operands, by simp, holds.stop, holds.noMarkerOperand,
      List.forall_mem_append.mpr ⟨single, old.2⟩⟩
  | false =>
    exact ⟨holds.operands, holds.start, by simp, holds.noMarkerOperand,
      List.forall_mem_append.mpr ⟨old.1, single⟩⟩

theorem Holds.narrow? {narrowing : Narrowing} (holds : query.Holds handed)
    (narrowed : query.narrow? narrowing = .ok next) : next.Holds (handed.after narrowing) := by
  cases narrowing with
  | filter field operator operand =>
    obtain ⟨filter, made, narrowed⟩ := bind_eq_ok.mp narrowed
    cases narrowed
    exact holds.addFilter (mapError_eq_ok.mp made)
  | order order =>
    cases narrowed
    exact holds.of_same rfl rfl rfl
  | call call =>
    cases call with
    | matching predicate =>
      obtain ⟨filters, compiled, narrowed⟩ := bind_eq_ok.mp narrowed
      cases narrowed
      have compiled := mapError_eq_ok.mp compiled
      exact holds.addFilters (Expr.compile_made compiled) (Expr.isPlain_of_compile compiled)
    | field name operator operand =>
      obtain ⟨path, -, narrowed⟩ := bind_eq_ok.mp narrowed
      obtain ⟨filter, made, narrowed⟩ := bind_eq_ok.mp narrowed
      cases narrowed
      exact holds.addFilter (mapError_eq_ok.mp made)
    | cursor method values =>
      obtain ⟨bound, made, narrowed⟩ := bind_eq_ok.mp narrowed
      cases narrowed
      obtain ⟨rfl, positions⟩ := boundOf_eq_ok.mp (mapError_eq_ok.mp made)
      exact holds.withBound positions.values
    | orderBy name direction =>
      obtain ⟨path, -, narrowed⟩ := bind_eq_ok.mp narrowed
      cases narrowed
      exact holds.of_same rfl rfl rfl
    | orderByExpr e direction =>
      obtain ⟨order, -, narrowed⟩ := bind_eq_ok.mp narrowed
      cases narrowed
      exact holds.of_same rfl rfl rfl
    | limit n =>
      simp only [Query.narrow?, Query.apply] at narrowed
      split at narrowed
      · cases narrowed
      · cases narrowed
        exact holds.of_same rfl rfl rfl
    | limitToLast n =>
      simp only [Query.narrow?, Query.apply] at narrowed
      split at narrowed
      · cases narrowed
      · split at narrowed
        · cases narrowed
        · cases narrowed
          exact holds.of_same rfl rfl rfl
    | skip n =>
      cases narrowed
      exact holds.of_same rfl rfl rfl

theorem Holds.narrowEach? {narrowings : List Narrowing} (holds : query.Holds handed)
    (narrowed : query.narrowEach? narrowings = .ok next) : next.Holds (handed.afterAll narrowings) := by
  induction narrowings generalizing query handed with
  | nil =>
    cases narrowed
    exact holds
  | cons narrowing narrowings ih =>
    obtain ⟨between, first, rest⟩ := bind_eq_ok.mp narrowed
    exact ih (holds.narrow? first) rest

theorem holds_ofCollection {path : String} (opened : ofCollection path = .ok query) :
    query.Holds .nothing := by
  obtain ⟨collection, -, opened⟩ := bind_eq_ok.mp opened
  split at opened
  · cases opened
    exact ⟨by simp [Handed.nothing, QueryPlan.empty], rfl, rfl, by simp [QueryPlan.empty],
      by simp [Handed.nothing]⟩
  · cases opened

theorem Holds.forall_values_iff (holds : query.Holds handed) :
    (∀ v ∈ query.plan.values, v.isPlain) ↔ ∀ v ∈ handed.values, v.isPlain := by
  simp only [QueryPlan.values, QueryPlan.bounds, List.flatMap_append, holds.start, holds.stop,
    Handed.values, List.forall_mem_append, List.forall_mem_map, holds.operands, and_assoc]

theorem Holds.isSentinel_of_mem_values (holds : query.Holds handed) :
    ∀ v ∈ query.plan.values, v.isSentinel = false := by
  rw [QueryPlan.values, QueryPlan.bounds, List.flatMap_append, holds.start, holds.stop,
    List.forall_mem_append, List.forall_mem_map]
  exact ⟨holds.noMarkerOperand, holds.noMarkerBound⟩

end Query

end DocumentStore
