import DocumentStore.Proofs.Query.Built
import Mathlib.Data.List.Forall2

/-! # The language of predicates

Most expressions are no predicates. Those that can be compiled are the conjunctions of atoms, where an
atom relates one field to one constant in a form that has a clause of its own, and where a double
negation counts for nothing. The clauses are those of the atoms, in the order in which they are written. -/

namespace DocumentStore

theorem FieldPath.ofString_eq_ok_iff {name : String} {path : FieldPath} :
    FieldPath.ofString name = .ok path ↔ Text.trim name ≠ "" ∧ path.segments = Text.split '.' name := by
  unfold FieldPath.ofString FieldPath.new
  constructor
  · intro read
    split at read
    · cases read
    · rename_i filled
      split at read
      · cases read
      · split at read
        · cases read
        · cases read
          exact ⟨filled, rfl⟩
  · rintro ⟨filled, segments⟩
    obtain ⟨_, nonempty, parts⟩ := path
    subst segments
    rw [if_neg filled, dif_neg nonempty, dif_neg parts]

/-- A clause with a constant that is no list of candidates is refused only if the constant is a marker. -/
theorem FieldFilter.new_eq_ok_iff {field : FieldPath} {operator : FilterOperator} {operand : Value}
    {filter : FieldFilter} (single : operator.takesArray = false) :
    FieldFilter.new field operator operand = .ok filter ↔
      operand.isSentinel = false ∧ filter = ⟨field, operator, operand⟩ := by
  cases plain : operand.isSentinel <;> simp [FieldFilter.new, plain, single, eq_comm]

private theorem FieldFilter.new_array_eq_ok_iff {field : FieldPath} {operator : FilterOperator}
    {candidates : List Value} {filter : FieldFilter} (several : operator.takesArray = true) :
    FieldFilter.new field operator (.array candidates) = .ok filter ↔
      candidates ≠ [] ∧ filter = ⟨field, operator, .array candidates⟩ := by
  cases candidates <;> simp [FieldFilter.new, Value.isSentinel, several, eq_comm]

namespace Expr

/-- A name that is not blank names the field at the parts between its dots, none of which is empty. -/
def Names (name : String) (path : FieldPath) : Prop :=
  Text.trim name ≠ "" ∧ path.segments = Text.split '.' name

/-- An expression that is no field and folds to a value that is no marker. -/
structure IsConstant (e : Expr) (v : Value) : Prop where
  notField : e.isField = false
  folds : e.reduce = .ok v
  plain : v.isSentinel = false

/-- An expression that is no field and folds to an array that is not empty. -/
structure IsList (e : Expr) (candidates : List Value) : Prop where
  notField : e.isField = false
  folds : e.reduce = .ok (.array candidates)
  nonempty : candidates ≠ []

/-- The clause of a comparison, which has a field on one side and a constant on the other. -/
inductive ComparisonClause (op : Comparison) : Expr → Expr → FieldFilter → Prop where
  | fieldFirst {name : String} {path : FieldPath} {c : Expr} {v : Value} (named : Names name path)
      (constant : IsConstant c v) : ComparisonClause op (.field name) c ⟨path, op.operator, v⟩
  | fieldLast {name : String} {path : FieldPath} {c : Expr} {v : Value} (named : Names name path)
      (constant : IsConstant c v) :
      ComparisonClause op c (.field name) ⟨path, op.operator.swapped, v⟩

/-- The atoms of predicates, each with its clause. -/
inductive Clause : Expr → FieldFilter → Prop where
  | compare {op : Comparison} {left right : Expr} {filter : FieldFilter}
      (clause : ComparisonClause op left right filter) : Clause (.compare op left right) filter
  | notEqual {left right : Expr} {filter : FieldFilter}
      (clause : ComparisonClause .ne left right filter) : Clause (.not (.compare .eq left right)) filter
  | notDifferent {left right : Expr} {filter : FieldFilter}
      (clause : ComparisonClause .eq left right filter) : Clause (.not (.compare .ne left right)) filter
  | holds {name : String} {path : FieldPath} {c : Expr} {v : Value} (named : Names name path)
      (constant : IsConstant c v) : Clause (.contains (.field name) c) ⟨path, .arrayContains, v⟩
  | oneOf {name : String} {path : FieldPath} {l : Expr} {candidates : List Value}
      (named : Names name path) (list : IsList l candidates) :
      Clause (.contains l (.field name)) ⟨path, .isIn, .array candidates⟩
  | noneOf {name : String} {path : FieldPath} {l : Expr} {candidates : List Value}
      (named : Names name path) (list : IsList l candidates) :
      Clause (.not (.contains l (.field name))) ⟨path, .notIn, .array candidates⟩
  | flag {name : String} {path : FieldPath} (named : Names name path) :
      Clause (.field name) ⟨path, .equal, .boolean true⟩
  | notFlag {name : String} {path : FieldPath} (named : Names name path) :
      Clause (.not (.field name)) ⟨path, .equal, .boolean false⟩

/-- The predicates. -/
inductive IsPredicate : Expr → Prop where
  | atom {e : Expr} {filter : FieldFilter} (clause : Clause e filter) : IsPredicate e
  | and {left right : Expr} (first : IsPredicate left) (second : IsPredicate right) :
      IsPredicate (.and left right)
  | notNot {e : Expr} (inner : IsPredicate e) : IsPredicate (.not (.not e))

/-- What is left of an expression without its conjunctions and double negations, from left to right. -/
def atoms : Expr → List Expr
  | .and left right => atoms left ++ atoms right
  | .not (.not inner) => atoms inner
  | e => [e]

private theorem Clause.atoms_eq {e : Expr} {filter : FieldFilter} (clause : Clause e filter) :
    e.atoms = [e] := by
  cases clause <;> rfl

/-- An expression is a predicate if every part of it that is to be an atom is one. -/
theorem isPredicate_iff {e : Expr} :
    IsPredicate e ↔ ∀ atom ∈ e.atoms, ∃ filter, Clause atom filter := by
  constructor
  · intro predicate
    induction predicate with
    | atom clause =>
      rw [clause.atoms_eq, List.forall_mem_singleton]
      exact ⟨_, clause⟩
    | and _ _ first second =>
      rw [atoms, List.forall_mem_append]
      exact ⟨first, second⟩
    | notNot _ inner => exact inner
  · intro clauses
    induction e using atoms.induct with
    | case1 left right first second =>
      rw [atoms, List.forall_mem_append] at clauses
      exact .and (first clauses.1) (second clauses.2)
    | case2 inner ih => exact .notNot (ih clauses)
    | case3 e notAnd notNot =>
      rw [atoms.eq_3 e notAnd notNot, List.forall_mem_singleton] at clauses
      obtain ⟨filter, clause⟩ := clauses
      exact .atom clause

variable {e left right collection element candidates operand : Expr} {name : String} {path : FieldPath}
  {operator : FilterOperator} {op : Comparison} {filter : FieldFilter} {filters : List FieldFilter}

theorem fieldPath_eq_ok_iff : fieldPath name = .ok path ↔ Names name path := by
  rw [fieldPath, mapError_eq_ok, FieldPath.ofString_eq_ok_iff, Names]

theorem clause_eq_ok_iff (single : operator.takesArray = false) (notField : operand.isField = false) :
    clause name operator operand = .ok filter ↔
      ∃ path v, Names name path ∧ IsConstant operand v ∧ filter = ⟨path, operator, v⟩ := by
  simp only [clause, bind_eq_ok, fieldPath_eq_ok_iff, FieldFilter.new_eq_ok_iff single]
  constructor
  · rintro ⟨path, named, v, folds, plain, made⟩
    exact ⟨path, v, named, ⟨notField, folds, plain⟩, made⟩
  · rintro ⟨path, v, named, constant, made⟩
    exact ⟨path, named, v, constant.folds, constant.plain, made⟩

private theorem takesArray_operator (op : Comparison) :
    op.operator.takesArray = false ∧ op.operator.swapped.takesArray = false := by
  cases op <;> exact ⟨rfl, rfl⟩

theorem isField_eq_false (notField : ∀ name, e ≠ .field name) : e.isField = false := by
  cases e with
  | field name => exact absurd rfl (notField name)
  | _ => rfl

theorem compileComparison_eq_ok_iff :
    compileComparison op left right = .ok filter ↔ ComparisonClause op left right filter := by
  obtain ⟨single, swapped⟩ := takesArray_operator op
  unfold compileComparison
  split
  · -- Neither of two fields is a constant.
    constructor
    · nofun
    · rintro (⟨_, constant⟩ | ⟨_, constant⟩) <;> cases constant.notField
  · rename_i name operand notField
    rw [clause_eq_ok_iff single (isField_eq_false notField)]
    constructor
    · rintro ⟨path, v, named, constant, rfl⟩
      exact .fieldFirst named constant
    · rintro (⟨named, constant⟩ | ⟨_, constant⟩)
      · exact ⟨_, _, named, constant, rfl⟩
      · cases constant.notField
  · rename_i name operand notField
    rw [clause_eq_ok_iff swapped (isField_eq_false notField)]
    constructor
    · rintro ⟨path, v, named, constant, rfl⟩
      exact .fieldLast named constant
    · rintro (⟨_, constant⟩ | ⟨named, constant⟩)
      · cases constant.notField
      · exact ⟨_, _, named, constant, rfl⟩
  · rename_i notFirst notLast _
    constructor
    · nofun
    · rintro (⟨_, _⟩ | ⟨_, _⟩)
      · exact (notFirst _ rfl).elim
      · exact (notLast _ rfl).elim

theorem compileMembership_eq_ok_iff {negated : Bool} (notField : candidates.isField = false) :
    compileMembership candidates name negated = .ok filter ↔
      ∃ path vs, Names name path ∧ IsList candidates vs ∧
        filter = ⟨path, if negated then .notIn else .isIn, .array vs⟩ := by
  have several : (if negated then FilterOperator.notIn else .isIn).takesArray = true := by
    cases negated <;> rfl
  simp only [compileMembership, bind_eq_ok]
  constructor
  · rintro ⟨v, folds, made⟩
    split at made
    · obtain ⟨path, named, made⟩ := bind_eq_ok.mp made
      obtain ⟨nonempty, made⟩ := (FieldFilter.new_array_eq_ok_iff several).mp made
      exact ⟨path, _, fieldPath_eq_ok_iff.mp named, ⟨notField, folds, nonempty⟩, made⟩
    · cases made
  · rintro ⟨path, vs, named, list, made⟩
    refine ⟨.array vs, list.folds, bind_eq_ok.mpr ⟨path, fieldPath_eq_ok_iff.mpr named, ?_⟩⟩
    exact (FieldFilter.new_array_eq_ok_iff several).mpr ⟨list.nonempty, made⟩

private theorem compileContains_eq_ok_iff :
    compileContains collection element false = .ok filter ↔
      Clause (.contains collection element) filter := by
  unfold compileContains
  split
  · constructor
    · nofun
    · rintro (_ | _ | _ | ⟨_, constant⟩ | ⟨_, list⟩)
      · cases constant.notField
      · cases list.notField
  · rename_i notField
    rw [if_neg Bool.false_ne_true, clause_eq_ok_iff rfl (isField_eq_false notField)]
    constructor
    · rintro ⟨path, v, named, constant, rfl⟩
      exact .holds named constant
    · rintro (_ | _ | _ | ⟨named, constant⟩ | ⟨_, list⟩)
      · exact ⟨_, _, named, constant, rfl⟩
      · cases list.notField
  · rename_i notField
    rw [compileMembership_eq_ok_iff (isField_eq_false notField), if_neg Bool.false_ne_true]
    constructor
    · rintro ⟨path, vs, named, list, rfl⟩
      exact .oneOf named list
    · rintro (_ | _ | _ | ⟨_, constant⟩ | ⟨named, list⟩)
      · cases constant.notField
      · exact ⟨_, _, named, list, rfl⟩
  · rename_i notFirst notLast _
    constructor
    · nofun
    · rintro (_ | _ | _ | ⟨_, _⟩ | ⟨_, _⟩)
      · exact (notFirst _ rfl).elim
      · exact (notLast _ rfl).elim

theorem compileContains_negated_eq_ok_iff :
    compileContains collection element true = .ok filter ↔
      Clause (.not (.contains collection element)) filter := by
  unfold compileContains
  split
  · constructor
    · nofun
    · rintro (_ | _ | _ | _ | _ | ⟨_, list⟩)
      cases list.notField
  · constructor
    · nofun
    · rintro (_ | _ | _ | _ | _ | ⟨_, list⟩)
      cases list.notField
  · rename_i notField
    rw [compileMembership_eq_ok_iff (isField_eq_false notField), if_pos rfl]
    constructor
    · rintro ⟨path, vs, named, list, rfl⟩
      exact .noneOf named list
    · rintro (_ | _ | _ | _ | _ | ⟨named, list⟩)
      exact ⟨_, _, named, list, rfl⟩
  · rename_i notFirst notLast _
    constructor
    · nofun
    · rintro (_ | _ | _ | _ | _ | ⟨_, _⟩)
      exact (notLast _ rfl).elim

theorem compileFlag_eq_ok_iff {b : Bool} :
    compileFlag name b = .ok filter ↔ ∃ path, Names name path ∧ filter = ⟨path, .equal, .boolean b⟩ := by
  have single : FilterOperator.equal.takesArray = false := rfl
  simp [compileFlag, bind_eq_ok, fieldPath_eq_ok_iff, FieldFilter.new_eq_ok_iff single,
    Value.isSentinel]

/-- An atom is compiled to its clause. -/
theorem map_singleton_eq_ok_iff {atom : Expr} {x : Except PlanFault FieldFilter}
    (made : ∀ filter, x = .ok filter ↔ Clause atom filter) :
    x.map ([·]) = .ok filters ↔ List.Forall₂ Clause [atom] filters := by
  rw [map_eq_ok, List.forall₂_cons_left_iff]
  constructor
  · rintro ⟨filter, ok, rfl⟩
    exact ⟨filter, [], (made filter).mp ok, .nil, rfl⟩
  · rintro ⟨filter, _, clause, ⟨⟩, rfl⟩
    exact ⟨filter, (made filter).mpr clause, rfl⟩

theorem forall₂_append_iff {first second : List Expr} :
    List.Forall₂ Clause (first ++ second) filters ↔
      ∃ before after, List.Forall₂ Clause first before ∧ List.Forall₂ Clause second after ∧
        filters = before ++ after := by
  constructor
  · intro clauses
    induction first generalizing filters with
    | nil => exact ⟨[], filters, .nil, clauses, rfl⟩
    | cons atom first ih =>
      obtain ⟨filter, rest, clause, others, rfl⟩ := List.forall₂_cons_left_iff.mp clauses
      obtain ⟨before, after, left, right, rfl⟩ := ih others
      exact ⟨filter :: before, after, .cons clause left, right, rfl⟩
  · rintro ⟨before, after, left, right, rfl⟩
    exact List.rel_append left right

theorem exists_clauses_iff {atoms : List Expr} :
    (∃ filters, List.Forall₂ Clause atoms filters) ↔ ∀ atom ∈ atoms, ∃ filter, Clause atom filter :=
  exists_forall₂_iff

/-- What is neither compiled nor an atom. -/
theorem error_eq_ok_iff {e : Expr} {fault : PlanFault} (noClause : ∀ filter, ¬ Clause e filter) :
    Except.error fault = .ok filters ↔ List.Forall₂ Clause [e] filters := by
  rw [List.forall₂_cons_left_iff]
  constructor
  · nofun
  · rintro ⟨filter, _, clause, -⟩
    exact absurd clause (noClause filter)

mutual

/-- The clauses of an expression are those of its atoms. The induction goes through the negations in
turn with what stands below them. -/
theorem compile_eq_ok_iff (e : Expr) {filters : List FieldFilter} :
    e.compile = .ok filters ↔ List.Forall₂ Clause e.atoms filters := by
  cases e with
  | and left right =>
    rw [compile, atoms, forall₂_append_iff]
    constructor
    · intro compiled
      split at compiled
      · cases compiled
      · rename_i before first
        split at compiled
        · cases compiled
        · rename_i after second
          cases compiled
          exact ⟨before, after, (compile_eq_ok_iff left).mp first,
            (compile_eq_ok_iff right).mp second, rfl⟩
    · rintro ⟨before, after, first, second, rfl⟩
      rw [(compile_eq_ok_iff left).mpr first, (compile_eq_ok_iff right).mpr second]
  | or left right => exact error_eq_ok_iff nofun
  | compare op left right =>
    refine map_singleton_eq_ok_iff fun filter => compileComparison_eq_ok_iff.trans ?_
    exact ⟨.compare, fun | .compare clause => clause⟩
  | contains collection element =>
    exact map_singleton_eq_ok_iff fun filter => compileContains_eq_ok_iff
  | not inner => exact compileNegation_eq_ok_iff inner
  | field name =>
    refine map_singleton_eq_ok_iff fun filter => compileFlag_eq_ok_iff.trans ?_
    constructor
    · rintro ⟨path, named, rfl⟩
      exact .flag named
    · exact fun | .flag named => ⟨_, named, rfl⟩
  | constant v => exact error_eq_ok_iff nofun
  | captured v => exact error_eq_ok_iff nofun
  | list items => exact error_eq_ok_iff nofun
  | arithmetic op left right => exact error_eq_ok_iff nofun
termination_by structural e

theorem compileNegation_eq_ok_iff (e : Expr) {filters : List FieldFilter} :
    e.compileNegation = .ok filters ↔ List.Forall₂ Clause (Expr.not e).atoms filters := by
  cases e with
  | not inner => exact compile_eq_ok_iff inner
  | compare op left right =>
    cases op with
    | eq =>
      refine map_singleton_eq_ok_iff fun filter => compileComparison_eq_ok_iff.trans ?_
      exact ⟨.notEqual, fun | .notEqual clause => clause⟩
    | ne =>
      refine map_singleton_eq_ok_iff fun filter => compileComparison_eq_ok_iff.trans ?_
      exact ⟨.notDifferent, fun | .notDifferent clause => clause⟩
    | _ => exact error_eq_ok_iff nofun
  | contains collection element =>
    exact map_singleton_eq_ok_iff fun filter => compileContains_negated_eq_ok_iff
  | field name =>
    refine map_singleton_eq_ok_iff fun filter => compileFlag_eq_ok_iff.trans ?_
    constructor
    · rintro ⟨path, named, rfl⟩
      exact .notFlag named
    · exact fun | .notFlag named => ⟨_, named, rfl⟩
  | and left right => exact error_eq_ok_iff nofun
  | or left right => exact error_eq_ok_iff nofun
  | constant v => exact error_eq_ok_iff nofun
  | captured v => exact error_eq_ok_iff nofun
  | list items => exact error_eq_ok_iff nofun
  | arithmetic op left right => exact error_eq_ok_iff nofun
termination_by structural e

end

/-- An expression can be compiled exactly if it is a predicate. Then it has one clause for each of its
atoms, in the order in which the atoms are written. What is refused is refused as no plan. -/
theorem compiles_iff_isPredicate (e : Expr) :
    ((∃ filters, e.compile = .ok filters) ↔ IsPredicate e) ∧
      (∀ filters, e.compile = .ok filters → List.Forall₂ Clause e.atoms filters) ∧
      ∀ (query : Query) (error : Error), query.apply (.matching e) = .error error →
        error.code = .invalidPlan := by
  refine ⟨?_, fun filters => (compile_eq_ok_iff e).mp, fun query error refused => ?_⟩
  · simp only [compile_eq_ok_iff, isPredicate_iff]
    exact exists_clauses_iff
  · rw [Query.apply] at refused
    cases compiled : e.compile with
    | ok filters =>
      rw [compiled] at refused
      cases refused
    | error fault =>
      rw [compiled] at refused
      cases refused
      rfl

end Expr

end DocumentStore
