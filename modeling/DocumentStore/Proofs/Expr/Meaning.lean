import DocumentStore.Proofs.Query.Operators

/-! # What a predicate says of a document

A predicate is read on its tree as it is written: the sides of an atom denote values, a comparison
relates them in their written order, and a negation is read together with the atom below it. The clauses
into which a predicate is compiled, with swapped operators and without the tree, accept exactly the
documents of which the predicate holds. -/

namespace DocumentStore

/-- Two values stand in the relation of a comparison, in the order in which they are written. The order
operators relate values of one kind only. -/
def Comparison.Relates : Comparison → Value → Value → Prop
  | .eq, a, b => a.equal b
  | .ne, a, b => ¬ a.equal b
  | .lt, a, b => a.rank = b.rank ∧ a.order b = .lt
  | .le, a, b => a.rank = b.rank ∧ a.order b ≠ .gt
  | .gt, a, b => a.rank = b.rank ∧ a.order b = .gt
  | .ge, a, b => a.rank = b.rank ∧ a.order b ≠ .lt

namespace Expr

/-- A side of an atom has a value: a field that of the document, if it is present there, and anything
else the constant to which it folds. -/
def Denotes (s : Snapshot) : Expr → Value → Prop
  | .field name, v => ∃ path, FieldPath.ofString name = .ok path ∧ s.fieldValue? path = some v
  | e, v => e.reduce = .ok v

mutual

/-- The predicate is true of the document. -/
def Holds (s : Snapshot) : Expr → Prop
  | .and left right => Holds s left ∧ Holds s right
  | .not inner => Fails s inner
  | .field name => Denotes s (.field name) (.boolean true)
  | .compare op left right => ∃ a b, Denotes s left a ∧ Denotes s right b ∧ op.Relates a b
  | .contains collection element =>
    ∃ elements v, Denotes s collection (.array elements) ∧ Denotes s element v ∧
      ∃ candidate ∈ elements, candidate.equal v
  | _ => False

/-- The negation of the predicate is true of the document. The values that an atom compares have to be
there all the same. -/
def Fails (s : Snapshot) : Expr → Prop
  | .not inner => Holds s inner
  | .field name => Denotes s (.field name) (.boolean false)
  | .compare op left right => ∃ a b, Denotes s left a ∧ Denotes s right b ∧ ¬ op.Relates a b
  | .contains collection element =>
    ∃ elements v, Denotes s collection (.array elements) ∧ Denotes s element v ∧ v ≠ .null ∧
      ∀ candidate ∈ elements, ¬ candidate.equal v
  | _ => False

end

end Expr

namespace Comparison

variable {v c : Value}

theorem operator_holds (plain : c.isSentinel = false) (op : Comparison) :
    op.operator.holds v c ↔ op.Relates v c := by
  cases op <;> simp only [operator, FilterOperator.holds, Relates, Bool.or_eq_true, beq_iff_eq,
    Value.orderWithinKind?_eq_some plain, Bool.not_eq_true', Bool.not_eq_true]
  · cases v.order c <;> simp
  · cases v.order c <;> simp

theorem operator_swapped_holds (plain : c.isSentinel = false) (op : Comparison) :
    op.operator.swapped.holds v c ↔ op.Relates c v := by
  have kinds : c.rank = v.rank ↔ v.rank = c.rank := eq_comm
  have swap : c.order v = (v.order c).swap := (Value.order_swap v c).symm
  cases op <;> simp only [operator, FilterOperator.swapped, FilterOperator.holds, Relates,
    Bool.or_eq_true, beq_iff_eq, Value.orderWithinKind?_eq_some plain, Bool.not_eq_true',
    Bool.not_eq_true, kinds, swap, Value.equal_comm c v]
  all_goals cases v.order c <;> simp

end Comparison

namespace Expr

variable {s : Snapshot} {e left right collection element candidates operand : Expr} {name : String}
  {operator : FilterOperator} {op : Comparison} {filter : FieldFilter} {filters : List FieldFilter}
  {v c : Value}

/-- An expression that folds denotes its constant in every document. -/
theorem denotes_of_reduce (folded : e.reduce = .ok c) : Denotes s e v ↔ v = c := by
  have denoted : Denotes s e v ↔ e.reduce = .ok v := by
    cases e with
    | field name => cases folded
    | _ => rfl
  rw [denoted, folded, Except.ok.injEq, eq_comm]

theorem denotes_field {path : FieldPath} (read : fieldPath name = .ok path) :
    Denotes s (.field name) v ↔ s.fieldValue? path = some v := by
  replace read := mapError_eq_ok.mp read
  constructor
  · rintro ⟨other, again, found⟩
    cases read.symm.trans again
    exact found
  · intro found
    exact ⟨path, read, found⟩

/-- A clause accepts the documents in which the field stands in the relation to the operand. -/
theorem accepts_of_new {path : FieldPath} (read : fieldPath name = .ok path)
    (made : FieldFilter.new path operator c = .ok filter) :
    filter.accepts s ↔ ∃ v, Denotes s (.field name) v ∧ operator.holds v c := by
  obtain ⟨rfl, -, -⟩ := FieldFilter.of_new made
  simp only [FieldFilter.accepts_iff, denotes_field read]

/-- The constant of a clause is no marker. -/
theorem clause_eq_ok (made : clause name operator operand = .ok filter) :
    ∃ c, operand.reduce = .ok c ∧ c.isSentinel = false ∧
      ∀ s : Snapshot, filter.accepts s ↔ ∃ v, Denotes s (.field name) v ∧ operator.holds v c := by
  obtain ⟨path, read, made⟩ := bind_eq_ok.mp made
  obtain ⟨c, folded, made⟩ := bind_eq_ok.mp made
  obtain ⟨-, plain, -⟩ := FieldFilter.of_new made
  exact ⟨c, folded, plain, fun _ => accepts_of_new read made⟩

theorem accepts_compileComparison (made : compileComparison op left right = .ok filter) :
    filter.accepts s ↔ ∃ a b, Denotes s left a ∧ Denotes s right b ∧ op.Relates a b := by
  unfold compileComparison at made
  split at made
  · cases made
  · -- The field stands on the left.
    obtain ⟨c, folded, plain, accepts⟩ := clause_eq_ok made
    simp only [accepts, denotes_of_reduce folded, exists_eq_left, exists_and_left,
      Comparison.operator_holds plain]
  · -- The field stands on the right, and the operator was swapped.
    obtain ⟨c, folded, plain, accepts⟩ := clause_eq_ok made
    simp only [accepts, denotes_of_reduce folded, exists_eq_left, exists_and_left,
      Comparison.operator_swapped_holds plain]
  · cases made

theorem accepts_compileMembership {negated : Bool}
    (made : compileMembership candidates name negated = .ok filter) :
    ∃ elements, candidates.reduce = .ok (.array elements) ∧
      ∀ s : Snapshot, filter.accepts s ↔ ∃ v, Denotes s (.field name) v ∧
        (if negated then FilterOperator.notIn else .isIn).holds v (.array elements) := by
  obtain ⟨c, folded, made⟩ := bind_eq_ok.mp made
  split at made
  · rename_i elements
    obtain ⟨path, read, made⟩ := bind_eq_ok.mp made
    exact ⟨elements, folded, fun _ => accepts_of_new read made⟩
  · cases made

private theorem accepts_compileContains (made : compileContains collection element false = .ok filter) :
    filter.accepts s ↔ Holds s (.contains collection element) := by
  unfold compileContains at made
  split at made
  · cases made
  · -- The field holds the array.
    obtain ⟨c, folded, -, accepts⟩ := clause_eq_ok made
    simp only [accepts, Holds, FilterOperator.holds_arrayContains, denotes_of_reduce folded]
    constructor
    · rintro ⟨v, denoted, elements, rfl, found⟩
      exact ⟨elements, c, denoted, rfl, found⟩
    · rintro ⟨elements, _, denoted, rfl, found⟩
      exact ⟨_, denoted, elements, rfl, found⟩
  · -- The field is looked for in the list.
    obtain ⟨elements, folded, accepts⟩ := accepts_compileMembership made
    simp only [accepts, Holds, denotes_of_reduce folded, Value.array.injEq, exists_and_left,
      exists_eq_left, Bool.false_eq_true, if_false, FilterOperator.holds_isIn]
  · cases made

private theorem accepts_compileContains_negated
    (made : compileContains collection element true = .ok filter) :
    filter.accepts s ↔ Fails s (.contains collection element) := by
  unfold compileContains at made
  split at made
  · cases made
  · cases made
  · obtain ⟨elements, folded, accepts⟩ := accepts_compileMembership made
    simp only [accepts, Fails, denotes_of_reduce folded, Value.array.injEq, exists_and_left,
      exists_eq_left, if_true, FilterOperator.holds_notIn]
  · cases made

theorem accepts_compileFlag {b : Bool} (made : compileFlag name b = .ok filter) :
    filter.accepts s ↔ Denotes s (.field name) (.boolean b) := by
  obtain ⟨path, read, made⟩ := bind_eq_ok.mp made
  rw [accepts_of_new read made]
  simp only [FilterOperator.holds, Value.equal_boolean, exists_eq_right]

/-- A single clause says what the atom says. -/
theorem all_accepts_of_single {x : Except PlanFault FieldFilter} {reading : Prop}
    (atom : ∀ filter, x = .ok filter → (filter.accepts s ↔ reading))
    (compiled : x.map ([·]) = .ok filters) :
    (filters.all fun filter => filter.accepts s) ↔ reading := by
  obtain ⟨filter, made, rfl⟩ := map_eq_ok.mp compiled
  rw [List.all_cons, List.all_nil, Bool.and_true]
  exact atom filter made

mutual

theorem all_accepts_compile {e : Expr} {filters : List FieldFilter}
    (compiled : e.compile = .ok filters) :
    (filters.all fun filter => filter.accepts s) ↔ Holds s e := by
  cases e with
  | and left right =>
    rw [compile] at compiled
    split at compiled
    · cases compiled
    · rename_i first hfirst
      split at compiled
      · cases compiled
      · rename_i second hsecond
        cases compiled
        rw [List.all_append, Bool.and_eq_true, Holds, all_accepts_compile hfirst,
          all_accepts_compile hsecond]
  | not inner => exact all_accepts_compileNegation compiled
  | field name => exact all_accepts_of_single (fun _ => accepts_compileFlag) compiled
  | compare op left right =>
    exact all_accepts_of_single (fun _ => accepts_compileComparison) compiled
  | contains collection element =>
    exact all_accepts_of_single (fun _ => accepts_compileContains) compiled
  | or _ _ => cases compiled
  | constant _ => cases compiled
  | captured _ => cases compiled
  | list _ => cases compiled
  | arithmetic _ _ _ => cases compiled
termination_by structural e

theorem all_accepts_compileNegation {e : Expr} {filters : List FieldFilter}
    (compiled : e.compileNegation = .ok filters) :
    (filters.all fun filter => filter.accepts s) ↔ Fails s e := by
  cases e with
  | not inner => exact all_accepts_compile compiled
  | field name => exact all_accepts_of_single (fun _ => accepts_compileFlag) compiled
  | compare op left right =>
    cases op with
    | eq => exact all_accepts_of_single (fun _ => accepts_compileComparison) compiled
    | ne =>
      refine all_accepts_of_single (fun filter made => ?_) compiled
      simp only [accepts_compileComparison made, Fails, Comparison.Relates, not_not]
    | _ => cases compiled
  | contains collection element =>
    exact all_accepts_of_single (fun _ => accepts_compileContains_negated) compiled
  | and _ _ => cases compiled
  | or _ _ => cases compiled
  | constant _ => cases compiled
  | captured _ => cases compiled
  | list _ => cases compiled
  | arithmetic _ _ _ => cases compiled
termination_by structural e

end

/-- The clauses of a predicate that can be compiled accept a document, all of them, exactly if the
predicate holds of it. -/
theorem accepted_iff_holds {e : Expr} {filters : List FieldFilter} (compiled : e.compile = .ok filters)
    (s : Snapshot) : (∀ filter ∈ filters, filter.accepts s) ↔ e.Holds s := by
  rw [← List.all_eq_true]
  exact all_accepts_compile compiled

/-- The stock is below five, the item is not hidden and its state is not one of two. -/
def onOffer : Expr :=
  .and (.compare .gt (.constant (.integer 5)) (.field "stock"))
    (.and (.not (.not (.not (.field "hidden"))))
      (.not (.contains (.list [.constant (.string "sold"), .captured .null]) (.field "state"))))

def onOfferClauses : List FieldFilter :=
  [⟨⟨["stock"], by decide, by decide⟩, .lessThan, .integer 5⟩,
    ⟨⟨["hidden"], by decide, by decide⟩, .equal, .boolean false⟩,
    ⟨⟨["state"], by decide, by decide⟩, .notIn, .array [.string "sold", .null]⟩]

def lamp : Snapshot where
  key := ⟨⟨["items", "lamp"]⟩, by decide, by decide⟩
  fields? := some [("hidden", .boolean false), ("state", .string "new"), ("stock", .integer 3)]

theorem accepted_onOffer_lamp :
    onOffer.compile = .ok onOfferClauses ∧
      ((∀ filter ∈ onOfferClauses, filter.accepts lamp) ↔ onOffer.Holds lamp) ∧
      onOffer.Holds lamp := by
  have compiled : onOffer.compile = .ok onOfferClauses := by cbv
  have accepted : ∀ filter ∈ onOfferClauses, filter.accepts lamp := by decide
  exact ⟨compiled, accepted_iff_holds compiled lamp, (accepted_iff_holds compiled lamp).mp accepted⟩

end Expr

end DocumentStore
