import DocumentStore.Proofs.Query.Execution

/-! # Whatever is asked of the builder

Calls of the builder come in any order, and a call that is refused leaves the query as it was. What has
become of a query in the end is accepted wherever it goes: it can be run over documents, and it can be
sent unless it has an offset. -/

namespace DocumentStore

/-- A call of the builder, where a field may also be given as a field path. -/
inductive Narrowing where
  | call (call : BuildCall)
  | filter (field : FieldPath) (operator : FilterOperator) (operand : Value)
  | order (order : OrderBy)

namespace Query

/-- The query after a call, if the call is not refused. -/
def narrow? (query : Query) : Narrowing → Except Error Query
  | .call call => query.apply call
  | .filter field operator operand => do
    let filter ← (FieldFilter.new field operator operand).mapError .plan
    return query.addFilters [filter]
  | .order order => .ok (query.addOrder order)

/-- The query after a call, where a refused call changes nothing. -/
def narrow (query : Query) (narrowing : Narrowing) : Query :=
  match query.narrow? narrowing with
  | .ok next => next
  | .error _ => query

/-- The query after some calls, where refused calls change nothing. -/
def narrowAll (query : Query) (narrowings : List Narrowing) : Query := narrowings.foldl narrow query

variable {query next : Query}

private theorem Built.narrow? {narrowing : Narrowing} (built : query.Built)
    (narrowed : query.narrow? narrowing = .ok next) : next.Built := by
  cases narrowing with
  | call call => exact built.call narrowed
  | filter field operator operand =>
    obtain ⟨filter, made, narrowed⟩ := bind_eq_ok.mp narrowed
    cases narrowed
    exact built.filter (mapError_eq_ok.mp made)
  | order order =>
    cases narrowed
    exact built.order order

private theorem Built.narrow (built : query.Built) (narrowing : Narrowing) :
    (query.narrow narrowing).Built := by
  unfold Query.narrow
  split
  · rename_i next narrowed
    exact built.narrow? narrowed
  · exact built

private theorem Built.narrowAll (built : query.Built) (narrowings : List Narrowing) :
    (query.narrowAll narrowings).Built := by
  induction narrowings generalizing query with
  | nil => exact built
  | cons narrowing narrowings ih => exact ih (built.narrow narrowing)

theorem exists_run_eq_ok (valid : query.plan.validate = .ok ()) (documents : List Snapshot) :
    ∃ result, query.run documents = .ok result := by
  rw [Query.run, valid]
  exact ⟨_, rfl⟩

/-- Of the queries whose plan is valid only those with an offset are refused for their plan when they are
to be sent. -/
theorem refused_as_plan_iff (valid : query.plan.validate = .ok ()) :
    (∃ fault, Wire.encodeStructuredQuery query = .error fault ∧
        (Error.ofRequest fault).code = .invalidPlan) ↔ query.plan.offset.isSome := by
  rw [Wire.encodeStructuredQuery, valid]
  cases offset : query.plan.offset with
  | some n =>
    constructor
    · exact fun _ => rfl
    · exact fun _ => ⟨_, rfl, rfl⟩
  | none =>
    constructor
    · rintro ⟨fault, refused, code⟩
      cases members : Wire.structuredMembers query with
      | ok _ =>
        rw [members] at refused
        cases refused
      | error valueFault =>
        rw [members] at refused
        cases refused
        cases code
    · nofun

/-- Whatever calls are made, the query has all that the builder guarantees. So it is never refused when
it is run, and when it is sent it is refused for its plan only if it has an offset. -/
theorem narrowAll_accepted {path : String} (opened : Query.ofCollection path = .ok query)
    (narrowings : List Narrowing) :
    let narrowed := query.narrowAll narrowings
    narrowed.plan.validate = .ok () ∧ narrowed.WellFormed ∧
      (∀ documents, ∃ result, narrowed.run documents = .ok result) ∧
      ((∃ fault, Wire.encodeStructuredQuery narrowed = .error fault ∧
          (Error.ofRequest fault).code = .invalidPlan) ↔ narrowed.plan.offset.isSome) := by
  intro narrowed
  have built : narrowed.Built := (Built.collection opened).narrowAll narrowings
  have valid := built.validate
  exact ⟨valid, built.wellFormed, exists_run_eq_ok valid, refused_as_plan_iff valid⟩

def allRooms : Query := ⟨⟨["rooms"]⟩, .empty⟩

/-- Every other call is refused: there is no ordering yet, no candidate, a value too many, no limit. -/
def haggling : List Narrowing :=
  [.call (.limitToLast 2), .call (.field "size" .lessThan (.integer 5)),
    .filter ⟨["doors"], by decide, by decide⟩ .isIn (.array []), .call (.orderBy "size" .descending),
    .call (.cursor .startAfter [.integer 4, .integer 1]), .call (.cursor .startAfter [.integer 4]),
    .call (.limit 0), .call (.limitToLast 2)]

theorem narrowAll_accepted_haggling :
    ofCollection "rooms" = .ok allRooms ∧ allRooms.narrowAll haggling = smallRooms ∧
      smallRooms.plan.validate = .ok () ∧ smallRooms.WellFormed ∧
      (∀ documents, ∃ result, smallRooms.run documents = .ok result) ∧
      ((∃ fault, Wire.encodeStructuredQuery smallRooms = .error fault ∧
          (Error.ofRequest fault).code = .invalidPlan) ↔ smallRooms.plan.offset.isSome) := by
  have opened : ofCollection "rooms" = .ok allRooms := by cbv
  have narrowed : allRooms.narrowAll haggling = smallRooms := by cbv
  have accepted := narrowAll_accepted opened haggling
  rw [narrowed] at accepted
  exact ⟨opened, narrowed, accepted⟩

end Query

end DocumentStore
