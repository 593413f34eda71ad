import DocumentStore.Proofs.Order.Sorting
import DocumentStore.Proofs.Query.Order

/-! # Positions in the order of a query

What it means that one document comes before another, or that it lies before or after a cursor, said
in terms of single values: the first field in which they differ decides, in the direction of that
field. The comparisons that queries run by are shown to say the same. -/

namespace DocumentStore

/-- Two values that are compared at a field of an ordering. -/
structure Meeting where
  direction : Direction
  left : Value
  right : Value

namespace Meeting

def Ties (m : Meeting) : Prop := m.left.order m.right = .eq

def Before (m : Meeting) : Prop :=
  match m.direction with
  | .ascending => m.left.order m.right = .lt
  | .descending => m.left.order m.right = .gt

def After (m : Meeting) : Prop :=
  match m.direction with
  | .ascending => m.left.order m.right = .gt
  | .descending => m.left.order m.right = .lt

/-- All values agree up to a meeting of the given kind. -/
def FirstDiffering (kind : Meeting → Prop) (meetings : List Meeting) : Prop :=
  ∃ earlier m later, meetings = earlier ++ m :: later ∧ (∀ e ∈ earlier, e.Ties) ∧ kind m

/-- The meetings of two documents at the fields of an ordering. -/
def ofDocuments (orders : List OrderBy) (s t : Snapshot) : List Meeting :=
  orders.map fun order => ⟨order.direction, order.value s, order.value t⟩

/-- The meetings of a document with a cursor, at the fields for which the cursor has values. -/
def withCursor (orders : List OrderBy) (values : List Value) (s : Snapshot) : List Meeting :=
  orders.zipWith (fun order v => ⟨order.direction, order.value s, order.cursorValue s v⟩) values

/-- The outcome of a meeting in the direction of its field. -/
def outcome (m : Meeting) : Ordering := m.direction.apply (m.left.order m.right)

variable {m : Meeting} {meetings : List Meeting}

theorem outcome_eq_eq : m.outcome = .eq ↔ m.Ties := m.direction.apply_eq_eq

private theorem outcome_eq_lt : m.outcome = .lt ↔ m.Before := by
  unfold outcome Before
  cases m.direction <;> simp [Direction.apply]

private theorem outcome_eq_gt : m.outcome = .gt ↔ m.After := by
  unfold outcome After
  cases m.direction <;> simp [Direction.apply]

/-- The outcomes of several meetings, the first that is no tie deciding. -/
def decided (meetings : List Meeting) : Ordering := meetings.foldr (fun m o => m.outcome.then o) .eq

@[simp] theorem decided_nil : decided [] = .eq := rfl

@[simp] theorem decided_cons (m : Meeting) (meetings : List Meeting) :
    decided (m :: meetings) = m.outcome.then (decided meetings) := rfl

theorem decided_eq_eq : decided meetings = .eq ↔ ∀ m ∈ meetings, m.Ties := by
  induction meetings with
  | nil => simp
  | cons m meetings ih => simp [Ordering.then_eq_eq, outcome_eq_eq, ih]

private theorem firstDiffering_cons {kind : Meeting → Prop} :
    FirstDiffering kind (m :: meetings) ↔ kind m ∨ m.Ties ∧ FirstDiffering kind meetings := by
  constructor
  · rintro ⟨earlier, d, later, split, ties, hd⟩
    cases earlier with
    | nil =>
      cases split
      exact .inl hd
    | cons e earlier =>
      cases split
      simp only [List.mem_cons, forall_eq_or_imp] at ties
      exact .inr ⟨ties.1, earlier, d, later, rfl, ties.2, hd⟩
  · rintro (hm | ⟨tie, earlier, d, later, rfl, ties, hd⟩)
    · exact ⟨[], m, meetings, rfl, by simp, hm⟩
    · exact ⟨m :: earlier, d, later, rfl, by simp [tie]; exact ties, hd⟩

/-- An outcome other than a tie is that of the first meeting that is no tie. -/
theorem decided_eq_iff {o : Ordering} {kind : Meeting → Prop} (ne : o ≠ .eq)
    (outcome_eq : ∀ m, outcome m = o ↔ kind m) :
    decided meetings = o ↔ FirstDiffering kind meetings := by
  induction meetings with
  | nil => simpa [FirstDiffering] using ne.symm
  | cons m meetings ih =>
    rw [firstDiffering_cons, ← ih, ← outcome_eq, ← outcome_eq_eq, decided_cons]
    cases h : m.outcome <;> cases o <;> simp_all

theorem decided_eq_lt : decided meetings = .lt ↔ FirstDiffering Before meetings :=
  decided_eq_iff nofun fun _ => outcome_eq_lt

private theorem decided_eq_gt : decided meetings = .gt ↔ FirstDiffering After meetings :=
  decided_eq_iff nofun fun _ => outcome_eq_gt

private theorem compareByChain_eq (orders : List OrderBy) (s t : Snapshot) :
    compareByChain orders s t = decided (ofDocuments orders s t) := by
  induction orders with
  | nil => rfl
  | cons order orders ih =>
    rw [compareByChain, ih]
    rfl

theorem compareToBound_eq (orders : List OrderBy) (values : List Value) (s : Snapshot) :
    compareToBound orders values s = decided (withCursor orders values s) := by
  induction orders generalizing values with
  | nil => rfl
  | cons order orders ih =>
    cases values with
    | nil => rfl
    | cons v values =>
      rw [compareToBound, ih]
      rfl

end Meeting

theorem ResourcePath.order_eq_lt {a b : ResourcePath} :
    a.order b = .lt ↔ a.segments < b.segments := by
  obtain ⟨as⟩ := a
  obtain ⟨bs⟩ := b
  unfold order
  dsimp only
  induction as generalizing bs with
  | nil => cases bs <;> simp [lexOrder]
  | cons a as ih =>
    cases bs with
    | nil => simp [lexOrder]
    | cons b bs =>
      rw [lexOrder, Ordering.then_eq_lt, ih, List.cons_lt_cons_iff, Std.LawfulEqOrd.compare_eq_iff_eq]
      exact or_congr_left compareOfLessAndEq_eq_lt

open Meeting

/-- One document comes before another: the first field in which they differ says so, or they agree
in every field and the path says so. -/
def Precedes (orders : List OrderBy) (s t : Snapshot) : Prop :=
  FirstDiffering Before (ofDocuments orders s t) ∨
    (∀ m ∈ ofDocuments orders s t, m.Ties) ∧ s.key.path.segments < t.key.path.segments

/-- A cursor comes after a document. -/
def Bound.Follows (bound : Bound) (orders : List OrderBy) (s : Snapshot) : Prop :=
  FirstDiffering Before (withCursor orders bound.values s)

/-- A cursor comes before a document. -/
def Bound.Leads (bound : Bound) (orders : List OrderBy) (s : Snapshot) : Prop :=
  FirstDiffering After (withCursor orders bound.values s)

/-- A cursor has a document at its position. -/
def Bound.Meets (bound : Bound) (orders : List OrderBy) (s : Snapshot) : Prop :=
  ∀ m ∈ withCursor orders bound.values s, m.Ties

theorem compareDocuments_eq_lt {orders : List OrderBy} {s t : Snapshot} :
    compareDocuments orders s t = .lt ↔ Precedes orders s t := by
  rw [compareDocuments, Ordering.then_eq_lt, compareByChain_eq, decided_eq_lt, decided_eq_eq,
    ResourcePath.order_eq_lt]
  rfl

theorem Bound.admitsFrom_iff {bound : Bound} {orders : List OrderBy} {s : Snapshot} :
    bound.admitsFrom orders s ↔
      bound.Leads orders s ∨ bound.inclusive ∧ bound.Meets orders s := by
  unfold admitsFrom Leads Meets
  rw [← decided_eq_gt, ← decided_eq_eq, compareToBound_eq]
  cases decided (withCursor orders bound.values s) <;> simp

theorem Bound.admitsUpTo_iff {bound : Bound} {orders : List OrderBy} {s : Snapshot} :
    bound.admitsUpTo orders s ↔
      bound.Follows orders s ∨ bound.inclusive ∧ bound.Meets orders s := by
  unfold admitsUpTo Follows Meets
  rw [← decided_eq_lt, ← decided_eq_eq, compareToBound_eq]
  cases decided (withCursor orders bound.values s) <;> simp

end DocumentStore
