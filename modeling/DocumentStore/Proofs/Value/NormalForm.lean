import DocumentStore.Proofs.Value.Equality

/-! # Equality up to the way in which numbers are written

Equality is read off an order in which integers meet doubles and both zeros share a place. On values
without markers whose integers are doubles exactly it says no more than that: two values are equal if
and only if they become the same once every number is written in one way. So equal values cannot be
told apart by comparing them or what they stand in. -/

namespace DocumentStore

namespace Double

/-- The number with a positive zero in place of a negative one. -/
def normal : Double → Double
  | .nan => .nan
  | .signed negative rank rank_le =>
    if rank = 0 then .signed false 0 (Nat.zero_le _) else .signed negative rank rank_le

theorem normal_eq_iff {a b : Double} : a.normal = b.normal ↔ a.place? = b.place? := by
  cases a with
  | nan =>
    cases b with
    | nan => simp
    | signed negative rank _ => by_cases zero : rank = 0 <;> simp [normal, place?, zero]
  | signed negative rank _ =>
    cases b with
    | nan => by_cases zero : rank = 0 <;> simp [normal, place?, zero]
    | signed negative' rank' _ =>
      by_cases zero : rank = 0 <;> by_cases zero' : rank' = 0 <;>
        cases negative <;> cases negative' <;> simp [normal, place?, zero, zero'] <;> omega

private theorem order_eq_eq_iff {a b : Double} : a.order b = .eq ↔ a.normal = b.normal := by
  rw [normal_eq_iff, order]
  cases a.place? <;> cases b.place? <;> simp

theorem normal_ofInt {n : Int} (le : n.natAbs ≤ exactBound) : (ofInt n).normal = ofInt n := by
  have whole : min (nearestRank n.natAbs 1) infinityRank = nearestRank n.natAbs 1 :=
    Nat.min_eq_left (nearestRank_le_infinity le)
  by_cases negative : n < 0
  · have positive : nearestRank 0 1 < nearestRank n.natAbs 1 :=
      nearestRank_lt_of_lt (Int.natAbs_pos.mpr negative.ne) le
    have nonzero : nearestRank n.natAbs 1 ≠ 0 := Nat.ne_of_gt positive
    simp [ofInt, nearest, ofRank, normal, whole, nonzero]
  · by_cases zero : nearestRank n.natAbs 1 = 0 <;>
      simp [ofInt, nearest, ofRank, normal, whole, negative, zero]

end Double

namespace Number

def normal : Number → Double
  | .integer n => .ofInt n.toInt
  | .double d => d.normal

private theorem normal_eq {a : Number} (ha : a.isExact) : a.normal = a.toDouble.normal := by
  cases a with
  | integer n => exact (Double.normal_ofInt (of_decide_eq_true ha)).symm
  | double d => rfl

private theorem order_eq_eq_iff {a b : Number} (ha : a.isExact) (hb : b.isExact) :
    a.order b = .eq ↔ a.normal = b.normal := by
  rw [order_toDouble ha hb, Double.order_eq_eq_iff, normal_eq ha, normal_eq hb]

end Number

private theorem Timestamp.order_eq_eq_iff {a b : Timestamp} : a.order b = .eq ↔ a = b := by
  cases a
  cases b
  simp [order, Ordering.then_eq_eq]

namespace Value

mutual

/-- The value with every integer, at any depth, written as the double with the same value and every zero
without a sign. -/
def normal : Value → Value
  | .integer n => .double (.ofInt n.toInt)
  | .double d => .double d.normal
  | .array elements => .array (normalList elements)
  | .map fields => .map (normalFields fields)
  | v => v

/-- The values of a list in normal form. -/
def normalList : List Value → List Value
  | [] => []
  | v :: vs => normal v :: normalList vs

/-- The fields with their values in normal form. -/
def normalFields : Entries Value → Entries Value
  | [] => []
  | (key, v) :: fields => (key, normal v) :: normalFields fields

end

private theorem normalList_eq_map (vs : List Value) : normalList vs = vs.map normal := by
  induction vs with
  | nil => rfl
  | cons v vs ih => rw [normalList, ih, List.map_cons]

private theorem normalFields_eq_map (fields : Fields) :
    normalFields fields = fields.map fun entry => (entry.1, normal entry.2) := by
  induction fields with
  | nil => rfl
  | cons entry fields ih => rw [normalFields, ih, List.map_cons]

theorem rank_normal (v : Value) : v.normal.rank = v.rank := by cases v <;> rfl

private theorem normal_of_number {v : Value} {n : Number} (number : v.number? = some n) :
    v.normal = .double n.normal := by
  cases v <;> cases number <;> rfl

/-- Values without markers whose integers, at any depth, are doubles exactly. -/
structure Regular (v : Value) : Prop where
  plain : v.isPlain
  exact : v.isExact

variable {x y : Value} {elements : List Value} {fields : Fields}

theorem regular_array : (array elements).Regular ↔ ∀ v ∈ elements, v.Regular := by
  constructor
  · rintro ⟨plain, exact⟩ v mem
    exact ⟨allPlain_iff.mp plain v mem, allExact_iff.mp exact v mem⟩
  · intro each
    exact ⟨allPlain_iff.mpr fun v mem => (each v mem).plain,
      allExact_iff.mpr fun v mem => (each v mem).exact⟩

theorem regular_map : (map fields).Regular ↔ ∀ entry ∈ fields, entry.2.Regular := by
  constructor
  · rintro ⟨plain, exact⟩ entry mem
    exact ⟨allPlainFields_iff.mp plain entry mem, allExactFields_iff.mp exact entry mem⟩
  · intro each
    exact ⟨allPlainFields_iff.mpr fun entry mem => (each entry mem).plain,
      allExactFields_iff.mpr fun entry mem => (each entry mem).exact⟩

private theorem numbers_tie_iff {m n : Number} (hx : x.number? = some m) (hy : y.number? = some n)
    (ex : x.isExact) (ey : y.isExact) : order x y = .eq ↔ x.normal = y.normal := by
  rw [order_numbers hx hy, normal_of_number hx, normal_of_number hy, double.injEq]
  exact Number.order_eq_eq_iff (isExact_number hx ▸ ex) (isExact_number hy ▸ ey)

mutual

/-- Regular values tie only if their normal forms are the same. -/
theorem order_eq_eq_iff_normal (x y : Value) (hx : x.Regular) (hy : y.Regular) :
    order x y = .eq ↔ x.normal = y.normal := by
  by_cases same : x.rank = y.rank
  · have kind : y.HasRank x.rank := same ▸ y.hasRank_rank
    cases x with
    | null =>
      obtain rfl := kind
      exact iff_of_true rfl rfl
    | boolean a =>
      obtain ⟨b, rfl⟩ := kind
      simp [order, normal]
    | integer a =>
      obtain ⟨n, number⟩ := kind
      exact numbers_tie_iff rfl number hx.exact hy.exact
    | double a =>
      obtain ⟨n, number⟩ := kind
      exact numbers_tie_iff rfl number hx.exact hy.exact
    | timestamp a =>
      obtain ⟨b, rfl⟩ := kind
      simp [order, normal, Timestamp.order_eq_eq_iff]
    | string a =>
      obtain ⟨b, rfl⟩ := kind
      simp [order, normal]
    | bytes a =>
      obtain ⟨b, rfl⟩ := kind
      simp only [order, normal, bytes.injEq]
      exact lexOrder_eq_iff (fun _ _ => Std.LawfulEqOrd.compare_eq_iff_eq) a b
    | reference a =>
      obtain ⟨b, rfl⟩ := kind
      simp [order, normal]
    | array as =>
      obtain ⟨bs, rfl⟩ := kind
      rw [order, normal, normal, array.injEq]
      exact orderList_eq_eq_iff_normal as bs (regular_array.mp hx) (regular_array.mp hy)
    | map as =>
      obtain ⟨bs, rfl⟩ := kind
      rw [order, normal, normal, map.injEq]
      exact orderFields_eq_eq_iff_normal as bs (regular_map.mp hx) (regular_map.mp hy)
    | _ => cases hx.plain
  · rw [order_of_rank_ne same]
    refine iff_of_false (fun tie => same (Nat.compare_eq_eq.mp tie)) fun forms => same ?_
    rw [← rank_normal x, forms, rank_normal]
termination_by structural x

theorem orderList_eq_eq_iff_normal (as bs : List Value) (ha : ∀ v ∈ as, v.Regular)
    (hb : ∀ v ∈ bs, v.Regular) : orderList as bs = .eq ↔ normalList as = normalList bs := by
  cases as with
  | nil => cases bs <;> simp [orderList, normalList]
  | cons a as =>
    cases bs with
    | nil => simp [orderList, normalList]
    | cons b bs =>
      obtain ⟨firstA, restA⟩ := List.forall_mem_cons.mp ha
      obtain ⟨firstB, restB⟩ := List.forall_mem_cons.mp hb
      rw [orderList, normalList, normalList, Ordering.then_eq_eq, List.cons.injEq,
        order_eq_eq_iff_normal a b firstA firstB, orderList_eq_eq_iff_normal as bs restA restB]
termination_by structural as

theorem orderFields_eq_eq_iff_normal (as bs : Entries Value) (ha : ∀ entry ∈ as, entry.2.Regular)
    (hb : ∀ entry ∈ bs, entry.2.Regular) :
    orderFields as bs = .eq ↔ normalFields as = normalFields bs := by
  cases as with
  | nil => cases bs <;> simp [orderFields, normalFields]
  | cons a as =>
    obtain ⟨k, a⟩ := a
    cases bs with
    | nil => simp [orderFields, normalFields]
    | cons b bs =>
      obtain ⟨l, b⟩ := b
      obtain ⟨firstA, restA⟩ := List.forall_mem_cons.mp ha
      obtain ⟨firstB, restB⟩ := List.forall_mem_cons.mp hb
      rw [orderFields, normalFields, normalFields, Ordering.then_eq_eq, Ordering.then_eq_eq,
        Std.LawfulEqOrd.compare_eq_iff_eq, List.cons.injEq, Prod.mk.injEq,
        order_eq_eq_iff_normal a b firstA firstB, orderFields_eq_eq_iff_normal as bs restA restB]
termination_by structural as

end

private theorem equal_iff_order (hx : x.Regular) (hy : y.Regular) : x.equal y ↔ order x y = .eq := by
  simp [equal, isSentinel_of_isPlain hx.plain, isSentinel_of_isPlain hy.plain]

private theorem equal_iff_normal (hx : x.Regular) (hy : y.Regular) :
    x.equal y ↔ x.normal = y.normal := by
  rw [equal_iff_order hx hy, order_eq_eq_iff_normal x y hx hy]

/-- What stands around a place in a value. -/
inductive Surroundings where
  | nothing
  | element (before : List Value) (place : Surroundings) (after : List Value)
  | field (before : Entries Value) (key : String) (place : Surroundings) (after : Entries Value)

/-- The value that has another one at the place. -/
def Surroundings.around : Surroundings → Value → Value
  | .nothing, v => v
  | .element before place after, v => .array (before ++ place.around v :: after)
  | .field before key place after, v => .map (before ++ (key, place.around v) :: after)

private theorem normal_around (forms : x.normal = y.normal) (s : Surroundings) :
    (s.around x).normal = (s.around y).normal := by
  induction s with
  | nothing => exact forms
  | element before place after ih =>
    simp only [Surroundings.around, normal, normalList_eq_map, List.map_append, List.map_cons, ih]
  | field before key place after ih =>
    simp only [Surroundings.around, normal, normalFields_eq_map, List.map_append, List.map_cons, ih]

theorem Regular.around {s : Surroundings} (whole : (s.around x).Regular) (hy : y.Regular) :
    (s.around y).Regular := by
  induction s with
  | nothing => exact hy
  | element before place after ih =>
    simp only [Surroundings.around, regular_array, List.forall_mem_append, List.forall_mem_cons]
      at whole ⊢
    exact ⟨whole.1, ih whole.2.1, whole.2.2⟩
  | field before key place after ih =>
    simp only [Surroundings.around, regular_map, List.forall_mem_append, List.forall_mem_cons]
      at whole ⊢
    exact ⟨whole.1, ih whole.2.1, whole.2.2⟩

/-- No comparison with a regular value tells two values apart, whichever side they are on. -/
def ComparesLike (x y : Value) : Prop :=
  ∀ z : Value, z.Regular →
    (order x z = order y z ∧ order z x = order z y) ∧
      (x.equal z = y.equal z ∧ z.equal x = z.equal y) ∧
        (x.orderWithinKind? z = y.orderWithinKind? z ∧ z.orderWithinKind? x = z.orderWithinKind? y)

private theorem comparesLike_of_normal (hx : x.Regular) (hy : y.Regular) (forms : x.normal = y.normal) :
    ComparesLike x y := by
  intro z hz
  have tie : order x y = .eq := (order_eq_eq_iff_normal x y hx hy).mpr forms
  have left : order x z = order y z := (order_composes x y z hx.exact hy.exact hz.exact).1 tie
  have right : order z x = order z y := by rw [← order_swap x z, left, order_swap]
  have kind : x.rank = y.rank := by rw [← rank_normal x, forms, rank_normal]
  have plainX := isSentinel_of_isPlain hx.plain
  have plainY := isSentinel_of_isPlain hy.plain
  refine ⟨⟨left, right⟩, ⟨?_, ?_⟩, ?_, ?_⟩
  · rw [equal, equal, plainX, plainY, isSentinel_of_isPlain hz.plain, left]
    rfl
  · rw [equal, equal, plainX, plainY, right, isSentinel_of_isPlain hz.plain]
    rfl
  · rw [orderWithinKind?, orderWithinKind?, kind, plainX, plainY, left]
  · rw [orderWithinKind?, orderWithinKind?, kind, right]

/-- On regular values, equality is sameness of normal forms. So it is an equivalence, and when an equal
value takes the place of another one, at any depth of a value or as a candidate or as the value looked for
among candidates, then every comparison comes out as before. -/
theorem equality_up_to_numbers :
    (∀ x y : Value, x.Regular → y.Regular → (x.equal y ↔ x.normal = y.normal)) ∧
      Equivalence (fun x y : {v : Value // v.Regular} => (x.1.equal y.1 : Prop)) ∧
      ∀ x y : Value, x.Regular → y.Regular → x.equal y →
        (∀ s : Surroundings, (s.around x).Regular →
          (s.around x).equal (s.around y) ∧ ComparesLike (s.around x) (s.around y)) ∧
        (∀ elements : List Value, (∀ v ∈ elements, v.Regular) →
          x.containedIn elements = y.containedIn elements) ∧
        ∀ (before after : List Value) (needle : Value), needle.Regular →
          needle.containedIn (before ++ x :: after) = needle.containedIn (before ++ y :: after) := by
  refine ⟨fun x y => equal_iff_normal, ⟨?_, ?_, ?_⟩, ?_⟩
  · exact fun x => equal_self (isSentinel_of_isPlain x.2.plain)
  · intro x y same
    rwa [equal_comm]
  · intro x y z first second
    rw [equal_iff_normal x.2 y.2] at first
    rw [equal_iff_normal y.2 z.2] at second
    exact (equal_iff_normal x.2 z.2).mpr (first.trans second)
  · intro x y hx hy same
    have forms := (equal_iff_normal hx hy).mp same
    have alike := comparesLike_of_normal hx hy forms
    refine ⟨fun s whole => ?_, fun elements each => ?_, fun before after needle regular => ?_⟩
    · have replaced := whole.around hy
      have formsAround := normal_around forms s
      exact ⟨(equal_iff_normal whole replaced).mpr formsAround,
        comparesLike_of_normal whole replaced formsAround⟩
    · rw [Bool.eq_iff_iff, containedIn_iff, containedIn_iff]
      refine exists_congr fun candidate => and_congr_right fun mem => ?_
      rw [(alike candidate (each candidate mem)).2.1.2]
    · simp only [containedIn, List.any_append, List.any_cons, (alike needle regular).2.1.1]

/-- A list of zero and not-a-number. -/
def blanks (zero : Value) : Value := .array [zero, .double .nan]

def integerBlanks : Value := blanks (.integer 0)

/-- The same list with a negative zero. -/
def doubleBlanks : Value := blanks (.double (.ofRank true 0))

/-- The record of a desk in whose first drawer the list lies. -/
def desk : Surroundings :=
  .field [("colour", .string "green")] "drawers" (.element [] .nothing [.integer 3]) []

theorem equality_up_to_numbers_blanks :
    integerBlanks.Regular ∧ doubleBlanks.Regular ∧ integerBlanks.normal = doubleBlanks.normal ∧
      integerBlanks.equal doubleBlanks ∧ (desk.around integerBlanks).Regular ∧
      ComparesLike (desk.around integerBlanks) (desk.around doubleBlanks) ∧
      integerBlanks.containedIn [.null, doubleBlanks] = doubleBlanks.containedIn [.null, doubleBlanks] ∧
      (blanks .null).containedIn [integerBlanks, blanks .null]
        = (blanks .null).containedIn [doubleBlanks, blanks .null] := by
  have hx : integerBlanks.Regular := ⟨rfl, by decide⟩
  have hy : doubleBlanks.Regular := ⟨rfl, rfl⟩
  have forms : integerBlanks.normal = doubleBlanks.normal := by rfl
  have whole : (desk.around integerBlanks).Regular := ⟨rfl, by decide⟩
  obtain ⟨sameForm, -, replace⟩ := equality_up_to_numbers
  have same := (sameForm _ _ hx hy).mpr forms
  obtain ⟨place, needle, candidate⟩ := replace _ _ hx hy same
  refine ⟨hx, hy, forms, same, whole, (place desk whole).2, needle [.null, doubleBlanks] ?_,
    candidate [] [blanks .null] (blanks .null) ⟨rfl, rfl⟩⟩
  exact List.forall_mem_cons.mpr ⟨⟨rfl, rfl⟩, List.forall_mem_singleton.mpr hy⟩

end Value

end DocumentStore
