import DocumentStore.Proofs.Number.Integers
import DocumentStore.Proofs.Value.Paths
import DocumentStore.Write.Apply
import Mathlib.Algebra.Order.BigOperators.Group.List
import Mathlib.Data.List.Infix

/-! # Increments by integers

An increment of an integer adds up to the ends of the range and stops there. A list of increments is
compared with the sum of its deltas in the integers without bounds: the two agree as long as no sum on the
way leaves the range, and also when all deltas have one sign, because then the sums move to one end only
and what was cut off there is not missed later. -/

namespace DocumentStore

/-- An integer, cut off at the ends of the range of sixty-four bits. -/
def clamped (n : Int) : Int := max (-2 ^ 63) (min n (2 ^ 63 - 1))

theorem clamped_of_isInt64 {n : Int} (fits : IsInt64 n) : clamped n = n := by
  obtain ⟨low, high⟩ := fits
  unfold clamped
  omega

/-- What was cut off at one end is not missed by a sum that moves on to that end. -/
theorem clamped_clamped_add {n d : Int} (low : -2 ^ 63 ≤ n ∨ d ≤ 0) (high : n < 2 ^ 63 ∨ 0 ≤ d) :
    clamped (clamped n + d) = clamped (n + d) := by
  unfold clamped
  omega

private theorem toInt_ofIntClamp (n : Int) : (Int64.ofIntClamp n).toInt = clamped n := by
  have least : Int64.minValue.toInt = -2 ^ 63 := rfl
  have most : Int64.maxValue.toInt = 2 ^ 63 - 1 := rfl
  unfold Int64.ofIntClamp clamped
  split
  · split
    · rw [Int64.toInt_ofIntLE]
      omega
    · omega
  · omega

/-- The sum of a start and some deltas, cut off after each of them. -/
def clampedSum (start : Int) (deltas : List Int) : Int :=
  deltas.foldl (fun sum d => clamped (sum + d)) start

theorem clampedSum_of_isInt64 {start : Int} {deltas : List Int}
    (fits : ∀ front, front <+: deltas → IsInt64 (start + front.sum)) :
    clampedSum start deltas = start + deltas.sum := by
  induction deltas generalizing start with
  | nil => exact (Int.add_zero start).symm
  | cons d deltas ih =>
    have first : IsInt64 (start + d) := by
      simpa using fits [d] (by simp)
    have others : ∀ front, front <+: deltas → IsInt64 (start + d + front.sum) := fun front isFront => by
      simpa [Int.add_assoc] using fits (d :: front) (List.prefix_cons_inj d |>.mpr isFront)
    calc clampedSum (clamped (start + d)) deltas
      _ = clampedSum (start + d) deltas := by rw [clamped_of_isInt64 first]
      _ = start + d + deltas.sum := ih others
      _ = start + (d :: deltas).sum := by rw [List.sum_cons, Int.add_assoc]

theorem clampedSum_of_sign {start : Int} {deltas : List Int} (fits : IsInt64 start)
    (sign : (∀ d ∈ deltas, 0 ≤ d) ∨ ∀ d ∈ deltas, d ≤ 0) :
    clampedSum start deltas = clamped (start + deltas.sum) := by
  induction deltas generalizing start with
  | nil =>
    show start = clamped (start + 0)
    rw [Int.add_zero, clamped_of_isInt64 fits]
  | cons d deltas ih =>
    have within : IsInt64 (clamped (start + d)) := by
      unfold IsInt64 clamped
      omega
    have merge : clamped (clamped (start + d) + deltas.sum) = clamped (start + d + deltas.sum) := by
      obtain ⟨low, high⟩ := fits
      rcases sign with up | down
      · have first := up d List.mem_cons_self
        have rest : 0 ≤ deltas.sum := by
          simpa using List.card_nsmul_le_sum deltas 0 fun e mem => up e (List.mem_cons_of_mem d mem)
        exact clamped_clamped_add (.inl (by omega)) (.inr rest)
      · have first := down d List.mem_cons_self
        have rest : deltas.sum ≤ 0 := by
          simpa using List.sum_le_card_nsmul deltas 0 fun e mem => down e (List.mem_cons_of_mem d mem)
        exact clamped_clamped_add (.inr rest) (.inl (by omega))
    have signRest := sign.imp (fun up e mem => up e (List.mem_cons_of_mem d mem))
      fun down e mem => down e (List.mem_cons_of_mem d mem)
    calc clampedSum (clamped (start + d)) deltas
      _ = clamped (clamped (start + d) + deltas.sum) := ih within signRest
      _ = clamped (start + d + deltas.sum) := merge
      _ = clamped (start + (d :: deltas).sum) := by rw [List.sum_cons, Int.add_assoc]

namespace Value

/-- The number that increments start from: an integer counts as itself, and what is no number or is not
there counts as zero. -/
def integerOrZero : Option Value → Int
  | some (.integer n) => n.toInt
  | _ => 0

private theorem isInt64_integerOrZero (field : Option Value) : IsInt64 (integerOrZero field) := by
  unfold integerOrZero
  split
  · exact isInt64_toInt _
  · decide

/-- An increment by a number, and the time at which it is written. -/
abbrev Increment := Timestamp × Int64

/-- A field after increments, one after another. -/
def afterIncrements (field : Option Value) (increments : List Increment) : Option Value :=
  increments.foldl (fun field i => resolve field i.1 (.increment (.integer i.2))) field

def deltas (increments : List Increment) : List Int := increments.map fun i => i.2.toInt

variable {field : Option Value} {increments : List Increment}

theorem exists_resolve_increment (notDouble : ∀ d, field ≠ some (.double d)) (now : Timestamp)
    (delta : Int64) :
    ∃ m : Int64, resolve field now (.increment (.integer delta)) = some (.integer m) ∧
      m.toInt = clamped (integerOrZero field + delta.toInt) := by
  have alone : delta.toInt = clamped (0 + delta.toInt) := by
    rw [Int.zero_add, clamped_of_isInt64 (isInt64_toInt delta)]
  cases field with
  | none => exact ⟨delta, rfl, alone⟩
  | some v =>
    cases v with
    | integer n => exact ⟨saturatingAdd n delta, rfl, toInt_ofIntClamp _⟩
    | double d => exact absurd rfl (notDouble d)
    | _ => exact ⟨delta, rfl, alone⟩

/-- By induction on the increments: once the field is an integer it remains one. -/
theorem exists_afterIncrements (notDouble : ∀ d, field ≠ some (.double d))
    (nonempty : increments ≠ []) :
    ∃ m : Int64, afterIncrements field increments = some (.integer m) ∧
      m.toInt = clampedSum (integerOrZero field) (deltas increments) := by
  induction increments generalizing field with
  | nil => exact absurd rfl nonempty
  | cons i rest ih =>
    obtain ⟨n, resolved, sum⟩ := exists_resolve_increment notDouble i.1 i.2
    have next : afterIncrements field (i :: rest) = afterIncrements (some (.integer n)) rest :=
      congrArg (afterIncrements · rest) resolved
    have total : clampedSum (integerOrZero field) (deltas (i :: rest))
        = clampedSum n.toInt (deltas rest) :=
      congrArg (clampedSum · (deltas rest)) sum.symm
    rw [next, total]
    by_cases last : rest = []
    · rw [last]
      exact ⟨n, rfl, rfl⟩
    · exact ih nofun last

/-- Increments come to the same if the sums of their deltas do, cut off on the way. -/
theorem afterIncrements_eq {others : List Increment} (notDouble : ∀ d, field ≠ some (.double d))
    (nonempty : increments ≠ []) (nonempty' : others ≠ [])
    (same : clampedSum (integerOrZero field) (deltas increments)
      = clampedSum (integerOrZero field) (deltas others)) :
    afterIncrements field increments = afterIncrements field others := by
  obtain ⟨m, stored, sum⟩ := exists_afterIncrements notDouble nonempty
  obtain ⟨n, stored', sum'⟩ := exists_afterIncrements notDouble nonempty'
  rw [stored, stored', Int64.toInt_inj.mp (sum.trans (same.trans sum'.symm))]

end Value

namespace Fields

open Value (Increment afterIncrements)

/-- A document after updates that each increment the field at one path. -/
def incrementEach (path : FieldPath) (increments : List Increment) (document : Fields) : Fields :=
  increments.foldl
    (fun document i => applyUpdate document (put path.segments (.increment (.integer i.2)) []) [path] i.1)
    document

theorem get?_applyUpdate_single {document : Fields} {path : FieldPath} {v next : Value} {now : Timestamp}
    (resolved : v.resolve (get? path.segments document) now = some next) :
    get? path.segments (applyUpdate document (put path.segments v []) [path] now) = some next := by
  rw [applyUpdate, updatePaths, get?_put_self path.nonempty]
  dsimp only
  rw [resolved]
  exact get?_put_self path.nonempty

private theorem get?_incrementEach (path : FieldPath) (increments : List Increment)
    (document : Fields) :
    get? path.segments (incrementEach path increments document)
      = afterIncrements (get? path.segments document) increments := by
  induction increments generalizing document with
  | nil => rfl
  | cons i rest ih =>
    obtain ⟨next, resolved⟩ : ∃ next, Value.resolve (get? path.segments document) i.1
        (.increment (.integer i.2)) = some next := ⟨_, rfl⟩
    calc get? path.segments (incrementEach path rest _)
      _ = afterIncrements (get? path.segments _) rest := ih _
      _ = afterIncrements (some next) rest := by rw [get?_applyUpdate_single resolved]
      _ = afterIncrements (get? path.segments document) (i :: rest) :=
        congrArg (afterIncrements · rest) resolved.symm

end Fields

namespace Value

variable {field : Option Value} {increments : List Increment}

/-- Increments of a field that holds no double, one after another. The field is an integer after each of
them. If no sum on the way leaves the range, it holds in the end the exact sum, as after one increment by
the sum of the deltas, should that be a number of its own. If all deltas have one sign, it holds the exact
sum cut off at the ends of the range, and their order does not matter. So it is with a field of a document
that is updated as many times. -/
theorem increments_add_up (notDouble : ∀ d, field ≠ some (.double d)) (nonempty : increments ≠ []) :
    (∀ front, front <+: increments → front ≠ [] →
        ∃ m : Int64, afterIncrements field front = some (.integer m)) ∧
      ((∀ front, front <+: deltas increments → IsInt64 (integerOrZero field + front.sum)) →
        (∃ m : Int64, afterIncrements field increments = some (.integer m) ∧
          m.toInt = integerOrZero field + (deltas increments).sum) ∧
        ∀ (total : Int64) (now : Timestamp), total.toInt = (deltas increments).sum →
          resolve field now (.increment (.integer total)) = afterIncrements field increments) ∧
      ((∀ d ∈ deltas increments, 0 ≤ d) ∨ (∀ d ∈ deltas increments, d ≤ 0) →
        (∃ m : Int64, afterIncrements field increments = some (.integer m) ∧
          m.toInt = max (-2 ^ 63) (min (integerOrZero field + (deltas increments).sum) (2 ^ 63 - 1))) ∧
        ∀ others : List Increment, (deltas others).Perm (deltas increments) →
          afterIncrements field others = afterIncrements field increments) ∧
      ∀ (document : Fields) (path : FieldPath), Fields.get? path.segments document = field →
        Fields.get? path.segments (document.incrementEach path increments)
          = afterIncrements field increments := by
  obtain ⟨m, stored, sum⟩ := exists_afterIncrements notDouble nonempty
  refine ⟨fun front isFront some => ?_, fun fits => ?_, fun sign => ?_, fun document path held => ?_⟩
  · obtain ⟨m, stored, -⟩ := exists_afterIncrements notDouble some
    exact ⟨m, stored⟩
  · have exact := clampedSum_of_isInt64 fits
    refine ⟨⟨m, stored, sum.trans exact⟩, fun total now whole => ?_⟩
    have single : [(now, total)] ≠ [] := List.cons_ne_nil _ _
    refine afterIncrements_eq notDouble single nonempty ?_
    have last : IsInt64 (integerOrZero field + total.toInt) := whole ▸ fits _ (List.prefix_refl _)
    rw [exact, ← whole]
    exact clamped_of_isInt64 last
  · have cut := clampedSum_of_sign (isInt64_integerOrZero field) sign
    refine ⟨⟨m, stored, sum.trans cut⟩, fun others perm => ?_⟩
    have nonempty' : others ≠ [] := by
      rintro rfl
      exact nonempty (List.map_eq_nil_iff.mp perm.symm.eq_nil)
    refine afterIncrements_eq notDouble nonempty' nonempty ?_
    have sign' := sign.imp (fun up d mem => up d (perm.subset mem))
      fun down d mem => down d (perm.subset mem)
    rw [clampedSum_of_sign (isInt64_integerOrZero field) sign', cut, perm.sum_eq]
  · rw [Fields.get?_incrementEach, held]

/-- More than can be counted. -/
def deliveries : List Increment := [(.new 0 0, Int64.maxValue), (.new 1 0, 5)]

/-- Two deltas of different signs, with small sums. -/
def movements : List Increment := [(.new 0 0, 3), (.new 1 0, -9)]

theorem increments_add_up_stock :
    (∀ d, some (.string "many") ≠ some (Value.double d)) ∧ deliveries ≠ [] ∧
      (∀ d ∈ deltas deliveries, 0 ≤ d) ∧
      afterIncrements (some (.string "many")) deliveries = some (.integer Int64.maxValue) ∧
      afterIncrements (some (.string "many")) deliveries.reverse
        = afterIncrements (some (.string "many")) deliveries ∧
      (∀ d, some (.integer 7) ≠ some (Value.double d)) ∧ movements ≠ [] ∧
      (∀ front, front <+: deltas movements → IsInt64 (integerOrZero (some (.integer 7)) + front.sum)) ∧
      afterIncrements (some (.integer 7)) movements = some (.integer 1) ∧
      resolve (some (.integer 7)) (.new 2 0) (.increment (.integer (-6)))
        = afterIncrements (some (.integer 7)) movements := by
  have text : ∀ d, some (.string "many") ≠ some (Value.double d) := nofun
  have integer : ∀ d, some (.integer 7) ≠ some (Value.double d) := nofun
  have up : ∀ d ∈ deltas deliveries, 0 ≤ d := by decide
  have each : ∀ front ∈ (deltas movements).inits,
      IsInt64 (integerOrZero (some (.integer 7)) + front.sum) := by decide
  have small : ∀ front, front <+: deltas movements →
      IsInt64 (integerOrZero (some (.integer 7)) + front.sum) :=
    fun front isFront => each front ((List.mem_inits _ _).mpr isFront)
  have delivered : deliveries ≠ [] := List.cons_ne_nil _ _
  have moved : movements ≠ [] := List.cons_ne_nil _ _
  obtain ⟨-, -, sameSign, -⟩ := increments_add_up text delivered
  obtain ⟨-, exact, -, -⟩ := increments_add_up integer moved
  exact ⟨text, delivered, up, rfl, (sameSign (.inl up)).2 _ (by decide), integer, moved, small, rfl,
    (exact small).2 _ _ (by decide)⟩

end Value

end DocumentStore
