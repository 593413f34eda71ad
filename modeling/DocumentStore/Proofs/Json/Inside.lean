import DocumentStore.Json.Basic
import Mathlib.Data.List.Basic

/-! # JSON inside JSON

Arrays and objects hold JSON values, which may be arrays and objects in their turn. What is said of the
values at every depth is said of a value itself and of those at every depth of each of its items or
members. -/

namespace DocumentStore.Json

/-- A JSON value stands somewhere in another one: it is that value, or it stands in one of its items or
in the content of one of its members. -/
inductive Inside (k : Json) : Json → Prop where
  | itself : Inside k k
  | item {j : Json} {items : List Json} (mem : j ∈ items) (inside : Inside k j) :
      Inside k (.array items)
  | member {entry : String × Json} {members : List (String × Json)} (mem : entry ∈ members)
      (inside : Inside k entry.2) : Inside k (.object members)

/-- Tells the JSON values that hold no others. -/
def isScalar : Json → Bool
  | .array _ | .object _ => false
  | _ => true

/-- What holds of an array once it holds of its items, of an object once it holds of the contents of its
members, and of everything else, holds of every JSON value. -/
@[elab_as_elim]
theorem nested_induction {P : Json → Prop}
    (array : ∀ items, (∀ j ∈ items, P j) → P (.array items))
    (object : ∀ members, (∀ entry ∈ members, P entry.2) → P (.object members))
    (scalar : ∀ j, j.isScalar → P j) (j : Json) : P j := by
  -- the recursor also wants a motive for lists of items, for lists of members and for members
  refine @Json.rec P (fun items => ∀ j ∈ items, P j) (fun members => ∀ entry ∈ members, P entry.2)
    (fun entry => P entry.2) ?null ?bool ?int ?float ?string array object
    (List.forall_mem_nil _) ?item (List.forall_mem_nil _) ?member ?entry j
  case item => exact fun _ _ head tail => List.forall_mem_cons.mpr ⟨head, tail⟩
  case member => exact fun _ _ head tail => List.forall_mem_cons.mpr ⟨head, tail⟩
  case entry => exact fun _ _ content => content
  all_goals
    intros
    exact scalar _ rfl

variable {j : Json} {items : List Json} {members : List (String × Json)} {P : Json → Prop}

theorem forall_inside_array : (∀ k, k.Inside (.array items) → P k) ↔
    P (.array items) ∧ ∀ j ∈ items, ∀ k, k.Inside j → P k := by
  constructor
  · intro all
    exact ⟨all _ .itself, fun j mem k inside => all k (.item mem inside)⟩
  · rintro ⟨whole, parts⟩ k inside
    cases inside with
    | itself => exact whole
    | item mem inside => exact parts _ mem k inside

theorem forall_inside_object : (∀ k, k.Inside (.object members) → P k) ↔
    P (.object members) ∧ ∀ entry ∈ members, ∀ k, k.Inside entry.2 → P k := by
  constructor
  · intro all
    exact ⟨all _ .itself, fun entry mem k inside => all k (.member mem inside)⟩
  · rintro ⟨whole, parts⟩ k inside
    cases inside with
    | itself => exact whole
    | member mem inside => exact parts _ mem k inside

theorem forall_inside_scalar (scalar : j.isScalar) : (∀ k, k.Inside j → P k) ↔ P j := by
  refine ⟨fun all => all j .itself, fun holds k inside => ?_⟩
  cases inside with
  | itself => exact holds
  | item mem inside => cases scalar
  | member mem inside => cases scalar

end DocumentStore.Json
