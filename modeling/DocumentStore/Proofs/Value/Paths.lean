import DocumentStore.Path.Field
import DocumentStore.Proofs.Entries
import DocumentStore.Value.Fields

/-! # Reading and writing at paths

What is written at a path is read there again, and reading at a path that neither leads through the
first one nor the other way round sees no difference. A property that maps share with the values in
them passes from the fields of a document to what is read at a path, and is kept by writing and
removing at paths. -/

namespace DocumentStore.Fields

variable {key : String} {keys others : List String} {fields : Fields} {v : Value}

theorem get?_nil (keys : List String) : get? keys [] = none := by
  cases keys with
  | nil => rfl
  | cons key keys => cases keys <;> rfl

theorem get?_cons (nonempty : keys ≠ []) :
    get? (key :: keys) fields = get? keys (inner key fields) := by
  rw [get?, inner]
  · split
    · rfl
    · exact (get?_nil keys).symm
  · exact nonempty

theorem put_cons (nonempty : keys ≠ []) :
    put (key :: keys) v fields = Entries.insert key (.map (put keys v (inner key fields))) fields := by
  rw [put]
  exact nonempty

theorem inner_insert (key : String) (nested fields : Fields) :
    inner key (Entries.insert key (.map nested) fields) = nested := by
  rw [inner, Entries.find?_insert_self]

private theorem get?_insert_of_ne {other : String} (ne : other ≠ key) :
    get? (other :: keys) (Entries.insert key v fields) = get? (other :: keys) fields := by
  cases keys with
  | nil => exact Entries.find?_insert_of_ne ne v fields
  | cons next rest =>
    rw [get?_cons (List.cons_ne_nil _ _), get?_cons (List.cons_ne_nil _ _), inner, inner,
      Entries.find?_insert_of_ne ne]

theorem get?_put_self (nonempty : keys ≠ []) : get? keys (put keys v fields) = some v := by
  induction keys generalizing fields with
  | nil => exact absurd rfl nonempty
  | cons key keys ih =>
    cases keys with
    | nil => exact Entries.find?_insert_self key v fields
    | cons next rest =>
      have more : next :: rest ≠ [] := List.cons_ne_nil _ _
      rw [put_cons more, get?_cons more, inner_insert]
      exact ih more

/-- Writing at a path leaves every place alone that neither lies on the way nor beyond. -/
theorem get?_put_of_not_overlap (apart : FieldPath.overlap keys others = false) :
    get? keys (put others v fields) = get? keys fields := by
  induction keys generalizing others fields with
  | nil => cases apart
  | cons key keys ih =>
    cases others with
    | nil => simp [FieldPath.overlap] at apart
    | cons other others =>
      by_cases same : key = other
      · -- Both lead into the map at the same key, and neither ends there.
        subst same
        have apart : FieldPath.overlap keys others = false := by
          simpa [FieldPath.overlap] using apart
        have hkeys : keys ≠ [] := by
          rintro rfl
          cases apart
        have hothers : others ≠ [] := by
          rintro rfl
          simp [FieldPath.overlap] at apart
        rw [put_cons hothers, get?_cons hkeys, get?_cons hkeys, inner_insert, ih apart]
      · -- The first keys differ, so only one entry of the outermost table is written.
        cases others with
        | nil => exact get?_insert_of_ne same
        | cons next rest =>
          rw [put_cons (List.cons_ne_nil _ _)]
          exact get?_insert_of_ne same

section Everywhere

variable {P : Value → Prop} (maps : ∀ fields, P (.map fields) ↔ ∀ entry ∈ fields, P entry.2)
  (all : ∀ entry ∈ fields, P entry.2)

include maps all

/-- What maps pass on to the values in them is passed on to the value at a path. -/
theorem of_get? (found : get? keys fields = some v) : P v := by
  induction keys generalizing fields with
  | nil => cases found
  | cons key keys ih =>
    cases keys with
    | nil => exact all _ (Entries.mem_of_find? found)
    | cons next rest =>
      rw [get?] at found
      · split at found
        · rename_i inner hinner
          exact ih ((maps inner).mp (all _ (Entries.mem_of_find? hinner))) found
        · cases found
      · simp

private theorem forall_inner (key : String) : ∀ entry ∈ inner key fields, P entry.2 := by
  unfold inner
  split
  · rename_i nested found
    exact (maps nested).mp (all _ (Entries.mem_of_find? found))
  · exact List.forall_mem_nil _

theorem forall_put (new : P v) : ∀ entry ∈ put keys v fields, P entry.2 := by
  induction keys generalizing fields with
  | nil => exact all
  | cons key keys ih =>
    cases keys with
    | nil => exact Entries.forall_insert all new
    | cons next rest =>
      rw [put_cons (List.cons_ne_nil _ _)]
      have nested := ih (forall_inner maps all key)
      exact Entries.forall_insert all ((maps _).mpr nested)

theorem forall_remove : ∀ entry ∈ remove keys fields, P entry.2 := by
  induction keys generalizing fields with
  | nil => exact all
  | cons key keys ih =>
    cases keys with
    | nil => exact Entries.forall_erase all
    | cons next rest =>
      rw [remove]
      · split
        · rename_i nested found
          have rest := ih ((maps nested).mp (all _ (Entries.mem_of_find? found)))
          exact Entries.forall_insert all ((maps _).mpr rest)
        · exact all
      · simp

end Everywhere

end DocumentStore.Fields
