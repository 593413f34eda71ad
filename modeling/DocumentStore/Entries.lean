/-! # Entries sorted by key

A table is a list of entries with strictly increasing keys. The list is plain data, so values may
contain tables of values; the order of the keys is a separate predicate that every operation keeps.
Looking up a key sees the last insertion or removal at that key and nothing else. -/

namespace DocumentStore

abbrev Entries (α : Type) := List (String × α)

namespace Entries

variable {α β : Type}

def Sorted (t : Entries α) : Prop := t.Pairwise fun a b => a.1 < b.1

def find? (key : String) : Entries α → Option α
  | [] => none
  | (k, a) :: t => if k = key then some a else find? key t

/-- Puts a value at a key, in place of the value that was there. -/
def insert (key : String) (a : α) : Entries α → Entries α
  | [] => [(key, a)]
  | (k, b) :: t =>
    if key < k then (key, a) :: (k, b) :: t
    else if k = key then (key, a) :: t
    else (k, b) :: insert key a t

def erase (key : String) : Entries α → Entries α
  | [] => []
  | (k, b) :: t => if k = key then t else (k, b) :: erase key t

/-- The table of a list of entries, of which later ones replace earlier ones. -/
def ofList (entries : List (String × α)) : Entries α :=
  entries.foldl (fun t (k, a) => insert k a t) []

def keys (t : Entries α) : List String := t.map Prod.fst

def values (t : Entries α) : List α := t.map Prod.snd

@[simp] theorem find?_nil (key : String) : find? key ([] : Entries α) = none := rfl

theorem find?_insert_self (key : String) (a : α) (t : Entries α) :
    find? key (insert key a t) = some a := by
  induction t with
  | nil => simp [insert, find?]
  | cons entry t ih =>
    obtain ⟨k, b⟩ := entry
    rw [insert]
    split
    · simp [find?]
    · split
      · simp [find?]
      · rename_i h
        simp [find?, h, ih]

theorem find?_insert_of_ne {key other : String} (h : other ≠ key) (a : α) (t : Entries α) :
    find? other (insert key a t) = find? other t := by
  induction t with
  | nil => simp [insert, find?, Ne.symm h]
  | cons entry t ih =>
    obtain ⟨k, b⟩ := entry
    rw [insert]
    split
    · simp [find?, Ne.symm h]
    · split
      · rename_i hk
        simp [find?, hk, Ne.symm h]
      · simp [find?, ih]

theorem mem_of_find? {key : String} {a : α} {t : Entries α} (found : find? key t = some a) :
    (key, a) ∈ t := by
  induction t with
  | nil => cases found
  | cons entry t ih =>
    obtain ⟨k, b⟩ := entry
    rw [find?] at found
    split at found
    · rename_i same
      cases found
      exact same ▸ List.mem_cons_self
    · exact List.mem_cons_of_mem _ (ih found)

theorem find?_erase_of_ne {key other : String} (h : other ≠ key) (t : Entries α) :
    find? other (erase key t) = find? other t := by
  induction t with
  | nil => rfl
  | cons entry t ih =>
    obtain ⟨k, b⟩ := entry
    rw [erase]
    split
    · rename_i hk
      simp [find?, hk, Ne.symm h]
    · simp [find?, ih]

theorem find?_eq_none_of_lt {key : String} {t : Entries α} (h : ∀ e ∈ t, key < e.1) :
    find? key t = none := by
  induction t with
  | nil => rfl
  | cons entry t ih =>
    obtain ⟨k, b⟩ := entry
    have hk : key < k := h (k, b) (by simp)
    have hne : k ≠ key := fun e => String.lt_irrefl key (e ▸ hk)
    simp [find?, hne, ih fun e he => h e (by simp [he])]

theorem find?_erase_self {key : String} {t : Entries α} (sorted : t.Sorted) :
    find? key (erase key t) = none := by
  induction t with
  | nil => rfl
  | cons entry t ih =>
    obtain ⟨k, b⟩ := entry
    rw [Sorted, List.pairwise_cons] at sorted
    rw [erase]
    split
    · rename_i hk
      subst hk
      exact find?_eq_none_of_lt sorted.1
    · rename_i hk
      simp [find?, hk, ih sorted.2]

end Entries

end DocumentStore
