import DocumentStore.Entries
import Mathlib.Data.List.Basic
import Mathlib.Data.List.Induction
import Mathlib.Data.List.Pairwise
import Mathlib.Data.List.Sort

/-! # What tables hold

Putting an entry in and removing one keep a table sorted, and keep what holds of every value in it. In
a sorted table every entry is found by its key, so that sorted tables are told apart by look-ups and
changes at different keys may be made in any order. -/

namespace DocumentStore.Entries

variable {α β : Type} {key : String} {a : α} {t : Entries α} {P : α → Prop}

theorem mem_insert {entry : String × α} (mem : entry ∈ insert key a t) :
    entry = (key, a) ∨ entry ∈ t := by
  induction t with
  | nil => exact .inl (List.mem_singleton.mp mem)
  | cons head t ih =>
    obtain ⟨k, b⟩ := head
    rw [insert] at mem
    split at mem
    · exact List.mem_cons.mp mem
    · split at mem
      · exact (List.mem_cons.mp mem).imp_right (List.mem_cons_of_mem _)
      · rcases List.mem_cons.mp mem with rfl | mem
        · exact .inr List.mem_cons_self
        · exact (ih mem).imp_right (List.mem_cons_of_mem _)

private theorem mem_insert_iff {entry : String × α} (absent : ∀ entry ∈ t, entry.1 ≠ key) :
    entry ∈ insert key a t ↔ entry = (key, a) ∨ entry ∈ t := by
  induction t with
  | nil => exact List.mem_singleton.trans (by simp)
  | cons head t ih =>
    obtain ⟨k, b⟩ := head
    obtain ⟨differs, rest⟩ := List.forall_mem_cons.mp absent
    rw [insert, if_neg differs]
    split
    · exact List.mem_cons
    · rw [List.mem_cons, List.mem_cons, ih rest, or_left_comm]

/-- A table made of entries with different keys has those entries. -/
theorem mem_ofList {entry : String × α} {entries : List (String × α)}
    (distinct : (entries.map Prod.fst).Nodup) : entry ∈ ofList entries ↔ entry ∈ entries := by
  induction entries using List.reverseRecOn generalizing entry with
  | nil => exact Iff.rfl
  | append_singleton entries last ih =>
    obtain ⟨key, a⟩ := last
    rw [List.map_append, List.nodup_append'] at distinct
    obtain ⟨others, -, apart⟩ := distinct
    have absent : ∀ entry ∈ ofList entries, entry.1 ≠ key := fun entry mem same =>
      apart (List.mem_map.mpr ⟨entry, (ih others).mp mem, same⟩) List.mem_cons_self
    rw [ofList, List.foldl_append]
    show entry ∈ insert key a (ofList entries) ↔ _
    rw [mem_insert_iff absent, ih others, List.mem_append, List.mem_singleton, or_comm]

theorem find?_eq_none (absent : ∀ entry ∈ t, entry.1 ≠ key) : find? key t = none := by
  induction t with
  | nil => rfl
  | cons entry t ih =>
    obtain ⟨first, rest⟩ := List.forall_mem_cons.mp absent
    rw [find?, if_neg first, ih rest]

theorem erase_sublist (key : String) (t : Entries α) : (erase key t).Sublist t := by
  induction t with
  | nil => exact List.Sublist.refl []
  | cons entry t ih =>
    obtain ⟨k, b⟩ := entry
    rw [erase]
    split
    · exact List.sublist_cons_self _ _
    · exact ih.cons_cons _

theorem forall_insert (old : ∀ entry ∈ t, P entry.2) (new : P a) :
    ∀ entry ∈ insert key a t, P entry.2 := by
  intro entry mem
  rcases mem_insert mem with rfl | mem
  · exact new
  · exact old entry mem

theorem forall_erase (old : ∀ entry ∈ t, P entry.2) : ∀ entry ∈ erase key t, P entry.2 :=
  fun entry mem => old entry ((erase_sublist key t).subset mem)

theorem Sorted.erase (sorted : Sorted t) (key : String) : Sorted (erase key t) :=
  sorted.sublist (erase_sublist key t)

theorem Sorted.insert (sorted : Sorted t) (key : String) (a : α) : Sorted (insert key a t) := by
  induction t with
  | nil => exact List.pairwise_singleton _ _
  | cons entry t ih =>
    obtain ⟨k, b⟩ := entry
    obtain ⟨least, rest⟩ := List.pairwise_cons.mp sorted
    rw [Entries.insert]
    split
    · rename_i before
      refine List.pairwise_cons.mpr ⟨fun entry mem => ?_, sorted⟩
      rcases List.mem_cons.mp mem with rfl | mem
      · exact before
      · exact String.lt_trans before (least entry mem)
    · rename_i notBefore
      split
      · rename_i same
        subst same
        exact List.pairwise_cons.mpr ⟨least, rest⟩
      · rename_i differs
        have after : k < key := Std.lt_of_le_of_ne (String.not_lt.mp notBefore) differs
        refine List.pairwise_cons.mpr ⟨fun entry mem => ?_, ih rest⟩
        rcases mem_insert mem with rfl | old
        · exact after
        · exact least entry old

/-- Whether a table is sorted is seen from its keys. -/
theorem Sorted.of_keys {u : Entries β} (sorted : Sorted t) (same : u.map Prod.fst = t.map Prod.fst) :
    Sorted u :=
  List.pairwise_map.mp (same ▸ List.pairwise_map.mpr sorted)

/-- A key that comes after all others gets its entry at the end. -/
theorem insert_of_last (last : ∀ entry ∈ t, entry.1 < key) (a : α) :
    insert key a t = t ++ [(key, a)] := by
  induction t with
  | nil => rfl
  | cons entry t ih =>
    obtain ⟨k, b⟩ := entry
    obtain ⟨first, rest⟩ := List.forall_mem_cons.mp last
    have notBefore : ¬ key < k := fun before => String.lt_irrefl k (String.lt_trans first before)
    have differs : k ≠ key := fun same => String.lt_irrefl k (same ▸ first)
    rw [insert, if_neg notBefore, if_neg differs, ih rest, List.cons_append]

/-- In a sorted table every entry is found. -/
theorem Sorted.find?_eq_some (sorted : Sorted t) : find? key t = some a ↔ (key, a) ∈ t := by
  refine ⟨mem_of_find?, fun mem => ?_⟩
  induction t with
  | nil => cases mem
  | cons entry t ih =>
    obtain ⟨least, rest⟩ := List.pairwise_cons.mp sorted
    rcases List.mem_cons.mp mem with rfl | mem
    · exact if_pos rfl
    · have ne : entry.1 ≠ key := fun same => String.lt_irrefl key (same ▸ least (key, a) mem)
      exact (if_neg ne).trans (ih rest mem)

/-- Sorted tables with the same look-ups are the same. -/
theorem Sorted.ext {u : Entries α} (ht : Sorted t) (hu : Sorted u)
    (same : ∀ key, find? key t = find? key u) : t = u := by
  have irrefl : Std.Irrefl fun a b : String × α => a.1 < b.1 := ⟨fun a => String.lt_irrefl a.1⟩
  have antisymm : Std.Antisymm fun a b : String × α => a.1 < b.1 :=
    ⟨fun a _ before after => absurd (String.lt_trans before after) (String.lt_irrefl a.1)⟩
  refine List.Pairwise.eq_of_mem_iff ht hu fun entry => ?_
  obtain ⟨key, a⟩ := entry
  rw [← ht.find?_eq_some, ← hu.find?_eq_some, same]

/-- An insertion leaves a single entry if and only if there was nothing at other keys. -/
theorem insert_eq_singleton (sorted : Sorted t) :
    insert key a t = [(key, a)] ↔ ∀ entry ∈ t, entry.1 = key := by
  constructor
  · intro alone entry mem
    by_contra other
    have kept : find? entry.1 (insert key a t) = some entry.2 :=
      (find?_insert_of_ne other a t).trans (sorted.find?_eq_some.mpr mem)
    rw [alone, find?, if_neg (Ne.symm other)] at kept
    cases kept
  · intro same
    refine (sorted.insert key a).ext (List.pairwise_singleton _ _) fun query => ?_
    by_cases found : query = key
    · subst found
      rw [find?_insert_self, find?, if_pos rfl]
    · have absent : find? query t = none :=
        find?_eq_none fun entry mem at' => found (at'.symm.trans (same entry mem))
      rw [find?_insert_of_ne found, absent, find?, if_neg (Ne.symm found), find?]

/-- Puts a value at a key, or removes what is there. -/
def assign (key : String) : Option α → Entries α → Entries α
  | some a, t => insert key a t
  | none, t => erase key t

theorem Sorted.assign (sorted : Sorted t) (key : String) (value : Option α) :
    Sorted (assign key value t) := by
  cases value with
  | some a => exact sorted.insert key a
  | none => exact sorted.erase key

theorem forall_assign {value : Option α} (old : ∀ entry ∈ t, P entry.2) (new : ∀ a ∈ value, P a) :
    ∀ entry ∈ assign key value t, P entry.2 := by
  cases value with
  | some a => exact forall_insert old (new a rfl)
  | none => exact forall_erase old

theorem find?_assign_of_ne {other : String} (ne : other ≠ key) (value : Option α) (t : Entries α) :
    find? other (assign key value t) = find? other t := by
  cases value with
  | some a => exact find?_insert_of_ne ne a t
  | none => exact find?_erase_of_ne ne t

theorem find?_assign_self (sorted : Sorted t) (value : Option α) :
    find? key (assign key value t) = value := by
  cases value with
  | some a => exact find?_insert_self key a t
  | none => exact find?_erase_self sorted

/-- Assignments to different keys may change places. -/
theorem assign_comm {other : String} (ne : key ≠ other) (sorted : Sorted t) (value value' : Option α) :
    assign key value (assign other value' t) = assign other value' (assign key value t) := by
  refine ((sorted.assign _ _).assign _ _).ext ((sorted.assign _ _).assign _ _) fun query => ?_
  by_cases first : query = key
  · subst first
    rw [find?_assign_self (sorted.assign _ _), find?_assign_of_ne ne, find?_assign_self sorted]
  · rw [find?_assign_of_ne first]
    by_cases second : query = other
    · subst second
      rw [find?_assign_self sorted, find?_assign_self (sorted.assign _ _)]
    · rw [find?_assign_of_ne second, find?_assign_of_ne second, find?_assign_of_ne first]

/-- Of two assignments at one key the later one counts. -/
theorem assign_assign (sorted : Sorted t) (value value' : Option α) :
    assign key value (assign key value' t) = assign key value t := by
  refine ((sorted.assign _ _).assign _ _).ext (sorted.assign _ _) fun query => ?_
  by_cases same : query = key
  · subst same
    rw [find?_assign_self (sorted.assign _ _), find?_assign_self sorted]
  · rw [find?_assign_of_ne same, find?_assign_of_ne same, find?_assign_of_ne same]

/-- Assigning what is there changes nothing. -/
theorem assign_find? (sorted : Sorted t) (key : String) : assign key (find? key t) t = t := by
  refine (sorted.assign _ _).ext sorted fun query => ?_
  by_cases same : query = key
  · subst same
    exact find?_assign_self sorted _
  · exact find?_assign_of_ne same _ t

section Selection

variable {f : String × α → Option β}

/-- An entry that is passed over may be put in. -/
theorem filterMap_insert (ignored : ∀ a, f (key, a) = none) (a : α) (t : Entries α) :
    (insert key a t).filterMap f = t.filterMap f := by
  induction t with
  | nil => simp [insert, ignored]
  | cons entry t ih =>
    obtain ⟨k, b⟩ := entry
    rw [insert]
    split
    · rw [List.filterMap_cons_none (ignored a)]
    · split
      · rename_i same
        rw [same, List.filterMap_cons_none (ignored a), List.filterMap_cons_none (ignored b)]
      · simp only [List.filterMap_cons, ih]

/-- An entry that is passed over may be removed. -/
theorem filterMap_erase (ignored : ∀ a, f (key, a) = none) (t : Entries α) :
    (erase key t).filterMap f = t.filterMap f := by
  induction t with
  | nil => rfl
  | cons entry t ih =>
    obtain ⟨k, b⟩ := entry
    rw [erase]
    split
    · rename_i same
      rw [same, List.filterMap_cons_none (ignored b)]
    · simp only [List.filterMap_cons, ih]

end Selection

end DocumentStore.Entries
