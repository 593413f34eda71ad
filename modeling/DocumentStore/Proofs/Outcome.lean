import Mathlib.Data.List.Forall2

/-! # Results of operations that may fail

When a chain of operations succeeds every link of it has succeeded, and when an operation succeeds on a
list it has succeeded on every item of it. -/

namespace DocumentStore

variable {ε ε' α β : Type}

theorem bind_eq_ok {x : Except ε α} {f : α → Except ε β} {b : β} :
    (x >>= f) = .ok b ↔ ∃ a, x = .ok a ∧ f a = .ok b := by
  cases x <;> simp [bind, Except.bind]

theorem map_eq_ok {x : Except ε α} {f : α → β} {b : β} :
    x.map f = .ok b ↔ ∃ a, x = .ok a ∧ f a = b := by
  cases x <;> simp [Except.map]

theorem toOption_eq_some {x : Except ε α} {a : α} : x.toOption = some a ↔ x = .ok a := by
  cases x <;> simp [Except.toOption]

theorem toOption_bind (x : Except ε α) (f : α → Except ε β) :
    (x >>= f).toOption = x.toOption.bind fun a => (f a).toOption := by
  cases x <;> rfl

@[simp] theorem mapError_ok (f : ε → ε') (a : α) : (Except.ok a).mapError f = .ok a := rfl

@[simp] theorem mapError_error (f : ε → ε') (e : ε) :
    (Except.error e : Except ε α).mapError f = .error (f e) := rfl

theorem mapError_eq_ok {x : Except ε α} {f : ε → ε'} {a : α} :
    x.mapError f = .ok a ↔ x = .ok a := by
  cases x <;> simp

/-- A check that was passed did not fail. -/
theorem of_guard {c : Prop} [Decidable c] {fault : ε} {failed : PUnit → Except ε α}
    {passed : Except ε α} {a : α} (ok : (if c then .error fault >>= failed else passed) = .ok a) :
    ¬ c ∧ passed = .ok a := by
  split at ok
  · cases ok
  · exact ⟨‹_›, ok⟩

section Related

variable {R : α → β → Prop} {P : α → Prop} {Q : β → Prop} {as : List α} {bs : List β}

theorem mapM_eq_ok {f : α → Except ε β} :
    as.mapM f = .ok bs ↔ List.Forall₂ (fun a b => f a = .ok b) as bs := by
  induction as generalizing bs with
  | nil => simp [pure, Except.pure, eq_comm]
  | cons a as ih =>
    rw [List.mapM_cons, bind_eq_ok, List.forall₂_cons_left_iff]
    constructor
    · rintro ⟨b, first, others⟩
      obtain ⟨rest, each, same⟩ := bind_eq_ok.mp others
      cases same
      exact ⟨b, rest, first, ih.mp each, rfl⟩
    · rintro ⟨b, rest, first, each, rfl⟩
      exact ⟨b, first, bind_eq_ok.mpr ⟨rest, ih.mpr each, rfl⟩⟩

/-- An operation on a list fails where it first fails on an item. -/
theorem exists_of_mapM_eq_error {f : α → Except ε β} {e : ε} (failed : as.mapM f = .error e) :
    ∃ before a after, as = before ++ a :: after ∧ (∀ earlier ∈ before, ∃ b, f earlier = .ok b) ∧
      f a = .error e := by
  induction as with
  | nil => cases failed
  | cons a as ih =>
    cases first : f a with
    | error e' =>
      rw [List.mapM_cons, first] at failed
      cases failed
      exact ⟨[], a, as, rfl, List.forall_mem_nil _, first⟩
    | ok b =>
      cases others : as.mapM f with
      | ok bs =>
        rw [List.mapM_cons, first, others] at failed
        cases failed
      | error e' =>
        rw [List.mapM_cons, first, others] at failed
        cases failed
        obtain ⟨before, last, after, rfl, sound, refused⟩ := ih others
        exact ⟨a :: before, last, after, rfl, List.forall_mem_cons.mpr ⟨⟨b, first⟩, sound⟩, refused⟩

/-- A list is related to some list if each item of it is related to something. -/
theorem exists_forall₂_iff : (∃ bs, List.Forall₂ R as bs) ↔ ∀ a ∈ as, ∃ b, R a b := by
  induction as with
  | nil => exact ⟨fun _ => List.forall_mem_nil _, fun _ => ⟨[], .nil⟩⟩
  | cons a as ih =>
    rw [List.forall_mem_cons, ← ih]
    constructor
    · rintro ⟨_, _ | ⟨first, others⟩⟩
      exact ⟨⟨_, first⟩, _, others⟩
    · rintro ⟨⟨b, first⟩, bs, others⟩
      exact ⟨b :: bs, .cons first others⟩

/-- What holds of related items alike holds of all of one list if it holds of all of the other. -/
theorem forall_mem_iff_of_forall₂ (related : List.Forall₂ R as bs)
    (alike : ∀ a ∈ as, ∀ b, R a b → (Q b ↔ P a)) : (∀ b ∈ bs, Q b) ↔ ∀ a ∈ as, P a := by
  induction related with
  | nil => simp
  | cons pair _ ih =>
    rw [List.forall_mem_cons, List.forall_mem_cons, alike _ List.mem_cons_self _ pair,
      ih fun a mem => alike a (List.mem_cons_of_mem _ mem)]

end Related

end DocumentStore
