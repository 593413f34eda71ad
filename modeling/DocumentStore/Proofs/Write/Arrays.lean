import DocumentStore.Proofs.Value.Equality
import DocumentStore.Write.Sentinel

/-! # Elements added to arrays and taken out of them

A union goes through its elements one after another and appends those that the array, as it has grown so
far, has no equal of. A removal drops all elements that equal one of the given ones. The laws of the two
rest on equality being reflexive, which it is on values that are no markers. It need not be transitive,
and it is not: a double may equal two integers that differ. -/

namespace DocumentStore.Value

variable {v : Value} {elements added : List Value}

private theorem containedIn_of_subset {others : List Value} (subset : elements ⊆ others)
    (held : v.containedIn elements) : v.containedIn others := by
  obtain ⟨w, mem, equal⟩ := containedIn_iff.mp held
  exact containedIn_iff.mpr ⟨w, subset mem, equal⟩

private theorem containedIn_of_mem (value : v.isSentinel = false) (mem : v ∈ elements) :
    v.containedIn elements :=
  containedIn_iff.mpr ⟨v, mem, equal_self value⟩

/-- Elements that a union appends to an array: some of those that are added, in their order, of which no
two are equal and none equals an element of the array. -/
structure Appended (elements added appended : List Value) : Prop where
  sublist : appended.Sublist added
  distinct : appended.Pairwise fun v w => ¬ v.equal w
  new : ∀ v ∈ appended, ∀ w ∈ elements, ¬ w.equal v

/-- A union appends to the array and leaves alone what is there. -/
theorem exists_appended (elements added : List Value) :
    ∃ appended, union elements added = elements ++ appended ∧ Appended elements added appended := by
  induction added generalizing elements with
  | nil => exact ⟨[], (List.append_nil elements).symm, List.Sublist.slnil, List.Pairwise.nil, nofun⟩
  | cons v vs ih =>
    rw [union]
    split
    · obtain ⟨appended, grown, sublist, distinct, new⟩ := ih elements
      exact ⟨appended, grown, sublist.cons v, distinct, new⟩
    · -- The elements that follow are compared with this one as well.
      rename_i lacking
      obtain ⟨appended, grown, sublist, distinct, new⟩ := ih (elements ++ [v])
      have first : ∀ w ∈ elements, ¬ w.equal v := fun w mem equal =>
        lacking (containedIn_iff.mpr ⟨w, mem, equal⟩)
      refine ⟨v :: appended, grown.trans (List.append_cons _ _ _).symm, sublist.cons_cons v, ?_, ?_⟩
      · have last : v ∈ elements ++ [v] := List.mem_append_right _ (List.mem_singleton_self v)
        exact List.pairwise_cons.mpr ⟨fun w mem => new w mem v last, distinct⟩
      · exact List.forall_mem_cons.mpr
          ⟨first, fun w mem x hx => new w mem x (List.mem_append_left _ hx)⟩

private theorem subset_union (elements added : List Value) : elements ⊆ union elements added := by
  obtain ⟨appended, grown, -⟩ := exists_appended elements added
  exact grown ▸ List.subset_append_left elements appended

theorem containedIn_union (values : ∀ v ∈ added, v.isSentinel = false) :
    ∀ v ∈ added, v.containedIn (union elements added) := by
  induction added generalizing elements with
  | nil => exact List.forall_mem_nil _
  | cons v vs ih =>
    obtain ⟨value, others⟩ := List.forall_mem_cons.mp values
    rw [union]
    split
    · rename_i held
      exact List.forall_mem_cons.mpr ⟨containedIn_of_subset (subset_union _ _) held, ih others⟩
    · have last : v ∈ elements ++ [v] := List.mem_append_right _ (List.mem_singleton_self v)
      exact List.forall_mem_cons.mpr
        ⟨containedIn_of_mem value (subset_union _ vs last), ih others⟩

theorem union_eq_self (held : ∀ v ∈ added, v.containedIn elements) : union elements added = elements := by
  induction added with
  | nil => rfl
  | cons v vs ih =>
    obtain ⟨first, others⟩ := List.forall_mem_cons.mp held
    rw [union, if_pos first, ih others]

theorem without_eq_filter (elements removed : List Value) :
    without elements removed = elements.filter fun w => ∀ v ∈ removed, ¬ w.equal v := by
  refine List.filter_congr fun w _ => ?_
  rw [Bool.eq_iff_iff]
  simp

theorem without_union (values : ∀ v ∈ added, v.isSentinel = false) :
    without (union elements added) added = without elements added := by
  obtain ⟨appended, grown, new⟩ := exists_appended elements added
  have gone : without appended added = [] := by
    rw [without_eq_filter, List.filter_eq_nil_iff]
    intro w mem kept
    have given : w ∈ added := new.sublist.subset mem
    exact of_decide_eq_true kept w given (equal_self (values w given))
  calc without (union elements added) added
    _ = without elements added ++ without appended added := by rw [grown, without, List.filter_append]; rfl
    _ = without elements added := by rw [gone, List.append_nil]

/-- What the two markers for arrays stand for, whatever the field held. A union stands for the array that
was there, followed by the elements that it had no equal of, each of them once; to ask for the same union
again changes nothing. A removal stands for the elements that equal none of the given ones, in their
order, and undoes a union of the given ones as far as it appended anything. -/
theorem array_markers_resolved (prior : Option Value) (values : ∀ v ∈ elements, v.isSentinel = false)
    (now later : Timestamp) :
    (∃ appended,
        resolve prior now (.arrayUnion elements) = some (.array (priorElements prior ++ appended)) ∧
        Appended (priorElements prior) elements appended ∧
        ∀ v ∈ elements, ∃ w ∈ priorElements prior ++ appended, w.equal v) ∧
      resolve (resolve prior now (.arrayUnion elements)) later (.arrayUnion elements)
        = resolve prior now (.arrayUnion elements) ∧
      resolve prior now (.arrayRemove elements)
        = some (.array ((priorElements prior).filter fun w => ∀ v ∈ elements, ¬ w.equal v)) ∧
      resolve (resolve prior now (.arrayUnion elements)) later (.arrayRemove elements)
        = resolve prior later (.arrayRemove elements) := by
  have held : ∀ v ∈ elements, v.containedIn (union (priorElements prior) elements) :=
    containedIn_union values
  refine ⟨?_, ?_, ?_, ?_⟩
  · obtain ⟨appended, grown, new⟩ := exists_appended (priorElements prior) elements
    rw [grown] at held
    refine ⟨appended, congrArg (some ∘ array) grown, new, fun v mem => ?_⟩
    exact containedIn_iff.mp (held v mem)
  · exact congrArg (some ∘ array) (union_eq_self held)
  · exact congrArg (some ∘ array) (without_eq_filter _ _)
  · exact congrArg (some ∘ array) (without_union values)

/-- Two integers of which the second is no double, and that both equal one. -/
def counters : Value := .array [.integer 9007199254740992, .integer 9007199254740993]

/-- The double that equals both counters, and not-a-number, which equals itself. -/
def readings : List Value := [.double (.ofRank false (1076 * 2 ^ 52)), .double .nan, .double .nan]

theorem array_markers_resolved_counters :
    (∀ v ∈ readings, v.isSentinel = false) ∧
      resolve (some counters) (.new 5 0) (.arrayUnion readings)
        = some (.array [.integer 9007199254740992, .integer 9007199254740993, .double .nan]) ∧
      resolve (some counters) (.new 5 0) (.arrayRemove readings) = some (.array []) ∧
      let after := resolve (some counters) (.new 5 0) (.arrayUnion readings)
      resolve after (.new 6 0) (.arrayUnion readings) = after ∧
        resolve after (.new 6 0) (.arrayRemove readings)
          = resolve (some counters) (.new 6 0) (.arrayRemove readings) := by
  have values : ∀ v ∈ readings, v.isSentinel = false := by decide
  obtain ⟨-, again, -, undone⟩ := array_markers_resolved (some counters) values (.new 5 0) (.new 6 0)
  exact ⟨values, rfl, rfl, again, undone⟩

end DocumentStore.Value
