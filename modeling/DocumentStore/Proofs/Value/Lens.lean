import DocumentStore.Proofs.Value.Place

/-! # Paths as lenses

A path is a view of one place of a document. What was written there is read there, also further inside,
and what was removed is gone. Writing what is there changes nothing, and of two values that are written
the second one stays. Two paths of which neither is the beginning of the other see nothing of each other:
writes and removals at them may change places, although a write makes the maps that it needs and a removal
makes none. -/

namespace DocumentStore

private theorem Place.read_value {rest : List String} (nonempty : rest ≠ []) (v : Value) :
    read rest (some v) = v.asMap?.bind (Fields.get? rest) := by
  cases v with
  | map nested => exact (Fields.get?_eq_read nonempty).symm
  | _ =>
    obtain ⟨key, keys, rfl⟩ := List.exists_cons_of_ne_nil nonempty
    exact read_of_not_map rfl

namespace Fields

variable {fields : Fields} {keys others rest : List String} {v w : Value}

theorem Ordered.root (ordered : fields.Ordered) : fields.root.Ordered :=
  Place.ordered_map.mpr ordered

theorem Ordered.put (ordered : fields.Ordered) (new : v.Ordered) (nonempty : keys ≠ []) :
    (put keys v fields).Ordered := by
  have assigned : (Place.assign keys (some v) fields.root).Ordered :=
    ordered.root.assign (fun _ same => Option.some.inj same ▸ new) keys
  rw [← root_put nonempty] at assigned
  exact Place.ordered_map.mp assigned

theorem Ordered.remove (ordered : fields.Ordered) (nonempty : keys ≠ []) :
    (remove keys fields).Ordered := by
  have assigned : (Place.assign keys none fields.root).Ordered :=
    ordered.root.assign Place.ordered_none keys
  rw [← root_remove ordered nonempty] at assigned
  exact Place.ordered_map.mp assigned

private theorem get?_append (nonempty : keys ≠ []) (more : rest ≠ []) :
    get? (keys ++ rest) fields = (get? keys fields).bind fun v => v.asMap?.bind (get? rest) := by
  have long : keys ++ rest ≠ [] := List.append_ne_nil_of_left_ne_nil nonempty rest
  rw [get?_eq_read long, get?_eq_read nonempty, Place.read_append]
  cases Place.read keys fields.root with
  | none => exact Place.read_none rest
  | some v => exact Place.read_value more v

private theorem get?_remove_self (ordered : fields.Ordered) (nonempty : keys ≠ []) :
    get? keys (remove keys fields) = none := by
  rw [get?_eq_read nonempty, root_remove ordered nonempty, Place.read_assign_self ordered.root]

private theorem put_put (ordered : fields.Ordered) (nonempty : keys ≠ []) :
    put keys w (put keys v fields) = put keys w fields := by
  rw [← root_inj, root_put nonempty, root_put nonempty, root_put nonempty,
    Place.assign_assign ordered.root]

private theorem put_get? (ordered : fields.Ordered) (nonempty : keys ≠ [])
    (found : get? keys fields = some v) :
    put keys v fields = fields := by
  rw [get?_eq_read nonempty] at found
  rw [← root_inj, root_put nonempty, ← found, Place.assign_read ordered.root]

section Apart

variable (ordered : fields.Ordered) (nonempty : keys ≠ []) (nonempty' : others ≠ [])
  (apart : FieldPath.overlap keys others = false)

include ordered nonempty nonempty' apart

private theorem get?_remove_of_apart : get? keys (remove others fields) = get? keys fields := by
  rw [get?_eq_read nonempty, get?_eq_read nonempty, root_remove ordered nonempty',
    Place.read_assign_of_apart ordered.root apart]

private theorem put_comm : put keys v (put others w fields) = put others w (put keys v fields) := by
  rw [← root_inj, root_put nonempty, root_put nonempty', root_put nonempty', root_put nonempty,
    Place.assign_comm ordered.root apart]

private theorem put_remove_comm (new : v.Ordered) :
    put keys v (remove others fields) = remove others (put keys v fields) := by
  rw [← root_inj, root_put nonempty, root_remove ordered nonempty',
    root_remove (ordered.put new nonempty) nonempty', root_put nonempty,
    Place.assign_comm ordered.root apart]

private theorem remove_comm :
    remove keys (remove others fields) = remove others (remove keys fields) := by
  rw [← root_inj, root_remove (ordered.remove nonempty') nonempty, root_remove ordered nonempty',
    root_remove (ordered.remove nonempty) nonempty', root_remove ordered nonempty,
    Place.assign_comm ordered.root apart]

end Apart

/-- A value that is written at a path is read there, and what lies further inside is read in it; what is
removed is gone; a second value replaces the first, and to write what is there changes nothing. A path
that is neither the beginning of the other nor goes on from it reads what it read before a write or a
removal, and writes and removals at such two paths may change places. -/
theorem lens_laws (ordered : fields.Ordered) (new : v.Ordered) (nonempty : keys ≠ [])
    (nonempty' : others ≠ []) :
    get? keys (put keys v fields) = some v ∧
      (∀ rest, rest ≠ [] → get? (keys ++ rest) (put keys v fields) = v.asMap?.bind (get? rest)) ∧
      get? keys (remove keys fields) = none ∧
      put keys w (put keys v fields) = put keys w fields ∧
      (get? keys fields = some v → put keys v fields = fields) ∧
      (¬ keys <+: others → ¬ others <+: keys →
        get? others (put keys v fields) = get? others fields ∧
        get? others (remove keys fields) = get? others fields ∧
        put keys v (put others w fields) = put others w (put keys v fields) ∧
        put keys v (remove others fields) = remove others (put keys v fields) ∧
        remove keys (remove others fields) = remove others (remove keys fields)) := by
  refine ⟨get?_put_self nonempty, fun rest more => ?_, get?_remove_self ordered nonempty,
    put_put ordered nonempty, put_get? ordered nonempty, fun before beyond => ?_⟩
  · rw [get?_append nonempty more, get?_put_self nonempty, Option.bind_some]
  · have apart := FieldPath.overlap_eq_false.mpr ⟨before, beyond⟩
    have apart' := FieldPath.overlap_eq_false.mpr ⟨beyond, before⟩
    exact ⟨get?_put_of_not_overlap apart', get?_remove_of_apart ordered nonempty' nonempty apart',
      put_comm ordered nonempty nonempty' apart, put_remove_comm ordered nonempty nonempty' apart new,
      remove_comm ordered nonempty nonempty' apart⟩

/-- A label where the shelf could say more about it, and a map of books. -/
def shelf : Fields :=
  [("books", .map [("lent", .integer 2), ("owned", .integer 7)]), ("label", .string "top")]

/-- The text of the label is written below a string, which becomes a map. -/
theorem lens_laws_shelf :
    shelf.Ordered ∧ Value.Ordered (.map [("size", .integer 12)]) ∧
      ¬ ["label", "font"] <+: ["books", "lent"] ∧ ¬ ["books", "lent"] <+: ["label", "font"] ∧
      get? ["label", "font", "size"] (put ["label", "font"] (.map [("size", .integer 12)]) shelf)
        = some (.integer 12) ∧
      get? ["books", "lent"] (put ["label", "font"] (.map [("size", .integer 12)]) shelf)
        = some (.integer 2) ∧
      put ["label", "font"] (.map [("size", .integer 12)]) (remove ["books", "lent"] shelf)
        = remove ["books", "lent"] (put ["label", "font"] (.map [("size", .integer 12)]) shelf) := by
  have ordered : shelf.Ordered := by decide
  have new : Value.Ordered (.map [("size", .integer 12)]) := by decide
  have before : ¬ ["label", "font"] <+: ["books", "lent"] := by decide
  have beyond : ¬ ["books", "lent"] <+: ["label", "font"] := by decide
  obtain ⟨-, inside, -, -, -, aside⟩ := lens_laws (w := .null) ordered new
    (List.cons_ne_nil "label" ["font"]) (List.cons_ne_nil "books" ["lent"])
  obtain ⟨unseen, -, -, exchange, -⟩ := aside before beyond
  exact ⟨ordered, new, before, beyond, inside ["size"] (List.cons_ne_nil _ _), unseen, exchange⟩

end Fields

end DocumentStore
