import DocumentStore.Proofs.Client.Reached
import DocumentStore.Proofs.Write.Markers

/-! # No marker is stored

A write of an accepted request leaves plain documents plain. So the documents that clients bring about
hold no marker anywhere, whatever was asked for and whatever was refused. -/

namespace DocumentStore

/-- Every marker in the data of a write stands where it will be resolved. -/
def WriteOperation.Resolvable : WriteOperation → Prop
  | .set _ data _ => (Value.map data).Mergeable
  | .update _ data paths => Payload.UpdateData.Writable ⟨data, paths⟩
  | .delete _ => True

private theorem WriteOperation.Checked.resolvable {write : WriteOperation} (checked : write.Checked) :
    write.Resolvable := by
  obtain ⟨request, checked⟩ := checked
  have accepted := (WriteRequest.check_eq_ok.mp checked).2
  generalize write.key = key at accepted
  cases request with
  | set path data merge =>
    obtain ⟨encoded, valid, rfl⟩ := map_eq_ok.mp accepted
    exact Payload.mergeable_of_encodeSet valid
  | update path data =>
    obtain ⟨encoded, valid, rfl⟩ := map_eq_ok.mp accepted
    exact Payload.writable_of_encodeUpdate valid
  | delete path =>
    cases accepted
    trivial

namespace Documents

variable {documents after : Documents} {write : WriteOperation} {now : Timestamp}

/-- No marker stands in any document. -/
def Plain (documents : Documents) : Prop := ∀ entry ∈ documents, entry.2.Plain

private theorem Plain.find? (plain : documents.Plain) (text : String) :
    ∀ fields ∈ Entries.find? text documents, fields.Plain :=
  fun _ found => plain _ (Entries.mem_of_find? found)

/-- The markers of a write are resolved against documents that hold none. -/
theorem Plain.apply (plain : documents.Plain) (resolvable : write.Resolvable)
    (applied : documents.apply now write = .ok after) : after.Plain := by
  cases write with
  | set key data merge =>
    cases applied
    have before := plain.find? key.text
    exact Entries.forall_insert plain (Fields.plain_applySet before resolvable merge)
  | update key data paths =>
    obtain ⟨fields, updated, rfl⟩ := map_eq_ok.mp applied
    unfold Documents.updated at updated
    split at updated
    · cases updated
    · rename_i prior found
      cases updated
      have before := plain.find? key.text prior found
      exact Entries.forall_insert plain (before.updatePaths before resolvable)
  | delete key =>
    cases applied
    exact Entries.forall_erase plain

private theorem Plain.evolves {P : WriteRequest → Prop} (plain : documents.Plain)
    (evolves : documents.Evolves P after) : after.Plain := by
  induction evolves with
  | refl => exact plain
  | tail _ step ih =>
    obtain ⟨now, write, asked, applied⟩ := step
    exact ih.apply asked.checked.resolvable applied

end Documents

namespace Store

variable {store : Store}

/-- In a store that clients have written to, no document holds a marker at any depth. -/
theorem no_marker_stored (reached : store.Reached) :
    ∀ entry ∈ store.documents, ∀ field ∈ entry.2, ∀ v : Value, v.Inside field.2 →
      v.isSentinel = false := by
  have empty : Documents.Plain [] := List.forall_mem_nil _
  intro entry stored field mem
  exact Value.isPlain_iff_inside.mp (empty.evolves reached.evolves entry stored field mem)

/-- Three writes with markers to one room, the second of which is refused for a marker in an array. -/
def markedWrites : List ClientCall :=
  [.write (.set "rooms/attic" [("seen", .serverTimestamp),
      ("size", .map [("cellar", .deleteField), ("floors", .increment (.integer 2))])] false),
    .write (.set "rooms/attic" [("tags", .array [.deleteField])] true),
    .write (.update "rooms/attic" [("size.floors", .increment (.integer 1)),
      ("tags", .arrayUnion [.string "dry"])])]

theorem no_marker_stored_attic :
    let store := (markedWrites.foldl ClientCall.run (.new (.empty ⟨.new 0 0, 1⟩))).store
    store.Reached ∧
      store.documents = [("rooms/attic", [("seen", .timestamp (.new 0 0)),
        ("size", .map [("cellar", Value.deletionRecord), ("floors", .integer 3)]),
        ("tags", .array [.string "dry"])])] ∧
      ∀ entry ∈ store.documents, ∀ field ∈ entry.2, ∀ v : Value, v.Inside field.2 →
        v.isSentinel = false := by
  intro store
  have reached : store.Reached := .calls (.empty ⟨.new 0 0, 1⟩) markedWrites
  exact ⟨reached, rfl, no_marker_stored reached⟩

end Store

end DocumentStore
