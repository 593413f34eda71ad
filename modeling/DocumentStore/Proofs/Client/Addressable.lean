import DocumentStore.Proofs.Client.Reached
import DocumentStore.Proofs.Store.Batch
import DocumentStore.Proofs.Store.Reordering
import DocumentStore.Proofs.Write.Keys

/-! # Fields that paths lead to

A field is read at the path made of the keys that lead to it, and there is such a path unless one of the
keys is empty. Sets and merges never store an empty key. An update stores those of the maps in its
payload, and no path leads to the fields below them. -/

namespace DocumentStore

private theorem FieldPath.new_eq_ok {keys : List String} {path : FieldPath} :
    new keys = .ok path ↔ path.segments = keys := by
  constructor
  · intro made
    unfold new at made
    split at made
    · cases made
    · split at made
      · cases made
      · cases made
        rfl
  · rintro rfl
    rw [new, dif_neg path.nonempty, dif_neg path.filled]

namespace WriteRequest

/-- The data of a request is a sorted table, and so are the maps in it. -/
def Tabular : WriteRequest → Prop
  | .set _ data _ => data.Ordered
  | .update _ data => data.Ordered
  | .delete _ => True

/-- No map among the values of an update has an empty key, nor have the maps in its fields. -/
def Filled : WriteRequest → Prop
  | .set .. => True
  | .update _ data => ∀ entry ∈ data, entry.2.Filled
  | .delete _ => True

/-- What an accepted request makes of the document that it is about. -/
inductive Makes (now : Timestamp) : WriteRequest → Option Fields → Option Fields → Prop where
  | set {path : String} {data encoded : Fields} {merge : Bool} {prior : Option Fields}
      (accepted : Payload.encodeSet data = .ok encoded) :
      Makes now (.set path data merge) prior (some (Fields.applySet prior encoded merge now))
  | update {path : String} {data prior : Fields} {update : Payload.UpdateData}
      (accepted : Payload.encodeUpdate data = .ok update) :
      Makes now (.update path data) (some prior)
        (some (Fields.applyUpdate prior update.data update.paths now))
  | delete {path : String} {prior : Option Fields} : Makes now (.delete path) prior none

variable {request : WriteRequest} {write : WriteOperation} {now : Timestamp}
  {prior next : Option Fields}

private theorem makes_of_outcome (checked : request.check = .ok write)
    (applied : write.outcome now prior = .ok next) : request.Makes now prior next := by
  have accepted := (check_eq_ok.mp checked).2
  generalize write.key = key at accepted
  cases request with
  | set path data merge =>
    obtain ⟨encoded, valid, rfl⟩ := map_eq_ok.mp accepted
    cases applied
    exact .set valid
  | update path data =>
    obtain ⟨encoded, valid, rfl⟩ := map_eq_ok.mp accepted
    cases prior with
    | none => cases applied
    | some fields =>
      cases applied
      exact .update valid
  | delete path =>
    cases accepted
    cases applied
    exact .delete

section Makes

variable (makes : request.Makes now prior next) (tabular : request.Tabular)
  (orderedPrior : ∀ fields ∈ prior, fields.Ordered)

include makes tabular orderedPrior

private theorem Makes.ordered : ∀ fields ∈ next, fields.Ordered := by
  cases makes with
  | set accepted =>
    rintro fields ⟨⟩
    exact Fields.ordered_applySet orderedPrior (Payload.ordered_of_encodeSet tabular accepted)
      (Payload.mergeable_of_encodeSet accepted) _ now
  | update accepted =>
    rintro fields ⟨⟩
    exact Fields.ordered_applyUpdate accepted (orderedPrior _ rfl) tabular now
  | delete => exact nofun

theorem Makes.filled_iff (filled : ∀ fields ∈ prior, fields.Filled) :
    (∀ fields ∈ next, fields.Filled) ↔ request.Filled := by
  cases makes with
  | set accepted =>
    refine iff_of_true ?_ trivial
    rintro fields ⟨⟩
    exact Fields.filled_applySet orderedPrior filled (Payload.ordered_of_encodeSet tabular accepted)
      (Payload.mergeable_of_encodeSet accepted) _ now
  | update accepted =>
    rw [Filled, ← Fields.filled_applyUpdate_iff (orderedPrior _ rfl) (filled _ rfl) tabular accepted now]
    simp
  | delete => exact iff_of_true nofun trivial

end Makes

end WriteRequest

namespace Documents

variable {documents after : Documents} {request : WriteRequest} {write : WriteOperation}
  {now : Timestamp}

/-- The table of the documents is sorted, and so are the tables on the way to their fields. -/
structure Ordered (documents : Documents) : Prop where
  sorted : Entries.Sorted documents
  inner : ∀ entry ∈ documents, entry.2.Ordered

/-- No key on the way to a field of any document is empty. -/
def Filled (documents : Documents) : Prop := ∀ entry ∈ documents, entry.2.Filled

private theorem ordered_nil : Ordered [] := ⟨List.Pairwise.nil, List.forall_mem_nil _⟩

private theorem filled_nil : Filled [] := List.forall_mem_nil _

/-- Every document is read under its key, and everything in it that is reached through maps is read at the
path made of the keys that lead there. -/
def Addressable (documents : Documents) : Prop :=
  ∀ entry ∈ documents, ∃ key : DocumentKey, key.path.Clean ∧ key.text = entry.1 ∧
    documents.snapshot key = ⟨key, some entry.2⟩ ∧
    ∀ keys v, entry.2.Holds keys v →
      ∃ path, FieldPath.new keys = .ok path ∧ (documents.snapshot key).get? path = some v

private theorem addressable_iff_filled (kept : documents.Kept) (ordered : documents.Ordered) :
    documents.Addressable ↔ documents.Filled := by
  constructor
  · intro addressable entry mem
    obtain ⟨key, -, -, -, reached⟩ := addressable entry mem
    refine Fields.filled_iff_holds.mpr fun keys v holds => ?_
    obtain ⟨path, made, -⟩ := reached keys v holds
    exact FieldPath.new_eq_ok.mp made ▸ path.filled
  · intro filled entry mem
    obtain ⟨key, clean, text⟩ := kept.clean entry mem
    have stored : documents.snapshot key = ⟨key, some entry.2⟩ :=
      kept.snapshot_eq_iff.mpr (text ▸ mem)
    refine ⟨key, clean, text, stored, fun keys v holds => ?_⟩
    have named := Fields.filled_iff_holds.mp (filled entry mem) keys v holds
    have found := (Fields.holds_iff_get? (ordered.inner entry mem)).mp holds
    refine ⟨⟨keys, holds.nonempty, named⟩, FieldPath.new_eq_ok.mpr rfl, ?_⟩
    rw [stored]
    exact found

/-- A write reads one document and assigns what its request makes of that one. -/
theorem exists_makes (checked : request.check = .ok write)
    (applied : documents.apply now write = .ok after) :
    ∃ next, request.Makes now (Entries.find? write.key.text documents) next ∧
      after = Entries.assign write.key.text next documents := by
  rw [apply_eq] at applied
  obtain ⟨next, made, rfl⟩ := map_eq_ok.mp applied
  exact ⟨next, WriteRequest.makes_of_outcome checked made, rfl⟩

section Apply

variable (ordered : documents.Ordered) (tabular : request.Tabular)
  (checked : request.check = .ok write) (applied : documents.apply now write = .ok after)

include ordered tabular checked applied

theorem Ordered.apply : after.Ordered := by
  obtain ⟨next, makes, rfl⟩ := exists_makes checked applied
  refine ⟨ordered.sorted.assign _ _, Entries.forall_assign ordered.inner ?_⟩
  exact makes.ordered tabular fun fields found => ordered.inner _ (Entries.mem_of_find? found)

/-- What a write leaves has no empty key if and only if its request brings none. -/
theorem Filled.apply_iff (filled : documents.Filled) : after.Filled ↔ request.Filled := by
  obtain ⟨next, makes, rfl⟩ := exists_makes checked applied
  rw [← makes.filled_iff tabular (fun fields found => ordered.inner _ (Entries.mem_of_find? found))
    fun fields found => filled _ (Entries.mem_of_find? found)]
  constructor
  · intro filledAfter fields made
    have found : Entries.find? write.key.text (Entries.assign write.key.text next documents)
        = some fields := (Entries.find?_assign_self ordered.sorted next).trans made
    exact filledAfter _ (Entries.mem_of_find? found)
  · exact Entries.forall_assign filled

end Apply

private theorem Ordered.evolves (ordered : documents.Ordered)
    (evolves : documents.Evolves WriteRequest.Tabular after) : after.Ordered := by
  induction evolves with
  | refl => exact ordered
  | tail _ step ih =>
    obtain ⟨now, write, ⟨request, tabular, checked⟩, applied⟩ := step
    exact ih.apply tabular checked applied

private theorem Filled.evolves (filled : documents.Filled) (ordered : documents.Ordered)
    (evolves : documents.Evolves (fun request => request.Tabular ∧ request.Filled) after) :
    after.Ordered ∧ after.Filled := by
  induction evolves with
  | refl => exact ⟨ordered, filled⟩
  | tail _ step ih =>
    obtain ⟨now, write, ⟨request, ⟨tabular, named⟩, checked⟩, applied⟩ := step
    obtain ⟨ordered, filled⟩ := ih
    exact ⟨ordered.apply tabular checked applied,
      (filled.apply_iff ordered tabular checked applied).mpr named⟩

end Documents

namespace Client

variable {client after : Client Store} {request : WriteRequest}

theorem exists_applied (performed : (write request).run client = (.ok (), after)) :
    ∃ operation, request.check = .ok operation ∧
      client.store.documents.apply client.store.clock.now operation = .ok after.store.documents := by
  rw [write, run_bind, run_active] at performed
  cases active : client.ensureActive request.operation with
  | error e =>
    rw [active] at performed
    cases performed
  | ok _ =>
    rw [active] at performed
    cases checked : request.check with
    | error e =>
      rw [checked] at performed
      cases performed
    | ok operation =>
      rw [checked] at performed
      have commits := client.store.commits_commit [operation]
      obtain ⟨committed, rfl⟩ : (client.store.commit [operation]).1 = .ok () ∧
          { client with store := (client.store.commit [operation]).2 } = after :=
        Prod.mk.inj performed
      rw [committed] at commits
      exact ⟨operation, rfl, (Documents.applyAll_singleton operation).symm.trans commits⟩

/-- As long as no update brings a map with an empty key, all fields of all documents that clients have
written have paths at which they are read. An accepted request keeps it so exactly if it is not such an
update, whatever the documents are and whatever was written before. -/
theorem stored_fields_addressable (reached : client.store.ReachedBy WriteRequest.Tabular) :
    (client.store.ReachedBy (fun request => request.Tabular ∧ request.Filled) →
      client.store.documents.Addressable) ∧
    ∀ (request : WriteRequest) (after : Client Store), request.Tabular →
      (write request).run client = (.ok (), after) → client.store.documents.Addressable →
      (after.store.documents.Addressable ↔ request.Filled) := by
  have ordered := Documents.ordered_nil.evolves reached.evolves
  have iffFilled := Documents.addressable_iff_filled reached.kept ordered
  refine ⟨fun named => ?_, fun request after tabular performed addressable => ?_⟩
  · exact iffFilled.mpr (Documents.filled_nil.evolves Documents.ordered_nil named.evolves).2
  · obtain ⟨operation, checked, applied⟩ := exists_applied performed
    have clean : operation.key.path.Clean := WriteOperation.Checked.clean ⟨request, checked⟩
    rw [Documents.addressable_iff_filled (reached.kept.apply clean applied)
      (ordered.apply tabular checked applied)]
    exact (iffFilled.mp addressable).apply_iff ordered tabular checked applied

/-- A room with a field in a map. -/
def fitting : WriteRequest := .set "rooms/attic" [("size", .map [("floors", .integer 2)])] false

/-- Puts a label with a certain name on the room. -/
def labelling (name : String) : WriteRequest :=
  .update "rooms/attic" [("labels", .map [(name, .integer 1)])]

def fittedAttic : Client Store :=
  (ClientCall.write fitting).run (.new (.empty ⟨.new 0 0, 1⟩))

def labelledAttic (name : String) : Client Store := (ClientCall.write (labelling name)).run fittedAttic

theorem tabular_fitting : fitting.Tabular := by
  rw [fitting, WriteRequest.Tabular]
  decide

theorem tabular_labelling (name : String) : (labelling name).Tabular :=
  Fields.ordered_iff.mpr ⟨List.pairwise_singleton _ _, List.forall_mem_singleton.mpr
    (.map (List.pairwise_singleton _ _) (List.forall_mem_singleton.mpr (.leaf rfl)))⟩

theorem reachedBy_fittedAttic {P : WriteRequest → Prop} (kind : P fitting) :
    fittedAttic.store.ReachedBy P :=
  .call (.empty ⟨.new 0 0, 1⟩) kind

/-- An empty key in the value of an update is stored, and no path leads to it. -/
theorem not_stored_fields_addressable :
    ¬ ∀ store : Store, store.ReachedBy WriteRequest.Tabular → store.documents.Addressable := by
  intro addressable
  have reached : (labelledAttic "").store.ReachedBy WriteRequest.Tabular :=
    (reachedBy_fittedAttic tabular_fitting).call (tabular_labelling "")
  have stored : (labelledAttic "").store.documents = [("rooms/attic",
      [("labels", .map [("", .integer 1)]), ("size", .map [("floors", .integer 2)])])] := rfl
  have attic := addressable _ reached
  rw [stored] at attic
  obtain ⟨key, -, -, -, found⟩ := attic _ List.mem_cons_self
  obtain ⟨path, made, -⟩ := found ["labels", ""] (.integer 1)
    (.inside List.mem_cons_self (.field List.mem_cons_self))
  cases made

theorem stored_fields_addressable_attic :
    fittedAttic.store.ReachedBy WriteRequest.Tabular ∧
      fittedAttic.store.ReachedBy (fun request => request.Tabular ∧ request.Filled) ∧
      fittedAttic.store.documents.Addressable ∧
      (write (labelling "north")).run fittedAttic = (.ok (), labelledAttic "north") ∧
      (labelledAttic "north").store.documents.Addressable ∧
      (write (labelling "")).run fittedAttic = (.ok (), labelledAttic "") ∧
      ¬ (labelledAttic "").store.documents.Addressable := by
  have reached : fittedAttic.store.ReachedBy (fun request => request.Tabular ∧ request.Filled) :=
    reachedBy_fittedAttic ⟨tabular_fitting, trivial⟩
  have north : (write (labelling "north")).run fittedAttic = (.ok (), labelledAttic "north") := rfl
  have blank : (write (labelling "")).run fittedAttic = (.ok (), labelledAttic "") := rfl
  have tabular : fittedAttic.store.ReachedBy WriteRequest.Tabular :=
    reachedBy_fittedAttic tabular_fitting
  obtain ⟨addressed, next⟩ := stored_fields_addressable tabular
  have addressable := addressed reached
  have kept := next _ _ (tabular_labelling "north") north addressable
  have lost := next _ _ (tabular_labelling "") blank addressable
  refine ⟨tabular, reached, addressable, north, kept.mpr ?_, blank, fun all => ?_⟩
  · exact List.forall_mem_singleton.mpr (.map (List.forall_mem_singleton.mpr (by decide))
      (List.forall_mem_singleton.mpr (.leaf rfl)))
  · have named := (Value.filled_map.mp (lost.mp all _ List.mem_cons_self)).1
    exact named _ List.mem_cons_self rfl

end Client

end DocumentStore
