import DocumentStore.Proofs.Entries
import DocumentStore.Proofs.Outcome
import DocumentStore.Store.Memory

/-! # Commits

A write reads the document that it is about, and replaces or removes it. An attempt to commit either
replaces the documents by those after every write, or leaves the store as it was up to its clock. -/

namespace DocumentStore

/-- What a write makes of the document that it is about: its new fields, or nothing. Only an update needs
a document to be there. -/
def WriteOperation.outcome (now : Timestamp) (prior : Option Fields) :
    WriteOperation → Except Error (Option Fields)
  | .set _ data merge => .ok (some (Fields.applySet prior data merge now))
  | .update key data paths =>
    match prior with
    | none => .error (.noDocument key.text)
    | some fields => .ok (some (Fields.applyUpdate fields data paths now))
  | .delete _ => .ok none

namespace Documents

variable {now : Timestamp} {documents after : Documents} {write : WriteOperation}
  {writes : List WriteOperation}

/-- Writes have taken effect one after another: each has left under the text of its key what it makes of
the document that was there, and every other document as it was. -/
inductive Written (now : Timestamp) : Documents → List WriteOperation → Documents → Prop
  | nil {documents : Documents} : Written now documents [] documents
  | cons {documents between after : Documents} {write : WriteOperation} {writes : List WriteOperation}
      (sorted : Entries.Sorted between)
      (made : write.outcome now (Entries.find? write.key.text documents)
        = .ok (Entries.find? write.key.text between))
      (kept : ∀ text, text ≠ write.key.text →
        Entries.find? text between = Entries.find? text documents)
      (later : Written now between writes after) : Written now documents (write :: writes) after

theorem applyAll_cons (write : WriteOperation) (writes : List WriteOperation) :
    documents.applyAll now (write :: writes)
      = documents.apply now write >>= fun after => after.applyAll now writes := rfl

/-- A write reads one document, and assigns to it. -/
theorem apply_eq (now : Timestamp) (documents : Documents) (write : WriteOperation) :
    apply now documents write
      = (write.outcome now (Entries.find? write.key.text documents)).map fun next =>
        Entries.assign write.key.text next documents := by
  cases write with
  | set key data merge => rfl
  | update key data paths =>
    rw [apply, WriteOperation.key]
    cases Entries.find? key.text documents <;> rfl
  | delete key => rfl

theorem sorted_apply (sorted : Entries.Sorted documents)
    (applied : apply now documents write = .ok after) : Entries.Sorted after := by
  rw [apply_eq] at applied
  obtain ⟨next, -, rfl⟩ := map_eq_ok.mp applied
  exact sorted.assign _ _

/-- The documents after a write are told by their look-ups. -/
theorem apply_eq_ok_iff (sorted : Entries.Sorted documents) :
    apply now documents write = .ok after ↔
      Entries.Sorted after ∧
        write.outcome now (Entries.find? write.key.text documents)
          = .ok (Entries.find? write.key.text after) ∧
        ∀ text, text ≠ write.key.text → Entries.find? text after = Entries.find? text documents := by
  constructor
  · intro applied
    refine ⟨sorted_apply sorted applied, ?_⟩
    rw [apply_eq] at applied
    obtain ⟨next, made, rfl⟩ := map_eq_ok.mp applied
    rw [Entries.find?_assign_self sorted]
    exact ⟨made, fun text other => Entries.find?_assign_of_ne other next documents⟩
  · rintro ⟨sortedAfter, made, kept⟩
    rw [apply_eq, made]
    refine congrArg Except.ok ((sorted.assign _ _).ext sortedAfter fun text => ?_)
    by_cases own : text = write.key.text
    · rw [own, Entries.find?_assign_self sorted]
    · rw [Entries.find?_assign_of_ne own, kept text own]

/-- The documents after some writes are those on which the writes have taken effect. -/
theorem applyAll_eq_ok_iff (sorted : Entries.Sorted documents) :
    applyAll now documents writes = .ok after ↔ Written now documents writes after := by
  induction writes generalizing documents with
  | nil =>
    constructor
    · intro applied
      obtain rfl : documents = after := Except.ok.inj applied
      exact .nil
    · intro written
      cases written
      rfl
  | cons write writes ih =>
    rw [applyAll_cons, bind_eq_ok]
    constructor
    · rintro ⟨between, applied, later⟩
      obtain ⟨sortedBetween, made, kept⟩ := (apply_eq_ok_iff sorted).mp applied
      exact .cons sortedBetween made kept ((ih sortedBetween).mp later)
    · intro written
      cases written with
      | cons sortedBetween made kept later =>
        exact ⟨_, (apply_eq_ok_iff sorted).mpr ⟨sortedBetween, made, kept⟩,
          (ih sortedBetween).mpr later⟩

end Documents

namespace Store

variable {store after : Store} {documents : Documents} {writes : List WriteOperation}

/-- Two stores hold the same documents, registrations and queues. -/
structure Same (store after : Store) : Prop where
  documents : after.documents = store.documents
  listeners : after.listeners = store.listeners
  mailboxes : after.mailboxes = store.mailboxes

theorem Same.refl (store : Store) : Same store store := ⟨rfl, rfl, rfl⟩

theorem Same.symm (same : Same store after) : Same after store :=
  ⟨same.documents.symm, same.listeners.symm, same.mailboxes.symm⟩

theorem Same.trans {between : Store} (first : Same store between) (second : Same between after) :
    Same store after :=
  ⟨second.documents.trans first.documents, second.listeners.trans first.listeners,
    second.mailboxes.trans first.mailboxes⟩

/-- The store after an attempt to commit that did not succeed. -/
def ticked (store : Store) : Store := { store with clock := store.clock.tick }

theorem same_ticked (store : Store) : Same store store.ticked := ⟨rfl, rfl, rfl⟩

theorem commit_of_ok (applied : store.documents.applyAll store.clock.now writes = .ok documents) :
    store.commit writes = (.ok (), store.ticked.replace documents writes) := by
  simp only [commit, applied, ticked]

theorem commit_of_error {e : Error}
    (refused : store.documents.applyAll store.clock.now writes = .error e) :
    store.commit writes = (.error e, store.ticked) := by
  simp only [commit, refused, ticked]

/-- What is left of a store after some writes were to be committed: the documents after every write,
or the store as it was. -/
def Commits (store : Store) (writes : List WriteOperation) (result : Except Error Unit)
    (after : Store) : Prop :=
  match result with
  | .ok () => store.documents.applyAll store.clock.now writes = .ok after.documents
  | .error _ => Same store after

theorem commits_commit (store : Store) (writes : List WriteOperation) :
    store.Commits writes (store.commit writes).1 (store.commit writes).2 := by
  cases applied : store.documents.applyAll store.clock.now writes with
  | ok documents =>
    rw [commit_of_ok applied]
    exact applied
  | error e =>
    rw [commit_of_error applied]
    exact same_ticked store

end Store

end DocumentStore
