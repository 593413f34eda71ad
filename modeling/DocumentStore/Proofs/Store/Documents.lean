import DocumentStore.Proofs.Entries
import DocumentStore.Proofs.Outcome
import DocumentStore.Proofs.Store.Commit

/-! # What a write leaves alone

Documents are stored under texts. As long as every text reads back as the key it came from, a write
changes what is shown of a document or of a query only if it is to the document, or to a document of
the query's collection. -/

namespace DocumentStore

/-- The text of a key reads back as the key. -/
def DocumentKey.Readable (key : DocumentKey) : Prop := ofString key.text = .ok key

theorem DocumentKey.Readable.eq_of_text {a b : DocumentKey} (ha : a.Readable) (hb : b.Readable)
    (text : a.text = b.text) : a = b := by
  have same : (.ok a : Except PathFault DocumentKey) = .ok b := by rw [← ha, ← hb, text]
  exact Except.ok.inj same

namespace Documents

variable {now : Timestamp} {documents after : Documents} {write : WriteOperation}
  {writes : List WriteOperation}

/-- Every text under which a document is stored reads as a key. -/
def Readable (documents : Documents) : Prop :=
  ∀ entry ∈ documents, ∃ key, DocumentKey.ofString entry.1 = .ok key

/-- The snapshot of a stored document, if the text it is stored under reads as a key. -/
def stored? (entry : String × Fields) : Option Snapshot :=
  match DocumentKey.ofString entry.1 with
  | .ok key => some ⟨key, some entry.2⟩
  | .error _ => none

theorem snapshots_eq (readable : Readable documents) :
    snapshots documents = .ok (documents.filterMap stored?) := by
  induction documents with
  | nil => rfl
  | cons entry documents ih =>
    obtain ⟨key, hkey⟩ := readable entry List.mem_cons_self
    have tail := ih fun e he => readable e (List.mem_cons_of_mem _ he)
    unfold snapshots at tail ⊢
    rw [List.mapM_cons, tail, List.filterMap_cons]
    simp only [stored?, hkey]
    rfl

/-- The ways in which a write can change the documents. -/
theorem apply_cases (applied : apply now documents write = .ok after) :
    (∃ fields, after = Entries.insert write.key.text fields documents) ∨
      after = Entries.erase write.key.text documents := by
  cases write with
  | set key data merge =>
    cases applied
    exact .inl ⟨_, rfl⟩
  | update key data paths =>
    obtain ⟨fields, -, rfl⟩ := map_eq_ok.mp applied
    exact .inl ⟨fields, rfl⟩
  | delete key =>
    cases applied
    exact .inr rfl

theorem Readable.apply (readable : Readable documents) (hkey : write.key.Readable)
    (applied : apply now documents write = .ok after) : Readable after := by
  intro entry mem
  obtain ⟨fields, rfl⟩ | rfl := apply_cases applied
  · rcases Entries.mem_insert mem with rfl | mem
    · exact ⟨write.key, hkey⟩
    · exact readable entry mem
  · exact readable entry ((Entries.erase_sublist _ _).subset mem)

/-- Writes to one document leave every other document as it is. -/
theorem snapshot_apply {key : DocumentKey} (ne : key.text ≠ write.key.text)
    (applied : apply now documents write = .ok after) : after.snapshot key = documents.snapshot key := by
  obtain ⟨fields, rfl⟩ | rfl := apply_cases applied
  · rw [snapshot, Entries.find?_insert_of_ne ne, snapshot]
  · rw [snapshot, Entries.find?_erase_of_ne ne, snapshot]

theorem filter_apply {p : Snapshot → Bool} (hkey : write.key.Readable)
    (ignored : ∀ fields, p ⟨write.key, some fields⟩ = false)
    (applied : apply now documents write = .ok after) :
    (after.filterMap stored?).filter p = (documents.filterMap stored?).filter p := by
  have skipped (fields : Fields) : (stored? (write.key.text, fields)).filter p = none := by
    have stored : stored? (write.key.text, fields) = some ⟨write.key, some fields⟩ := by
      rw [stored?, hkey]
    rw [stored, Option.filter_some, ignored]
    rfl
  rw [List.filter_filterMap, List.filter_filterMap]
  obtain ⟨fields, rfl⟩ | rfl := apply_cases applied
  · exact Entries.filterMap_insert (f := fun entry => (stored? entry).filter p) skipped fields _
  · exact Entries.filterMap_erase (f := fun entry => (stored? entry).filter p) skipped _

end Documents

theorem Query.run_congr {query : Query} {documents others : List Snapshot}
    (same : documents.filter query.selects = others.filter query.selects) :
    query.run documents = query.run others := by
  unfold run
  rw [same]

theorem Query.not_selects {query : Query} {s : Snapshot}
    (outside : s.key.collection ≠ query.collection) : query.selects s = false := by
  simp [selects, outside]

/-- The document that a target names has a readable key. -/
def ListenTarget.Readable : ListenTarget → Prop
  | .document key => key.Readable
  | .query _ => True

namespace Documents

variable {now : Timestamp} {documents after : Documents} {write : WriteOperation}
  {writes : List WriteOperation} {target : ListenTarget}

theorem eventFor_apply (readable : Readable documents) (htarget : target.Readable)
    (hkey : write.key.Readable) (unconcerned : target.concerns write.key = false)
    (applied : apply now documents write = .ok after) :
    after.eventFor target = documents.eventFor target := by
  cases target with
  | document key =>
    have ne : key.text ≠ write.key.text := fun text =>
      absurd (htarget.eq_of_text hkey text) (by simpa [ListenTarget.concerns] using unconcerned)
    rw [eventFor, eventFor, snapshot_apply ne applied]
  | query q =>
    have outside : write.key.collection ≠ q.collection := by
      simpa [ListenTarget.concerns] using unconcerned
    have same := filter_apply (p := q.selects) hkey
      (fun fields => Query.not_selects outside) applied
    unfold eventFor Documents.query
    rw [snapshots_eq readable, snapshots_eq (readable.apply hkey applied)]
    simp only [mapError_ok, bind, Except.bind]
    rw [Query.run_congr same]

theorem Readable.applyAll (readable : Readable documents)
    (hkeys : ∀ write ∈ writes, write.key.Readable)
    (applied : applyAll now documents writes = .ok after) : Readable after := by
  induction writes generalizing documents with
  | nil =>
    cases applied
    exact readable
  | cons write writes ih =>
    obtain ⟨between, first, rest⟩ := bind_eq_ok.mp applied
    rw [List.forall_mem_cons] at hkeys
    exact ih (readable.apply hkeys.1 first) hkeys.2 rest

/-- A list of writes none of which concerns a target leaves what is shown of it as it is. -/
theorem eventFor_applyAll (readable : Readable documents) (htarget : target.Readable)
    (hkeys : ∀ write ∈ writes, write.key.Readable)
    (unconcerned : ∀ write ∈ writes, target.concerns write.key = false)
    (applied : applyAll now documents writes = .ok after) :
    after.eventFor target = documents.eventFor target := by
  induction writes generalizing documents with
  | nil =>
    cases applied
    rfl
  | cons write writes ih =>
    obtain ⟨between, first, rest⟩ := bind_eq_ok.mp applied
    rw [List.forall_mem_cons] at hkeys unconcerned
    rw [ih (readable.apply hkeys.1 first) hkeys.2 unconcerned.2 rest,
      eventFor_apply readable htarget hkeys.1 unconcerned.1 first]

end Documents

end DocumentStore
