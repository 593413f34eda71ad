import DocumentStore.Proofs.Path.Text
import DocumentStore.Proofs.Query.Execution
import DocumentStore.Proofs.Store.Documents

/-! # What is stored

Documents are stored under the texts of clean keys, each text once. Reading a document looks its text
up, while a query reads the keys back from the texts. The two tell the same exactly if no text under
which a document is stored begins or ends with a blank. -/

namespace DocumentStore

/-- The keys that a text can be read as are the clean ones. -/
theorem DocumentKey.exists_ofString {key : DocumentKey} :
    (∃ text, ofString text = .ok key) ↔ key.path.Clean := by
  constructor
  · rintro ⟨text, read⟩
    exact (ResourcePath.ofString_eq_ok.mp (ofString_eq_ok.mp read)).1
  · intro clean
    exact ⟨_, ofString_eq_ok.mpr clean.ofString_slashed⟩

/-- The plan of a query that was not narrowed asks for every document of the collection. -/
theorem Query.matches_of_plain {query : Query} {s : Snapshot} (plain : query.plan = .empty) :
    query.Matches s ↔ s.exists? ∧ s.key.collection = query.collection := by
  rw [matches_iff, selects_iff, withinBounds_iff, plain]
  simp [QueryPlan.empty, Snapshot.exists?, Option.isSome_iff_ne_none]

namespace Documents

variable {documents after : Documents} {write : WriteOperation} {now : Timestamp}
  {entry other : String × Fields} {s : Snapshot} {query : Query}
  {found : List Snapshot}

/-- Every document is stored under the text of a clean key, and no two under the same. -/
structure Kept (documents : Documents) : Prop where
  sorted : Entries.Sorted documents
  clean : ∀ entry ∈ documents, ∃ key : DocumentKey, key.path.Clean ∧ key.text = entry.1

theorem kept_nil : Kept [] := ⟨List.Pairwise.nil, nofun⟩

theorem Kept.apply (kept : Kept documents) (hkey : write.key.path.Clean)
    (applied : apply now documents write = .ok after) : Kept after := by
  obtain ⟨fields, rfl⟩ | rfl := apply_cases applied
  · refine ⟨kept.sorted.insert _ _, fun entry mem => ?_⟩
    rcases Entries.mem_insert mem with rfl | mem
    · exact ⟨write.key, hkey, rfl⟩
    · exact kept.clean entry mem
  · exact ⟨kept.sorted.erase _, fun entry mem =>
      kept.clean entry ((Entries.erase_sublist _ _).subset mem)⟩

theorem stored?_eq_some : stored? entry = some s ↔
    DocumentKey.ofString entry.1 = .ok s.key ∧ s.fields? = some entry.2 := by
  obtain ⟨key, fields?⟩ := s
  unfold stored?
  cases DocumentKey.ofString entry.1 with
  | ok k => simp [eq_comm]
  | error fault => simp

theorem readable_of_query (answered : documents.query query = .ok found) : Readable documents := by
  obtain ⟨candidates, listed, -⟩ := bind_eq_ok.mp answered
  replace listed := mapError_eq_ok.mp listed
  clear answered
  induction documents generalizing candidates with
  | nil => nofun
  | cons entry documents ih =>
    unfold snapshots at listed ih
    rw [List.mapM_cons] at listed
    obtain ⟨first, read, listed⟩ := bind_eq_ok.mp listed
    obtain ⟨rest, others, -⟩ := bind_eq_ok.mp listed
    obtain ⟨key, hkey, -⟩ := map_eq_ok.mp read
    exact List.forall_mem_cons.mpr ⟨⟨key, hkey⟩, ih rest others⟩

theorem query_of_plain (readable : Readable documents) (plain : query.plan = .empty) :
    documents.query query = .ok (query.matching (documents.filterMap stored?)) := by
  unfold Documents.query
  rw [snapshots_eq readable, mapError_ok]
  simp only [bind, Except.bind]
  rw [Query.run_eq (by rw [plain]; rfl), plain]
  rfl

theorem mem_query_of_plain (plain : query.plan = .empty) :
    s ∈ query.matching (documents.filterMap stored?) ↔
      (∃ entry ∈ documents, stored? entry = some s) ∧
        s.exists? ∧ s.key.collection = query.collection := by
  rw [Query.mem_matching, List.mem_filterMap, Query.matches_of_plain plain]

/-- A query does not list two entries under one key. -/
def Apart (query : Query) (entry other : String × Fields) : Prop :=
  ∀ s t, stored? entry = some s → stored? other = some t → query.Matches s → query.Matches t →
    s.key ≠ t.key

instance : Std.Symm (Apart query) where
  symm _ _ apart s t hs ht ms mt same := apart t s ht hs mt ms same.symm

theorem nodup_query_iff :
    ((query.matching (documents.filterMap stored?)).map Snapshot.key).Nodup ↔
      documents.Pairwise (Apart query) := by
  rw [((query.matching_perm _).map _).nodup_iff, List.Nodup, List.pairwise_map,
    List.filter_filterMap, List.pairwise_filterMap]
  refine List.Pairwise.iff fun entry other => ?_
  simp only [Apart, Option.filter_eq_some_iff, Bool.and_eq_true, Query.matches_iff]
  grind

theorem eq_of_nodup_query {key : DocumentKey} (plain : query.plan = .empty)
    (distinct : ((query.matching (documents.filterMap stored?)).map Snapshot.key).Nodup)
    (hentry : entry ∈ documents) (hother : other ∈ documents)
    (first : DocumentKey.ofString entry.1 = .ok key)
    (second : DocumentKey.ofString other.1 = .ok key)
    (inside : key.collection = query.collection) : entry = other := by
  refine Classical.byContradiction fun differ => ?_
  have apart := (nodup_query_iff.mp distinct).forall hentry hother differ
  have matched (fields : Fields) : query.Matches ⟨key, some fields⟩ :=
    (Query.matches_of_plain plain).mpr ⟨rfl, inside⟩
  exact apart _ _ (stored?_eq_some.mpr ⟨first, rfl⟩) (stored?_eq_some.mpr ⟨second, rfl⟩)
    (matched entry.2) (matched other.2) rfl

/-- A list holds, once each, the documents of a collection that are found under clean keys. -/
structure Lists (documents : Documents) (collection : ResourcePath) (found : List Snapshot) :
    Prop where
  distinct : (found.map Snapshot.key).Nodup
  mem_iff : ∀ s, s ∈ found ↔
    s.exists? ∧ s.key.collection = collection ∧ s.key.path.Clean ∧ documents.snapshot s.key = s

theorem Kept.snapshot_eq_iff (kept : Kept documents) {key : DocumentKey} {fields : Fields} :
    documents.snapshot key = ⟨key, some fields⟩ ↔ (key.text, fields) ∈ documents := by
  rw [← kept.sorted.find?_eq_some, snapshot, Snapshot.mk.injEq, and_iff_right rfl]

/-- A stored text without blanks at its ends reads back as the key it came from. -/
theorem Kept.ofString_eq_ok (kept : Kept documents) (mem : entry ∈ documents)
    (trimmed : Text.trim entry.1 = entry.1) {key : DocumentKey} :
    DocumentKey.ofString entry.1 = .ok key ↔ key.path.Clean ∧ key.text = entry.1 := by
  obtain ⟨origin, clean, text⟩ := kept.clean entry mem
  rw [← text] at trimmed ⊢
  have read : DocumentKey.ofString origin.text = .ok origin :=
    DocumentKey.ofString_eq_ok.mpr (clean.ofString_text_iff.mpr trimmed)
  rw [read, Except.ok.injEq]
  constructor
  · rintro rfl
    exact ⟨clean, rfl⟩
  · rintro ⟨hkey, same⟩
    exact DocumentKey.eq_of_text clean hkey same.symm

section Trimmed

variable (kept : Kept documents) (trimmed : ∀ entry ∈ documents, Text.trim entry.1 = entry.1)

include kept trimmed

private theorem readable_of_trimmed : Readable documents := by
  intro entry mem
  obtain ⟨key, clean, text⟩ := kept.clean entry mem
  exact ⟨key, (kept.ofString_eq_ok mem (trimmed entry mem)).mpr ⟨clean, text⟩⟩

private theorem exists_stored?_eq_some_iff (present : s.exists?) :
    (∃ entry ∈ documents, stored? entry = some s) ↔
      s.key.path.Clean ∧ documents.snapshot s.key = s := by
  obtain ⟨key, fields?⟩ := s
  obtain ⟨fields, rfl⟩ := Option.isSome_iff_exists.mp present
  rw [kept.snapshot_eq_iff]
  constructor
  · rintro ⟨entry, mem, stored⟩
    obtain ⟨read, same⟩ := stored?_eq_some.mp stored
    obtain ⟨clean, text⟩ := (kept.ofString_eq_ok mem (trimmed entry mem)).mp read
    have itself : (key.text, fields) = entry := Prod.ext text (Option.some.inj same)
    exact ⟨clean, itself ▸ mem⟩
  · rintro ⟨clean, mem⟩
    have read := (kept.ofString_eq_ok mem (trimmed _ mem)).mpr ⟨clean, rfl⟩
    exact ⟨(key.text, fields), mem, stored?_eq_some.mpr ⟨read, rfl⟩⟩

/-- If no stored text has blanks at its ends, queries agree with reads of single documents. -/
theorem lists_of_trimmed (plain : query.plan = .empty) :
    ∃ found, documents.query query = .ok found ∧ documents.Lists query.collection found := by
  refine ⟨_, query_of_plain (readable_of_trimmed kept trimmed) plain, ?_, fun s => ?_⟩
  · refine nodup_query_iff.mpr (kept.sorted.imp_of_mem fun hentry hother before s t hs ht _ _ same => ?_)
    have first := (kept.ofString_eq_ok hentry (trimmed _ hentry)).mp (stored?_eq_some.mp hs).1
    have second := (kept.ofString_eq_ok hother (trimmed _ hother)).mp (stored?_eq_some.mp ht).1
    rw [← first.2, ← second.2, same] at before
    exact String.lt_irrefl _ before
  · rw [mem_query_of_plain plain]
    constructor
    · rintro ⟨stored, present, inside⟩
      exact ⟨present, inside, (exists_stored?_eq_some_iff kept trimmed present).mp stored⟩
    · rintro ⟨present, inside, clean⟩
      exact ⟨(exists_stored?_eq_some_iff kept trimmed present).mpr clean, present, inside⟩

end Trimmed

/-- If queries over every collection agree with reads of single documents, no stored text has blanks
at its ends: a second reading would shorten the text, and then two documents would be listed under
one key. -/
theorem Kept.trimmed_of_lists (kept : Kept documents)
    (lists : ∀ query : Query, query.plan = .empty → query.collection.Clean →
      Query.IsCollection query.collection →
        ∃ found, documents.query query = .ok found ∧ documents.Lists query.collection found) :
    ∀ entry ∈ documents, Text.trim entry.1 = entry.1 := by
  have listed (key : DocumentKey) (clean : key.path.Clean) :=
    lists ⟨key.collection, .empty⟩ rfl clean.parent key.isCollection_collection
  intro entry mem
  induction size : entry.1.length using Nat.strong_induction_on generalizing entry with
  | h n ih =>
    obtain ⟨text, fields⟩ := entry
    obtain ⟨origin, clean, rfl⟩ := kept.clean _ mem
    obtain ⟨found, answered, -⟩ := listed origin clean
    obtain ⟨key, read⟩ := readable_of_query answered _ mem
    have hkey : key.path.Clean := DocumentKey.exists_ofString.mp ⟨_, read⟩
    by_cases same : key.text = origin.text
    · obtain rfl := DocumentKey.eq_of_text hkey clean same
      exact clean.ofString_text_iff.mp (DocumentKey.ofString_eq_ok.mp read)
    · -- The document is listed under a key with a shorter text, so it is stored there as well.
      obtain ⟨found, answered, distinct, mem_iff⟩ := listed key hkey
      cases (query_of_plain (readable_of_query answered) rfl).symm.trans answered
      have stored : stored? (origin.text, fields) = some ⟨key, some fields⟩ :=
        stored?_eq_some.mpr ⟨read, rfl⟩
      have isListed := (mem_iff ⟨key, some fields⟩).mp
        ((mem_query_of_plain rfl).mpr ⟨⟨_, mem, stored⟩, rfl, rfl⟩)
      have again : (key.text, fields) ∈ documents := kept.snapshot_eq_iff.mp isListed.2.2.2
      have shorter : key.text.length < origin.text.length :=
        ResourcePath.length_text_lt (DocumentKey.ofString_eq_ok.mp read) same
      have trimmed := ih key.text.length (size ▸ shorter) _ again rfl
      have readAgain := (kept.ofString_eq_ok again trimmed).mpr ⟨hkey, rfl⟩
      have entries := eq_of_nodup_query rfl distinct again mem readAgain read rfl
      exact absurd (Prod.mk.inj entries).1 same

end Documents

end DocumentStore
