import DocumentStore.Proofs.Client.Reached

/-! # Queries agree with reads

In a store that clients have written to, whether queries show what reads of single documents show
depends only on the texts under which documents are stored. -/

namespace DocumentStore

theorem Query.ofCollection_eq_ok {path : String} {query : Query} :
    ofCollection path = .ok query ↔
      ResourcePath.ofString path = .ok query.collection ∧ IsCollection query.collection ∧
        query.plan = .empty := by
  obtain ⟨collection, plan⟩ := query
  unfold ofCollection
  constructor
  · intro opened
    obtain ⟨path, read, opened⟩ := bind_eq_ok.mp opened
    split at opened
    · rename_i odd
      cases opened
      exact ⟨mapError_eq_ok.mp read, odd, rfl⟩
    · cases opened
  · rintro ⟨read, odd, rfl⟩
    rw [read, mapError_ok]
    exact if_pos odd

namespace Client

variable {client : Client Store}

/-- A query over a collection is answered by the documents in the collection, once each, that can be
read by their paths. -/
def Agrees (client : Client Store) : Prop :=
  ∀ path query, Query.ofCollection path = .ok query →
    ∃ found, (getDocs query).run client = (.ok ⟨query, found⟩, client) ∧
      (found.map Snapshot.key).Nodup ∧
      ∀ s, s ∈ found ↔ s.exists? ∧ s.key.collection = query.collection ∧
        ∃ path, (getDoc path).run client = (.ok s, client)

theorem run_getDoc (active : client.cancelled = false) (path : String) :
    (getDoc path).run client
      = ((documentKey path).map client.store.documents.snapshot, client) := by
  rw [getDoc, run_bind, run_active, ensureActive, active]
  cases documentKey path with
  | error e => rfl
  | ok key => rfl

private theorem run_getDocs (active : client.cancelled = false) (query : Query) :
    (getDocs query).run client
      = ((client.store.documents.query query).map (QueryResult.mk query), client) := by
  have performed : (perform (Datastore.query query)).run client
      = (client.store.documents.query query, client) := rfl
  rw [getDocs, run_bind, run_active, ensureActive, active]
  change (perform (Datastore.query query) >>= _).run client = _
  rw [run_bind, performed]
  cases client.store.documents.query query with
  | error e => rfl
  | ok found => rfl

theorem getDocs_eq_ok (active : client.cancelled = false) {query : Query}
    {found : List Snapshot} :
    (getDocs query).run client = (.ok ⟨query, found⟩, client) ↔
      client.store.documents.query query = .ok found := by
  rw [run_getDocs active]
  constructor
  · intro same
    obtain ⟨_, answered, same⟩ := map_eq_ok.mp (Prod.mk.inj same).1
    cases same
    exact answered
  · intro answered
    rw [answered]
    rfl

private theorem getDoc_eq_ok (active : client.cancelled = false) {path : String} {s : Snapshot} :
    (getDoc path).run client = (.ok s, client) ↔
      DocumentKey.ofString path = .ok s.key ∧ client.store.documents.snapshot s.key = s := by
  rw [run_getDoc active, documentKey]
  constructor
  · intro same
    obtain ⟨key, read, rfl⟩ := map_eq_ok.mp (Prod.mk.inj same).1
    exact ⟨mapError_eq_ok.mp read, rfl⟩
  · rintro ⟨read, stored⟩
    rw [read, mapError_ok, Except.map, stored]

/-- What can be read by paths is what is stored under clean keys. -/
theorem exists_getDoc_eq_ok (active : client.cancelled = false) {s : Snapshot} :
    (∃ path, (getDoc path).run client = (.ok s, client)) ↔
      s.key.path.Clean ∧ client.store.documents.snapshot s.key = s := by
  simp only [getDoc_eq_ok active, exists_and_right, DocumentKey.exists_ofString]

private theorem agrees_iff_lists (active : client.cancelled = false) :
    client.Agrees ↔ ∀ query : Query, query.plan = .empty → query.collection.Clean →
      Query.IsCollection query.collection →
        ∃ found, client.store.documents.query query = .ok found ∧
          client.store.documents.Lists query.collection found := by
  simp only [Agrees, getDocs_eq_ok active, exists_getDoc_eq_ok active]
  constructor
  · intro agrees query plain clean odd
    obtain ⟨found, answered, distinct, mem_iff⟩ := agrees _ query
      (Query.ofCollection_eq_ok.mpr ⟨clean.ofString_slashed, odd, plain⟩)
    exact ⟨found, answered, distinct, mem_iff⟩
  · intro lists path query opened
    obtain ⟨read, odd, plain⟩ := Query.ofCollection_eq_ok.mp opened
    obtain ⟨found, answered, distinct, mem_iff⟩ :=
      lists query plain (ResourcePath.ofString_eq_ok.mp read).1 odd
    exact ⟨found, answered, distinct, mem_iff⟩

/-- In a store that clients have written to, queries over collections agree with reads of single
documents if and only if no text under which a document is stored begins or ends with a blank. -/
theorem agrees_iff_trimmed (reached : client.store.Reached) (active : client.cancelled = false) :
    client.Agrees ↔ ∀ entry ∈ client.store.documents, Text.trim entry.1 = entry.1 := by
  rw [agrees_iff_lists active]
  constructor
  · exact reached.kept.trimmed_of_lists
  · intro trimmed query plain _ _
    exact Documents.lists_of_trimmed reached.kept trimmed plain

/-- A client that has written one document. -/
def afterSet (path : String) : Client Store :=
  (ClientCall.write (.set path [] false)).run (.new (.empty ⟨.new 0 0, 1⟩))

theorem reached_afterSet (path : String) : (afterSet path).store.Reached :=
  .call (.empty ⟨.new 0 0, 1⟩) (.write (.set path [] false))

theorem agrees_afterSet_attic :
    (afterSet "rooms/attic").store.Reached ∧ (afterSet "rooms/attic").cancelled = false ∧
      (afterSet "rooms/attic").Agrees := by
  have active : (afterSet "rooms/attic").cancelled = false := rfl
  have stored : (afterSet "rooms/attic").store.documents = [("rooms/attic", [])] := rfl
  have trimmed : Text.trim "rooms/attic" = "rooms/attic" := by cbv
  refine ⟨reached_afterSet _, active, (agrees_iff_trimmed (reached_afterSet _) active).mpr ?_⟩
  rw [stored]
  exact List.forall_mem_singleton.mpr trimmed

/-- A document whose collection is named by a blank makes every query fail. -/
theorem not_agrees_afterSet_blank :
    ¬ ∀ client : Client Store, client.store.Reached → client.cancelled = false → client.Agrees := by
  intro agrees
  have active : (afterSet "/ /b").cancelled = false := rfl
  have opened : Query.ofCollection "rooms" = .ok ⟨⟨["rooms"]⟩, .empty⟩ := by cbv
  have failed : (afterSet "/ /b").store.documents.query ⟨⟨["rooms"]⟩, .empty⟩
      = .error (.resource (.notDocument "b")) := rfl
  obtain ⟨found, answered, -⟩ := agrees _ (reached_afterSet "/ /b") active _ _ opened
  rw [getDocs_eq_ok active, failed] at answered
  cases answered

end Client

end DocumentStore
