import DocumentStore.Proofs.Wire.Query
import DocumentStore.Wire.Listen

/-! # Remote and local execution

A remote store evaluates the structured query it reads and answers with the documents it finds. The
answer, reversed by its receiver if the query counts from the end, is what the query returns here. -/

namespace DocumentStore.Wire

variable {query : Query} {documents : List Snapshot}

/-- The receiver reverses the answer to a query that counts from the end, and no other. -/
theorem decodeQueryResult_eq {response : Json} {found : List Snapshot}
    (decoded : decodeDocuments response = .ok found) :
    decodeQueryResult query response
      = .ok (if query.plan.keepsLast then found.reverse else found) := by
  rw [decodeQueryResult, decoded]
  rfl

/-- A query that travels without loss returns what its receiver makes of the answer of a remote store
with the same documents. Documents that tie are ordered by their paths on both sides, which is the
same order only if the query counts from the front. -/
theorem remote_run_agrees (built : query.Built) (noOffset : query.plan.offset = none)
    (portable : query.Portable) (exact : ∀ s ∈ documents, s.isExact)
    (distinct : (documents.map Snapshot.key).Nodup)
    (noTies : query.plan.keepsLast → ∀ s ∈ documents, ∀ t ∈ documents,
      query.Matches s → query.Matches t → compareByChain query.plan.orders s t = .eq → s = t) :
    ∃ structured sent found result,
      encodeStructuredQuery query = .ok structured ∧
      readStructuredQuery? query.collection.parent structured = some sent ∧
      sent.run documents = .ok found ∧
      result = (if query.plan.keepsLast then found.reverse else found) ∧
      query.run documents = .ok result ∧
      ∀ response, decodeDocuments response = .ok found →
        decodeQueryResult query response = .ok result := by
  obtain ⟨structured, written, read⟩ :=
    readStructuredQuery?_encodeStructuredQuery built.wellFormed noOffset portable
  obtain ⟨found, away, here⟩ :=
    Query.run_forward built.wellFormed noOffset exact distinct noTies
  exact ⟨structured, query.forward, found, _, written, read, away, rfl, here,
    fun response decoded => decodeQueryResult_eq decoded⟩

private theorem smallRooms_portable : Query.smallRooms.Portable where
  filters filter mem := by
    cases List.mem_singleton.mp mem
    exact ⟨⟨"size", by cbv⟩, .inl rfl⟩
  orders order mem := by
    cases List.mem_singleton.mp mem
    exact ⟨"size", by cbv⟩
  cursors bound mem := by
    cases List.mem_singleton.mp mem
    rfl

theorem threeRooms_noTies : ∀ s ∈ Query.threeRooms, ∀ t ∈ Query.threeRooms,
    compareByChain Query.smallRooms.plan.orders s t = .eq → s = t := by
  intro s hs t ht tie
  simp only [Query.threeRooms, List.mem_cons, List.not_mem_nil, or_false] at hs ht
  rcases hs with rfl | rfl | rfl <;> rcases ht with rfl | rfl | rfl
  all_goals first | rfl | cases tie

/-- The records of two rooms, in the order in which a bridge finds them. -/
def twoRecords : Json :=
  .array
    [.object [("exists", .bool true), ("fields", .object [("size", typed "integerValue" (.string "2"))]),
        ("path", .string "rooms/attic")],
      .object [("exists", .bool true), ("fields", .object [("size", typed "integerValue" (.string "3"))]),
        ("path", .string "rooms/cellar")]]

theorem remote_run_smallRooms_threeRooms :
    let found := [Query.sizedRoom "attic" (.integer 2), Query.sizedRoom "cellar" (.integer 3)]
    Query.smallRooms.Built ∧ Query.smallRooms.Portable ∧
      (∀ s ∈ Query.threeRooms, s.isExact) ∧ (Query.threeRooms.map Snapshot.key).Nodup ∧
      (∃ structured sent,
        encodeStructuredQuery Query.smallRooms = .ok structured ∧
        readStructuredQuery? Query.smallRooms.collection.parent structured = some sent ∧
        sent.run Query.threeRooms = .ok found) ∧
      Query.smallRooms.run Query.threeRooms = .ok found.reverse ∧
      decodeDocuments twoRecords = .ok found ∧
      ∀ response, decodeDocuments response = .ok found →
        decodeQueryResult Query.smallRooms response = .ok found.reverse := by
  intro found
  have exact : ∀ s ∈ Query.threeRooms, s.isExact := by decide
  have distinct : (Query.threeRooms.map Snapshot.key).Nodup := by decide
  have decoded : decodeDocuments twoRecords = .ok found := by rfl
  have here : Query.smallRooms.run Query.threeRooms = .ok found.reverse := by cbv
  obtain ⟨structured, sent, away, result, written, read, remote, same, run, received⟩ :=
    remote_run_agrees Query.smallRooms_built rfl smallRooms_portable exact distinct
      fun _ s hs t ht _ _ tie => threeRooms_noTies s hs t ht tie
  obtain rfl : result = found.reverse := Except.ok.inj (run.symm.trans here)
  obtain rfl : found = away := List.reverse_injective same
  exact ⟨Query.smallRooms_built, smallRooms_portable, exact, distinct,
    ⟨structured, sent, written, read, remote⟩, run, decoded, received⟩

end DocumentStore.Wire
