import DocumentStore.Proofs.Outcome
import DocumentStore.Proofs.Store.Notify
import DocumentStore.Proofs.Store.Stored

/-! # The order of writes to different documents

A write is refused for what the document is that it is about, and for nothing else. Writes to different
documents therefore see the same documents in every order, and together they leave the same ones. -/

namespace DocumentStore

namespace Documents

variable {now : Timestamp} {documents : Documents} {first second : WriteOperation}
  {writes others : List WriteOperation}

theorem apply_comm (sorted : Entries.Sorted documents) (ne : first.key.text ≠ second.key.text) :
    (apply now documents first >>= fun after => apply now after second).toOption
      = (apply now documents second >>= fun after => apply now after first).toOption := by
  rw [apply_eq now documents first, apply_eq now documents second]
  cases made : first.outcome now (Entries.find? first.key.text documents) with
  | error e =>
    cases other : second.outcome now (Entries.find? second.key.text documents) with
    | error e' => rfl
    | ok next' =>
      show none = (apply now (Entries.assign second.key.text next' documents) first).toOption
      rw [apply_eq, Entries.find?_assign_of_ne ne, made]
      rfl
  | ok next =>
    show (apply now (Entries.assign first.key.text next documents) second).toOption = _
    rw [apply_eq, Entries.find?_assign_of_ne ne.symm]
    cases other : second.outcome now (Entries.find? second.key.text documents) with
    | error e' => rfl
    | ok next' =>
      show _ = (apply now (Entries.assign second.key.text next' documents) first).toOption
      rw [apply_eq, Entries.find?_assign_of_ne ne, made]
      exact congrArg some (Entries.assign_comm ne.symm sorted _ _)

/-- Writes to different documents end alike in every order. -/
theorem applyAll_perm (sorted : Entries.Sorted documents)
    (distinct : writes.Pairwise fun a b => a.key.text ≠ b.key.text) (perm : writes.Perm others) :
    (applyAll now documents writes).toOption = (applyAll now documents others).toOption := by
  induction perm generalizing documents with
  | nil => rfl
  | cons write perm ih =>
    have later := (List.pairwise_cons.mp distinct).2
    rw [applyAll_cons, applyAll_cons]
    cases applied : apply now documents write with
    | error e => rfl
    | ok after => exact ih (sorted_apply sorted applied) later
  | swap first second writes =>
    have ne : second.key.text ≠ first.key.text :=
      (List.pairwise_cons.mp distinct).1 first List.mem_cons_self
    have pair (a b : WriteOperation) : (applyAll now documents (a :: b :: writes)).toOption
        = (apply now documents a >>= fun after => apply now after b).toOption.bind fun after =>
          (applyAll now after writes).toOption := by
      rw [← toOption_bind, bind_assoc]
      rfl
    rw [pair, pair, apply_comm sorted ne]
  | trans perm _ ihFirst ihSecond =>
    have distinct' := perm.pairwise distinct fun ne => ne.symm
    exact (ihFirst sorted distinct).trans (ihSecond sorted distinct')

end Documents

namespace Store

variable {store : Store} {documents : Documents} {writes others : List WriteOperation}
  {listeners : List Listener} {boxes : Mailboxes}

private theorem concerned_perm (perm : writes.Perm others) (target : ListenTarget) :
    concerned target writes = concerned target others :=
  perm.any_eq

/-- Listeners are told of a list of writes by what the writes concern, not by their order. -/
theorem notify_congr (same : ∀ target, concerned target writes = concerned target others) :
    notify documents writes listeners boxes = notify documents others listeners boxes := by
  induction listeners generalizing boxes with
  | nil => rfl
  | cons listener rest ih =>
    have told : (writes.any fun write => listener.target.concerns write.key)
        = others.any fun write => listener.target.concerns write.key := same listener.target
    rw [notify, notify, told]
    simp only [ih]

/-- Writes to different documents come to the same when they are committed in another order: either
both batches succeed and leave the same store, with the same documents and the same events in every
mailbox, or both are refused and leave documents, registrations and queues as they were. -/
theorem commit_perm (sorted : Entries.Sorted store.documents)
    (read : ∀ write ∈ writes, ∃ text, DocumentKey.ofString text = .ok write.key)
    (distinct : (writes.map WriteOperation.key).Nodup) (perm : writes.Perm others) :
    let first := Datastore.commit writes store
    let second := Datastore.commit others store
    (first.1 = .ok () ∧ second = first) ∨
      ((∃ e, first.1 = .error e) ∧ (∃ e, second.1 = .error e) ∧
        Same store first.2 ∧ Same store second.2) := by
  intro first second
  -- The texts of different clean keys differ, so that no two writes meet in one entry.
  have texts : writes.Pairwise fun a b => a.key.text ≠ b.key.text := by
    refine (List.pairwise_map.mp distinct).imp_of_mem fun ha hb ne text => ne ?_
    exact DocumentKey.eq_of_text (DocumentKey.exists_ofString.mp (read _ ha))
      (DocumentKey.exists_ofString.mp (read _ hb)) text
  have alike : (store.documents.applyAll store.clock.now writes).toOption
      = (store.documents.applyAll store.clock.now others).toOption :=
    Documents.applyAll_perm sorted texts perm
  cases applied : store.documents.applyAll store.clock.now writes with
  | ok documents =>
    have applied' : store.documents.applyAll store.clock.now others = .ok documents :=
      toOption_eq_some.mp (alike.symm.trans (toOption_eq_some.mpr applied))
    have committed : first = (.ok (), store.ticked.replace documents writes) := commit_of_ok applied
    have committed' : second = (.ok (), store.ticked.replace documents others) :=
      commit_of_ok applied'
    refine .inl ⟨by rw [committed], ?_⟩
    rw [committed, committed', replace, replace, notify_congr (concerned_perm perm)]
  | error e =>
    have refused : first = (.error e, store.ticked) := commit_of_error applied
    cases applied' : store.documents.applyAll store.clock.now others with
    | ok documents => rw [applied, applied'] at alike; cases alike
    | error e' =>
      have refused' : second = (.error e', store.ticked) := commit_of_error applied'
      rw [refused, refused']
      exact .inr ⟨⟨e, rfl⟩, ⟨e', rfl⟩, same_ticked store, same_ticked store⟩

def firstPost : DocumentKey := ⟨⟨["posts", "first"]⟩, by decide, by decide⟩
def secondPost : DocumentKey := ⟨⟨["posts", "second"]⟩, by decide, by decide⟩
def thirdPost : DocumentKey := ⟨⟨["posts", "third"]⟩, by decide, by decide⟩

/-- A store with two documents and a listener on one of them. -/
def posts : Store :=
  { Store.empty ⟨.new 0 0, 1⟩ with
    documents := [("posts/first", [("likes", .integer 1)]), ("posts/second", [])]
    listeners := [⟨1, .document firstPost, 0⟩], mailboxes := [.unbounded], nextToken := 2 }

/-- Writes to three documents, one that changes what is there, one that removes it, one that is new. -/
def threePosts : List WriteOperation :=
  [.update firstPost [("likes", .increment (.integer 2))] [⟨["likes"], by decide, by decide⟩],
    .delete secondPost, .set thirdPost [("created", .serverTimestamp)] true]

theorem commit_perm_threePosts :
    Entries.Sorted posts.documents ∧
      (∀ write ∈ threePosts, ∃ text, DocumentKey.ofString text = .ok write.key) ∧
      (threePosts.map WriteOperation.key).Nodup ∧ threePosts.Perm threePosts.reverse ∧
      (Datastore.commit threePosts posts).1 = .ok () ∧
      Datastore.commit threePosts.reverse posts = Datastore.commit threePosts posts ∧
      (Datastore.commit threePosts posts).2.documents
        = [("posts/first", [("likes", .integer 3)]),
          ("posts/third", [("created", .timestamp (.new 0 0))])] ∧
      (Mailboxes.box 0 (Datastore.commit threePosts posts).2.mailboxes).items
        = [.document ⟨firstPost, some [("likes", .integer 3)]⟩] := by
  have sorted : Entries.Sorted posts.documents := List.pairwise_pair.mpr (by decide)
  have read : ∀ write ∈ threePosts, ∃ text, DocumentKey.ofString text = .ok write.key := by
    simp only [threePosts, List.forall_mem_cons]
    exact ⟨⟨"posts/first", by cbv⟩, ⟨"posts/second", by cbv⟩, ⟨"posts/third", by cbv⟩,
      List.forall_mem_nil _⟩
  have distinct : (threePosts.map WriteOperation.key).Nodup := by decide
  have perm : threePosts.Perm threePosts.reverse := threePosts.reverse_perm.symm
  have accepted : (Datastore.commit threePosts posts).1 = .ok () := by rfl
  refine ⟨sorted, read, distinct, perm, accepted, ?_, rfl, rfl⟩
  rcases commit_perm sorted read distinct perm with ⟨-, same⟩ | ⟨⟨e, refused⟩, -⟩
  · exact same
  · rw [accepted] at refused
    cases refused

end Store

end DocumentStore
