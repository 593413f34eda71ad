import DocumentStore.Proofs.Outcome
import DocumentStore.Proofs.Store.Notify

/-! # A batch is its writes in sequence, or nothing

While the clock stands still, committing some writes together comes to what committing them one at a
time comes to, as long as none is refused. A refusal undoes the writes before it, which a sequence of
single commits would have kept. Listeners are told of a batch once, when all of it has been applied. -/

namespace DocumentStore

/-- A clock that stands still. -/
def Clock.Fixed (clock : Clock) : Prop := clock.step = 0

private theorem Clock.Fixed.tick_eq {clock : Clock} (fixed : clock.Fixed) : clock.tick = clock := by
  obtain ⟨now, step⟩ := clock
  obtain rfl : step = 0 := fixed
  simp [tick, Timestamp.addSeconds]

namespace Documents

variable {now : Timestamp} {documents : Documents}

theorem applyAll_singleton (write : WriteOperation) :
    applyAll now documents [write] = apply now documents write := by
  rw [applyAll_cons]
  exact bind_pure _

end Documents

namespace Store

open Mailboxes Sending

variable {store : Store} {documents : Documents} {writes : List WriteOperation}
  {listeners : List Listener} {boxes : Mailboxes} {id : Nat}

/-- Commits writes one at a time, up to the first that is refused. -/
def commitEach : List WriteOperation → Store → Except Error Unit × Store
  | [], store => (.ok (), store)
  | write :: writes, store =>
    match Datastore.commit [write] store with
    | (.ok (), after) => commitEach writes after
    | (.error e, after) => (.error e, after)

theorem commitEach_eq (fixed : store.clock.Fixed) (writes : List WriteOperation) :
    (store.commitEach writes).1
        = (store.documents.applyAll store.clock.now writes).map (fun _ => ()) ∧
      ∀ documents, store.documents.applyAll store.clock.now writes = .ok documents →
        (store.commitEach writes).2.documents = documents := by
  induction writes generalizing store with
  | nil => exact ⟨rfl, fun documents same => Except.ok.inj same⟩
  | cons write writes ih =>
    have single : store.documents.applyAll store.clock.now [write]
        = store.documents.apply store.clock.now write := Documents.applyAll_singleton write
    rw [Documents.applyAll_cons]
    cases applied : store.documents.apply store.clock.now write with
    | error e =>
      rw [applied] at single
      have refused : Datastore.commit [write] store = (.error e, store.ticked) :=
        commit_of_error single
      rw [commitEach, refused]
      exact ⟨rfl, fun documents same => by cases same⟩
    | ok documents =>
      rw [applied] at single
      have committed : Datastore.commit [write] store
          = (.ok (), store.ticked.replace documents [write]) := commit_of_ok single
      have clock : (store.ticked.replace documents [write]).clock = store.clock := fixed.tick_eq
      have stands : (store.ticked.replace documents [write]).clock.Fixed := clock ▸ fixed
      have later := ih stands
      rw [clock] at later
      rw [commitEach, committed]
      exact later

theorem eventsInto_sending (unlimited : Unlimited id boxes) (listener : Listener)
    (event : ListenEvent) :
    eventsInto id (listener.sending event boxes) = if listener.mailbox = id then [event] else [] := by
  by_cases own : listener.mailbox = id
  · subst own
    rw [Listener.sending, if_pos (unlimited.sent event), if_pos rfl]
    simp [eventsInto]
  · rw [Listener.sending, if_neg own]
    split <;> simp [eventsInto, own]

/-- The registered listeners with a certain mailbox whose targets are concerned by some writes. -/
def concernedAt (id : Nat) (writes : List WriteOperation) (listeners : List Listener) :
    List Listener :=
  listeners.filter fun listener => listener.mailbox == id && concerned listener.target writes

/-- A mailbox that takes everything is sent one event for each of its listeners that the writes
concern. -/
theorem eventsInto_notifications (unlimited : Unlimited id boxes) :
    eventsInto id (notifications documents writes listeners boxes)
      = (concernedAt id writes listeners).map fun listener => documents.eventFor listener.target := by
  induction listeners generalizing boxes with
  | nil => rfl
  | cons listener rest ih =>
    rw [notifications]
    by_cases told : concerned listener.target writes = true
    · have later := ih (unlimited.post listener.mailbox (documents.eventFor listener.target))
      rw [if_pos told, eventsInto_append, eventsInto_sending unlimited, later]
      by_cases own : listener.mailbox = id <;> simp [concernedAt, own, told]
    · rw [if_neg told, ih unlimited]
      simp [concernedAt, told]

/-- While the clock stands still, a batch comes to the result of its writes committed one at a time. If
one of them is refused, the batch is refused for the same reason and documents, registrations and queues
are as before. Otherwise the documents are those after the last of the writes, and every mailbox that
takes everything is sent one event for each of its listeners whose target is concerned, which shows these
documents. -/
theorem batch_whole_or_nothing (fixed : store.clock.Fixed) (writes : List WriteOperation) :
    let batch := Datastore.commit writes store
    let single := store.commitEach writes
    batch.1 = single.1 ∧
      (∀ e, single.1 = .error e → Same store batch.2) ∧
      (single.1 = .ok () →
        batch.2.documents = single.2.documents ∧
          ∀ id, Unlimited id store.mailboxes →
            (box id batch.2.mailboxes).items
              = (box id store.mailboxes).items
                ++ (concernedAt id writes store.listeners).map fun listener =>
                  batch.2.documents.eventFor listener.target) := by
  intro batch single
  obtain ⟨result, documentsAfter⟩ := commitEach_eq fixed writes
  cases applied : store.documents.applyAll store.clock.now writes with
  | error e =>
    have refused : batch = (.error e, store.ticked) := commit_of_error applied
    have alone : single.1 = .error e := by rw [result, applied]; rfl
    rw [refused, alone]
    exact ⟨rfl, fun _ _ => same_ticked store, nofun⟩
  | ok documents =>
    have committed : batch = (.ok (), store.ticked.replace documents writes) := commit_of_ok applied
    have alone : single.1 = .ok () := by rw [result, applied]; rfl
    have last : single.2.documents = documents := documentsAfter documents applied
    rw [committed, alone, last]
    refine ⟨rfl, nofun, fun _ => ⟨rfl, fun id unlimited => ?_⟩⟩
    rw [← eventsInto_notifications unlimited]
    exact items_notify id

def visits : DocumentKey := ⟨⟨["counters", "visits"]⟩, by decide, by decide⟩

/-- A store with a counter, a listener on it and a clock that stands still. -/
def countingVisits : Store :=
  { Store.empty ⟨.new 0 0, 0⟩ with
    documents := [("counters/visits", [("count", .integer 5)])]
    listeners := [⟨1, .document visits, 0⟩], mailboxes := [.unbounded], nextToken := 2 }

/-- Adds to the counter twice, and notes the time in between. -/
def twoVisits : List WriteOperation :=
  let increment (n : Int64) : WriteOperation :=
    .update visits [("count", .increment (.integer n))] [⟨["count"], by decide, by decide⟩]
  [increment 1, .set visits [("last", .serverTimestamp)] true, increment 2]

theorem batch_whole_or_nothing_twoVisits :
    let batch := Datastore.commit twoVisits countingVisits
    let single := countingVisits.commitEach twoVisits
    let counted : Fields := [("count", .integer 8), ("last", .timestamp (.new 0 0))]
    countingVisits.clock.Fixed ∧ single.1 = .ok () ∧ Unlimited 0 countingVisits.mailboxes ∧
      batch.1 = single.1 ∧ batch.2.documents = single.2.documents ∧
      batch.2.documents = [("counters/visits", counted)] ∧
      (box 0 batch.2.mailboxes).items = [.document ⟨visits, some counted⟩] := by
  intro batch single counted
  have fixed : countingVisits.clock.Fixed := rfl
  have accepted : single.1 = .ok () := by rfl
  have unlimited : Unlimited 0 countingVisits.mailboxes := ⟨rfl, rfl⟩
  obtain ⟨result, -, succeeds⟩ := batch_whole_or_nothing fixed twoVisits
  obtain ⟨documents, events⟩ := succeeds accepted
  have stored : batch.2.documents = [("counters/visits", counted)] := by rfl
  refine ⟨fixed, accepted, unlimited, result, documents, stored, (events 0 unlimited).trans ?_⟩
  rw [stored]
  rfl

end Store

end DocumentStore
