import DocumentStore.Proofs.Store.Documents
import DocumentStore.Proofs.Store.Notify

/-! # Runs of a store

The calls that a store receives, in any order, together with what happens around it: mailboxes are set
up, emptied and closed by those who own them, and time goes on. -/

namespace DocumentStore

/-- Something that happens to a store. -/
inductive StoreCall where
  | write (write : WriteOperation)
  | commit (writes : List WriteOperation)
  | transact (keys : List DocumentKey) (body : Reads → Except Error (List WriteOperation))
  | listen (target : ListenTarget) (mailbox : Nat)
  | unlisten (token : Token)
  /-- A mailbox with some capacity is set up. -/
  | addMailbox (capacity : Option Nat)
  /-- The owner of a mailbox closes it. -/
  | closeMailbox (id : Nat)
  /-- The owner of a mailbox takes its first event out. -/
  | receive (id : Nat)
  /-- The clock is set. -/
  | setClock (clock : Clock)

namespace StoreCall

/-- A transaction of a store, whose body reports nothing. -/
def transaction (keys : List DocumentKey) (body : Reads → Except Error (List WriteOperation))
    (store : Store) : TransactionEnd Unit × Store :=
  Datastore.transact keys (fun reads => ((), body reads)) store

/-- The first event of a mailbox and the mailbox without it. -/
def takeFrom (id : Nat) (boxes : Mailboxes) : Option ListenEvent × Mailboxes :=
  match (Mailboxes.box id boxes).take? with
  | some (event, rest) => (some event, Mailboxes.change id (fun _ => rest) boxes)
  | none => (none, boxes)

def step (store : Store) : StoreCall → Store
  | .write w => (Datastore.write w store).2
  | .commit writes => (Datastore.commit writes store).2
  | .transact keys body => (transaction keys body store).2
  | .listen target mailbox => (Datastore.listen target mailbox store).2
  | .unlisten token => (Datastore.unlisten token store).2
  | .addMailbox capacity =>
    { store with mailboxes := Mailboxes.add ⟨capacity, true, []⟩ store.mailboxes }
  | .closeMailbox id =>
    { store with mailboxes := Mailboxes.change id Channel.close store.mailboxes }
  | .receive id => { store with mailboxes := (takeFrom id store.mailboxes).2 }
  | .setClock clock => { store with clock }

/-- The writes that a call asks for. Those of a transaction are what its body makes of the documents
it reads. -/
def writes (store : Store) : StoreCall → List WriteOperation
  | .write w => [w]
  | .commit writes => writes
  | .transact keys body =>
    match body (store.read keys) with
    | .ok writes => writes
    | .error _ => []
  | _ => []

/-- Tells the writes, commits and transactions that succeed. -/
def succeeds (store : Store) : StoreCall → Bool
  | .write w => (Datastore.write w store).1.isOk
  | .commit writes => (Datastore.commit writes store).1.isOk
  | .transact keys body =>
    match (transaction keys body store).1 with
    | .ran _ result => result.isOk
    | .notRun _ => false
  | _ => false

/-- The documents that a call names: those that it writes and the one that it listens to. -/
def keys (store : Store) (call : StoreCall) : List DocumentKey :=
  match call with
  | .listen (.document key) _ => [key]
  | call => (call.writes store).map WriteOperation.key

/-- The events that the store sends during a call. -/
def sendings (store : Store) (call : StoreCall) : List Sending :=
  match call with
  | .listen target mailbox =>
    match (Datastore.listen target mailbox store).1 with
    | .ok token =>
      Listener.sending ⟨token, target, mailbox⟩ (store.documents.eventFor target) store.mailboxes
    | .error _ => []
  | call =>
    if call.succeeds store then
      Store.notifications (call.step store).documents (call.writes store) store.listeners
        store.mailboxes
    else []

/-- The event that the owner of a mailbox takes out of it in a call. -/
def received (store : Store) (id : Nat) : StoreCall → List ListenEvent
  | .receive other => if other = id then (takeFrom other store.mailboxes).1.toList else []
  | _ => []

end StoreCall

namespace Store

def run (store : Store) (calls : List StoreCall) : Store := calls.foldl StoreCall.step store

/-- The events that the store sends during some calls. -/
def sendings : Store → List StoreCall → List Sending
  | _, [] => []
  | store, call :: calls => call.sendings store ++ sendings (call.step store) calls

/-- The events that the owner of a mailbox takes out of it during some calls. -/
def received (id : Nat) : Store → List StoreCall → List ListenEvent
  | _, [] => []
  | store, call :: calls => call.received store id ++ received id (call.step store) calls

/-- Every key that is used reads back from its text. -/
def ReadableRun : Store → List StoreCall → Prop
  | _, [] => True
  | store, call :: calls =>
    (∀ key ∈ call.keys store, key.Readable) ∧ ReadableRun (call.step store) calls

/-- The states of the store right after the successful calls with a write that concerns a target. -/
def changes (target : ListenTarget) : Store → List StoreCall → List Store
  | _, [] => []
  | store, call :: calls =>
    if call.succeeds store && concerned target (call.writes store) then
      call.step store :: changes target (call.step store) calls
    else changes target (call.step store) calls

/-- An event shows what the store returns for a target. -/
def Shows (target : ListenTarget) (event : ListenEvent) (store : Store) : Prop :=
  match target with
  | .document key => ∃ s, (Datastore.get key store).1 = .ok s ∧ event = .document s
  | .query query =>
    ∃ found, (Datastore.query query store).1 = .ok found ∧ event = .query ⟨query, found⟩

end Store

end DocumentStore
