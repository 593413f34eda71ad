import DocumentStore.Remote.Store
import DocumentStore.Session.Gate
import DocumentStore.Store.Memory

/-! # The stores of a session

A session works on a store in memory or on a remote store. The store in memory may have a gate before
its registrations. -/

namespace DocumentStore

/-- A store in memory behind a gate. -/
structure GatedStore where
  gate : Gate
  store : Store

/-- The store of a session. -/
inductive Backend where
  | memory (store : Store)
  | gated (store : GatedStore)
  | remote (store : RemoteStore)

namespace GatedStore

/-- Hands an operation to the store behind the gate. -/
def within {α : Type} (f : Store → α × Store) (gated : GatedStore) : α × GatedStore :=
  let (a, store) := f gated.store
  (a, { gated with store })

def listen (target : ListenTarget) (mailbox : Nat) (gated : GatedStore) :
    Except Error Token × GatedStore :=
  let passed := { gated with gate := gated.gate.pass mailbox }
  match gated.gate.verdict with
  | .error e => (.error e, passed)
  | .ok () => passed.within (Datastore.listen target mailbox)

def unlisten (token : Token) (gated : GatedStore) : Except Error Unit × GatedStore :=
  let counted := { gated with gate := { gated.gate with unlistened := gated.gate.unlistened + 1 } }
  counted.within (Datastore.unlisten token)

instance : Datastore GatedStore where
  get key := within (Datastore.get key)
  query q := within (Datastore.query q)
  write w := within (Datastore.write w)
  commit writes := within (Datastore.commit writes)
  transact keys body := within (Datastore.transact keys body)
  listen := listen
  unlisten := unlisten

end GatedStore

namespace Backend

def dispatch {α : Type} (onMemory : Store → α × Store) (onGated : GatedStore → α × GatedStore)
    (onRemote : RemoteStore → α × RemoteStore) : Backend → α × Backend
  | .memory store =>
    let (a, store) := onMemory store
    (a, .memory store)
  | .gated store =>
    let (a, store) := onGated store
    (a, .gated store)
  | .remote store =>
    let (a, store) := onRemote store
    (a, .remote store)

instance : Datastore Backend where
  get key := dispatch (Datastore.get key) (Datastore.get key) (Datastore.get key)
  query q := dispatch (Datastore.query q) (Datastore.query q) (Datastore.query q)
  write w := dispatch (Datastore.write w) (Datastore.write w) (Datastore.write w)
  commit ws := dispatch (Datastore.commit ws) (Datastore.commit ws) (Datastore.commit ws)
  transact keys body :=
    dispatch (Datastore.transact keys body) (Datastore.transact keys body)
      (Datastore.transact keys body)
  listen target mailbox :=
    dispatch (Datastore.listen target mailbox) (Datastore.listen target mailbox)
      (Datastore.listen target mailbox)
  unlisten token :=
    dispatch (Datastore.unlisten token) (Datastore.unlisten token) (Datastore.unlisten token)

/-- The store in memory, if that is what there is. -/
def memory? : Backend → Option Store
  | .memory store => some store
  | .gated inner => some inner.store
  | .remote _ => none

def gate? : Backend → Option Gate
  | .gated inner => some inner.gate
  | _ => none

/-- The remote store, if that is what there is. -/
def remote? : Backend → Option RemoteStore
  | .remote store => some store
  | _ => none

def changeGate (f : Gate → Gate) : Backend → Backend
  | .gated inner => .gated { inner with gate := f inner.gate }
  | backend => backend

/-- Changes the remote store, if that is what there is. -/
def changeRemote (f : RemoteStore → RemoteStore) : Backend → Backend
  | .remote store => .remote (f store)
  | backend => backend

def mailboxes : Backend → Mailboxes
  | .memory store => store.mailboxes
  | .gated inner => inner.store.mailboxes
  | .remote store => store.mailboxes

def withMailboxes (mailboxes : Mailboxes) : Backend → Backend
  | .memory store => .memory { store with mailboxes }
  | .gated inner => .gated { inner with store := { inner.store with mailboxes } }
  | .remote store => .remote { store with mailboxes }

def calls : Backend → List Call
  | .remote store => store.bridge.calls
  | _ => []

end Backend

end DocumentStore
