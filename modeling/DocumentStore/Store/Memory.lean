import DocumentStore.Listen.Datastore
import DocumentStore.Query.Execution
import DocumentStore.Write.Apply

/-! # The store in memory

Documents are kept under the texts of their paths. A list of writes is applied to a copy of the
documents which replaces them only if every write succeeded. Then every listener whose target one of
the writes concerns is sent one snapshot of its target, taken after all of them. -/

namespace DocumentStore

/-- The source of write times: the time of the next attempt to commit, and how far apart the attempts
after it are. Time that passes in any other way is a clock that is set anew between two attempts. -/
structure Clock where
  now : Timestamp
  step : Int

def Clock.tick (clock : Clock) : Clock := { clock with now := clock.now.addSeconds clock.step }

/-- A registered listener. -/
structure Listener where
  token : Token
  target : ListenTarget
  /-- The number of the listener's mailbox. -/
  mailbox : Nat

/-- The stored documents by the texts of their paths. -/
abbrev Documents := Entries Fields

namespace Documents

def snapshot (documents : Documents) (key : DocumentKey) : Snapshot :=
  ⟨key, Entries.find? key.text documents⟩

/-- The snapshots of all documents, with the keys read back from the texts. -/
def snapshots (documents : Documents) : Except PathFault (List Snapshot) :=
  documents.mapM fun (text, fields) => (DocumentKey.ofString text).map fun key => ⟨key, some fields⟩

def query (documents : Documents) (query : Query) : Except Error (List Snapshot) := do
  let candidates ← (snapshots documents).mapError .resource
  (query.run candidates).mapError .plan

/-- The fields of the document with a given path after an update; there has to be a document. -/
def updated (path : String) (prior : Option Fields) (data : Fields) (paths : List FieldPath)
    (now : Timestamp) : Except Error Fields :=
  match prior with
  | none => .error (.noDocument path)
  | some fields => .ok (Fields.applyUpdate fields data paths now)

def apply (now : Timestamp) (documents : Documents) : WriteOperation → Except Error Documents
  | .set key data merge =>
    let next := Fields.applySet (Entries.find? key.text documents) data merge now
    .ok (Entries.insert key.text next documents)
  | .update key data paths =>
    (updated key.text (Entries.find? key.text documents) data paths now).map fun next =>
      Entries.insert key.text next documents
  | .delete key => .ok (Entries.erase key.text documents)

/-- The documents after a list of writes, all at one time. -/
def applyAll (now : Timestamp) (documents : Documents) (writes : List WriteOperation) :
    Except Error Documents :=
  writes.foldlM (apply now) documents

/-- The event that shows the current state of a target. -/
def eventFor (documents : Documents) : ListenTarget → ListenEvent
  | .document key => .document (snapshot documents key)
  | .query query =>
    match documents.query query with
    | .ok found => .query ⟨query, found⟩
    | .error e => .error e

end Documents

/-- The state of a store in memory. -/
structure Store where
  documents : Documents
  listeners : List Listener
  mailboxes : Mailboxes
  nextToken : Token
  clock : Clock

namespace Store

def empty (clock : Clock) : Store :=
  { documents := [], listeners := [], mailboxes := [], nextToken := 1, clock }

/-- Tells whether a registration goes on after an event was offered to its mailbox: not after an
error, and not once the mailbox is closed. A full mailbox only loses the event. -/
def continues (event : ListenEvent) : Delivery → Bool
  | .sent => !event.isTerminal
  | .full => true
  | .closed => false

/-- Sends the listeners that the writes concern a snapshot of their targets, and drops those whose
registration is over. -/
def notify (documents : Documents) (writes : List WriteOperation) :
    List Listener → Mailboxes → List Listener × Mailboxes
  | [], boxes => ([], boxes)
  | listener :: rest, boxes =>
    if writes.any fun write => listener.target.concerns write.key then
      let event := documents.eventFor listener.target
      let (delivery, boxes) := Mailboxes.post listener.mailbox event boxes
      let (kept, boxes) := notify documents writes rest boxes
      (if continues event delivery then listener :: kept else kept, boxes)
    else
      let (kept, boxes) := notify documents writes rest boxes
      (listener :: kept, boxes)

/-- The store with new documents, after its listeners were told of the writes that made them. -/
def replace (store : Store) (documents : Documents) (writes : List WriteOperation) : Store :=
  let (listeners, mailboxes) := notify documents writes store.listeners store.mailboxes
  { store with documents, listeners, mailboxes }

def commit (writes : List WriteOperation) (store : Store) : Except Error Unit × Store :=
  let ticked := { store with clock := store.clock.tick }
  match store.documents.applyAll store.clock.now writes with
  | .ok documents => (.ok (), ticked.replace documents writes)
  | .error e => (.error e, ticked)

def read (keys : List DocumentKey) (store : Store) : Reads :=
  keys.map fun key => (key, store.documents.snapshot key)

/-- Runs a transaction. The clock is asked only once the body has succeeded. -/
def transact {ρ : Type} (keys : List DocumentKey)
    (body : Reads → ρ × Except Error (List WriteOperation)) (store : Store) :
    TransactionEnd ρ × Store :=
  let (report, outcome) := body (store.read keys)
  match outcome with
  | .error e => (.ran report (.error e), store)
  | .ok writes =>
    let (result, store) := store.commit writes
    (.ran report result, store)

/-- Registers a listener and sends it the current state of its target. -/
def listen (target : ListenTarget) (mailbox : Nat) (store : Store) : Except Error Token × Store :=
  let checked : Except PlanFault Unit :=
    match target with
    | .document _ => .ok ()
    | .query query => query.plan.validate
  match checked with
  | .error fault => (.error (.plan fault), store)
  | .ok () =>
    let token := store.nextToken
    let event := store.documents.eventFor target
    let (delivery, mailboxes) := Mailboxes.post mailbox event store.mailboxes
    let listeners :=
      if continues event delivery then store.listeners ++ [⟨token, target, mailbox⟩]
      else store.listeners
    (.ok token, { store with mailboxes, listeners, nextToken := token + 1 })

def unlisten (token : Token) (store : Store) : Store :=
  { store with listeners := store.listeners.filter fun listener => listener.token != token }

instance : Datastore Store where
  get key store := (.ok (store.documents.snapshot key), store)
  query query store := (store.documents.query query, store)
  write write store := store.commit [write]
  commit := commit
  transact := transact
  listen := listen
  unlisten token store := (.ok (), store.unlisten token)

end Store

end DocumentStore
