import DocumentStore.Listen.Datastore
import DocumentStore.Remote.Bridge
import DocumentStore.Wire.Listen
import DocumentStore.Wire.Write

/-! # The remote store

Every operation becomes a call of the bridge. The answers are taken as they are, except that the
answer to a query that counts from the end is reversed. Events of a registration pass through a
channel of limited room and are forwarded to the listener's mailbox one by one. -/

namespace DocumentStore

/-- A registration with the bridge. -/
structure RemoteListener where
  token : Token
  /-- The name that the bridge gave the registration. -/
  handle : String
  target : ListenTarget
  /-- The number of the listener's mailbox. -/
  mailbox : Nat
  /-- The events as they come from the bridge. -/
  raw : Channel Json
  /-- Tells whether the bridge still has the sending end of the channel. -/
  attached : Bool
  /-- Tells whether the registration has not been ended from this side. -/
  registered : Bool
  /-- An event on its way into the mailbox. -/
  pending : Option ListenEvent
  /-- Tells whether events are still forwarded. -/
  forwarding : Bool

/-- The state of a remote store. -/
structure RemoteStore where
  bridge : Bridge
  /-- The room of the channel between the bridge and a listener. -/
  capacity : Nat
  listeners : List RemoteListener
  mailboxes : Mailboxes

namespace RemoteStore

/-- The room of a channel when none is asked for. -/
def defaultCapacity : Nat := 64

/-- A store without registrations; a channel has room for one event at least. -/
def new (bridge : Bridge) (capacity : Nat) : RemoteStore :=
  { bridge, capacity := max capacity 1, listeners := [], mailboxes := [] }

/-- Calls a method of the bridge and turns a failure into an error. -/
def invoke (method : String) (request : Json) (store : RemoteStore) :
    Except Error Json × RemoteStore :=
  let (result, bridge) := store.bridge.call method request
  (result.mapError BridgeFailure.toError, { store with bridge })

/-- Calls a method with a request that may not exist, and reads the response. -/
def exchange {α : Type} (method : String) (request : Except Error Json)
    (decode : Json → Except Error α) (store : RemoteStore) : Except Error α × RemoteStore :=
  match request with
  | .error e => (.error e, store)
  | .ok request =>
    let (result, store) := store.invoke method request
    (result.bind decode, store)

/-- The path of a document as a member of a request. -/
def pathMember (key : DocumentKey) : String × Json := ("path", .string key.text)

def get (key : DocumentKey) (store : RemoteStore) : Except Error Snapshot × RemoteStore :=
  store.exchange "get" (.ok (.object [pathMember key]))
    fun response => (Wire.decodeSnapshot response).mapError .decode

def query (q : Query) (store : RemoteStore) : Except Error (List Snapshot) × RemoteStore :=
  store.exchange "query" ((Wire.encodeQueryRequest q).mapError Error.ofRequest)
    fun response => (Wire.decodeQueryResult q response).mapError .decode

/-- The method and the request of a single write. -/
def writeRequest : WriteOperation → String × Except ValueFault Json
  | .set key data merge =>
    ("set", (Wire.encodeFields data).map fun fields =>
      Json.ofMembers [pathMember key, ("fields", .object fields), ("merge", .bool merge)])
  | .update key data paths =>
    ("update", (Wire.encodeFields data).map fun fields =>
      Json.ofMembers
        [pathMember key, ("fields", .object fields), ("fieldPaths", Wire.pathTexts paths)])
  | .delete key => ("delete", .ok (.object [pathMember key]))

def write (w : WriteOperation) (store : RemoteStore) : Except Error Unit × RemoteStore :=
  let (method, request) := writeRequest w
  store.exchange method (request.mapError .value) fun _ => .ok ()

def commit (writes : List WriteOperation) (store : RemoteStore) :
    Except Error Unit × RemoteStore :=
  let request := (Wire.encodeWrites writes).map fun items => Json.object [("writes", .array items)]
  store.exchange "commit" (request.mapError .value) fun _ => .ok ()

/-- Fetches a document for a transaction. -/
def fetchOne (transaction : Json) (key : DocumentKey) (store : RemoteStore) :
    Except Error Snapshot × RemoteStore :=
  store.exchange "get" (.ok (Json.ofMembers [pathMember key, ("transaction", transaction)]))
    fun response => (Wire.decodeSnapshot response).mapError .decode

/-- Fetches documents that are yet to be asked for, while some answers are under way and some documents
are there. Documents are asked for one after another, and the first failure that comes in ends it. With
nothing left to ask for, one of the answers under way comes in. -/
def gather (transaction : Json) (unasked : List DocumentKey)
    (coming : List (DocumentKey × Except Error Snapshot)) (reads : Reads) (arrivals : List Nat)
    (store : RemoteStore) : Except Error Reads × RemoteStore :=
  let next := arrivals.headD 0
  let place := if unasked.isEmpty then next % coming.length else next
  if inside : place < coming.length then
    match coming[place] with
    | (_, .error e) => (.error e, store)
    | (key, .ok snapshot) =>
      let others := coming.eraseIdx place
      gather transaction unasked others (reads ++ [(key, snapshot)]) arrivals.tail store
  else
    match unasked with
    | [] => (.ok reads, store)
    | key :: rest =>
      let (answer, store) := store.fetchOne transaction key
      gather transaction rest (coming ++ [(key, answer)]) reads arrivals.tail store
termination_by 2 * unasked.length + coming.length
decreasing_by
  · rw [List.length_eraseIdx_of_lt inside]
    omega
  · simp only [List.length_cons, List.length_append, List.length_nil]
    omega

/-- Fetches documents for a transaction, in the order of their keys. -/
def fetch (transaction : Json) (keys : List DocumentKey) (store : RemoteStore) :
    Except Error Reads × RemoteStore :=
  let (fetched, store) := store.gather transaction keys [] [] store.bridge.arrivals
  (fetched.map fun reads =>
    keys.filterMap fun key => (reads.find? key).map fun snapshot => (key, snapshot), store)

def rollBack (transaction : Json) (store : RemoteStore) : RemoteStore :=
  (store.invoke "transaction.rollback" (.object [("transaction", transaction)])).2

def transactWithin {ρ : Type} (transaction : Json) (keys : List DocumentKey)
    (body : Reads → ρ × Except Error (List WriteOperation)) (store : RemoteStore) :
    TransactionEnd ρ × RemoteStore :=
  let (fetched, store) := store.fetch transaction keys
  match fetched with
  | .error e => (.notRun e, store.rollBack transaction)
  | .ok reads =>
    let (report, outcome) := body reads
    let encoded := outcome.bind fun writes => (Wire.encodeWrites writes).mapError .value
    match encoded with
    | .error e => (.ran report (.error e), store.rollBack transaction)
    | .ok items =>
      let (result, store) :=
        store.invoke "transaction.commit"
          (Json.ofMembers [("transaction", transaction), ("writes", .array items)])
      (.ran report (result.map fun _ => ()), store)

def transact {ρ : Type} (keys : List DocumentKey)
    (body : Reads → ρ × Except Error (List WriteOperation)) (store : RemoteStore) :
    TransactionEnd ρ × RemoteStore :=
  let (opened, store) := store.invoke "transaction.begin" (.object [])
  match opened with
  | .error e => (.notRun e, store)
  | .ok response =>
    match response.member? "transaction" with
    | none => (.notRun .noTransactionId, store)
    | some transaction => store.transactWithin transaction keys body

/-- Registers a listener with the bridge. Tokens count the registrations, of which there are fewer than
`2 ^ 64`, and the bridge names them. -/
def listen (target : ListenTarget) (mailbox : Nat) (store : RemoteStore) :
    Except Error Token × RemoteStore :=
  let token := store.listeners.length + 1
  let request := (Wire.encodeListenRequest target).mapError Error.ofRequest
  let (result, store) := store.exchange "listen" request fun _ => .ok token
  match result with
  | .error e => (.error e, store)
  | .ok token =>
    let listener : RemoteListener :=
      { token, handle := store.bridge.names token, target, mailbox, raw := .bounded store.capacity,
        attached := true, registered := true, pending := none, forwarding := true }
    (.ok token, { store with listeners := store.listeners ++ [listener] })

def change (token : Token) (f : RemoteListener → RemoteListener) (store : RemoteStore) :
    RemoteStore :=
  { store with
    listeners := store.listeners.map fun listener =>
      if listener.token == token then f listener else listener }

def listener? (token : Token) (store : RemoteStore) : Option RemoteListener :=
  store.listeners.find? fun listener => listener.token == token

/-- Ends a registration. The bridge is told once; it keeps the sending end of the channel if it
fails. -/
def unlisten (token : Token) (store : RemoteStore) : Except Error Unit × RemoteStore :=
  match store.listener? token with
  | none => (.ok (), store)
  | some listener =>
    if listener.registered then
      let store := store.change token fun l => { l with registered := false, raw := l.raw.close }
      let (result, store) := store.invoke "unlisten" (.string listener.handle)
      match result with
      | .error e => (.error e, store)
      | .ok _ => (.ok (), store.change token fun l => { l with attached := false })
    else (.ok (), store)

instance : Datastore RemoteStore where
  get := get
  query := query
  write := write
  commit := commit
  transact := transact
  listen := listen
  unlisten := unlisten

/-- Tells whether the next event of a registration can be moved on. -/
def canForward (boxes : Mailboxes) (listener : RemoteListener) : Bool :=
  listener.forwarding &&
    match listener.pending with
    | some _ => !(Mailboxes.box listener.mailbox boxes).isOpen ||
        !(Mailboxes.box listener.mailbox boxes).isFull
    | none => !listener.raw.items.isEmpty

/-- Ends the forwarding of a registration's events and closes its channel. -/
def RemoteListener.stop (listener : RemoteListener) : RemoteListener :=
  { listener with pending := none, forwarding := false, raw := listener.raw.close }

/-- Moves the next event of a registration one step on: out of the channel, or into the mailbox.
Forwarding ends with an error and with a closed mailbox. -/
def forwardOne (listener : RemoteListener) (boxes : Mailboxes) : RemoteListener × Mailboxes :=
  match listener.pending with
  | some event =>
    match Mailboxes.post listener.mailbox event boxes with
    | (.sent, boxes) =>
      (if event.isTerminal then RemoteListener.stop listener
        else { listener with pending := none }, boxes)
    | (.full, boxes) => (listener, boxes)
    | (.closed, boxes) => (RemoteListener.stop listener, boxes)
  | none =>
    match listener.raw.take? with
    | some (event, raw) =>
      ({ listener with raw, pending := some (Wire.decodeListenEvent listener.target event) }, boxes)
    | none => (listener, boxes)

/-- Moves the next event of the registration with a token one step on. -/
def forward (token : Token) (store : RemoteStore) : RemoteStore :=
  match store.listener? token with
  | none => store
  | some listener =>
    let (listener, mailboxes) := forwardOne listener store.mailboxes
    { store.change token (fun _ => listener) with mailboxes }

/-- Pushes one event into the channels of the registrations that the bridge has, all of them or the
one with a given handle, and tells what became of it. -/
def push (event : Json) (handle : Option String) :
    List RemoteListener → List (String × Delivery) × List RemoteListener
  | [] => ([], [])
  | listener :: rest =>
    let (deliveries, rest) := push event handle rest
    if listener.attached && handle.all (· == listener.handle) then
      let (delivery, raw) := listener.raw.offer event
      ((listener.handle, delivery) :: deliveries, { listener with raw } :: rest)
    else (deliveries, listener :: rest)

def emit (handle : Option String) : List Json → RemoteStore → List (String × Delivery) × RemoteStore
  | [], store => ([], store)
  | event :: events, store =>
    let (first, listeners) := push event handle store.listeners
    let (rest, store) := emit handle events { store with listeners }
    (first ++ rest, store)

end RemoteStore

end DocumentStore
