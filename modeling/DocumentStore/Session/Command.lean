import DocumentStore.Client.Batch
import DocumentStore.Session.Basic
import DocumentStore.Session.Script

/-! # Commands of a session

The owner of a session gives commands one after another. A command does its own part at once and
answers; then background work goes on until nothing is left to do, unless the owner asks it to wait. -/

namespace DocumentStore

/-- A write for a batch. -/
inductive BatchEntry where
  | write (request : WriteRequest)
  | setJson (path : String) (json : Json) (merge : Bool)
  /-- Removals of documents whose paths begin alike and end with the numbers from zero. -/
  | fill (path : String) (count : Nat)

/-- A query to be built: the path of the collection and the calls that narrow it. -/
structure QueryRequest where
  collection : String
  calls : List BuildCall

/-- The query that a request asks for, or the first refusal. -/
def QueryRequest.build (request : QueryRequest) : Except Error Query := do
  let query ← Query.ofCollection request.collection
  query.applyAll request.calls

/-- What a listener is to watch, as the owner gives it. -/
inductive TargetRequest where
  | document (path : String)
  | query (request : QueryRequest)

/-- A command of the owner. -/
inductive Command where
  | get (path : String)
  | getJson (path : String)
  | write (request : WriteRequest)
  | setJson (path : String) (json : Json) (merge : Bool)
  | add (collection : String) (data : Fields)
  | addJson (collection : String) (json : Json)
  | query (request : QueryRequest)
  | queryJson (request : QueryRequest)
  /-- Fills a batch and commits it, or drops it. -/
  | batch (entries : List BatchEntry) (discard : Bool)
  | transaction (ops : List ScriptOp)
  /-- Starts a subscription under a name. -/
  | subscribe (name : String) (target : TargetRequest)
  | phase (name : String)
  /-- Asks once whether the store has answered the registration. -/
  | ready (name : String)
  | start (name : String)
  | dispose (name : String)
  /-- Lets go of a subscription, which is disposed of in the background. -/
  | drop (name : String)
  /-- Adds a permit to the gate. -/
  | release (failure : Option String)
  | cancel
  | count
  /-- Pushes events into the channels of the registrations with a remote store. -/
  | emit (events : List Json) (handle : Option String)
  /-- Lays down an answer of the bridge. -/
  | respond (method : String) (reply : Reply)
  /-- Registers a mailbox with the store directly. -/
  | listenDirectly (name : String) (target : TargetRequest) (mailbox : Mailbox)
  | drain (name : String)
  | close (name : String)
  | unlisten (name : String)

/-- The sizes of a session's store. -/
structure Counts where
  documents : Nat
  listeners : Nat
  unlistened : Option Nat

/-- What a command answers when it succeeds. -/
inductive Answer where
  | done
  | snapshot (s : Snapshot)
  | json (j : Option Json)
  | added (s : Snapshot)
  | result (r : QueryResult)
  | jsons (js : List Json)
  /-- The number of writes in the batch after each entry, and the outcome of the commit. -/
  | batch (lengths : List (Except Error Nat)) (committed : Option (Except Error Unit))
  /-- The logs of the runs, and the number of the run whose result came back. -/
  | transaction (logs : List (List LogEntry)) (result : Except Error Nat)
  | phase (phase : Phase)
  | state (phase : Phase) (target : ListenTarget)
  | pending
  | counts (counts : Counts)
  | deliveries (deliveries : List (String × Delivery))
  | token (token : Token)
  | events (events : List ListenEvent)
  /-- There is nothing with the name in question. -/
  | unknown

namespace Batch

/-- Removes documents one after another, up to the first refusal, which is reported beside the
writes that were added before it. -/
def fill (path : String) : List Nat → Batch → Except Error Nat × Batch
  | [], batch => (.ok batch.length, batch)
  | n :: ns, batch =>
    match batch.add (.delete (path ++ Text.writeInteger n)) with
    | .error e => (.error e, batch)
    | .ok next => fill path ns next

/-- Adds an entry to a batch; a refused entry leaves the batch as it was. -/
def addEntry (entry : BatchEntry) (batch : Batch) : Except Error Nat × Batch :=
  let added : Batch → Except Error Batch → Except Error Nat × Batch := fun old result =>
    match result with
    | .ok next => (.ok next.length, next)
    | .error e => (.error e, old)
  match entry with
  | .write request => added batch (batch.add request)
  | .setJson path json merge => added batch (batch.addJson path json merge)
  | .fill path count => fill path (List.range count) batch

def addEntries : List BatchEntry → Batch → List (Except Error Nat) × Batch
  | [], batch => ([], batch)
  | entry :: entries, batch =>
    let (length, batch) := addEntry entry batch
    let (lengths, batch) := addEntries entries batch
    (length :: lengths, batch)

end Batch

namespace Session

/-- The place of the subscription that the owner has under a name. -/
def place? (name : String) (session : Session) : Option Nat :=
  session.members.findIdx? fun member => member.held && member.name == name

/-- The subscription that the owner has under a name, with its place. -/
def held? (name : String) (session : Session) : Option (Nat × Member) :=
  (session.place? name).bind fun place => session.members[place]?.map fun member => (place, member)

def letGo (name : String) (session : Session) : Session :=
  match session.place? name with
  | none => session
  | some place =>
    { session with
      members := session.members.modify place fun member =>
        { member with held := false, leaving := !member.subscription.phase.isDisposed } }

/-- The target that a request asks for, on behalf of the client. -/
def targetFor : TargetRequest → Action Backend ListenTarget
  | .document path => Client.documentTarget path
  | .query request => do
    let query ← request.build
    Client.queryTarget query

/-- The target that a request asks for, whatever the client says. -/
def bareTarget : TargetRequest → Except Error ListenTarget
  | .document path => (documentKey path).map .document
  | .query request => request.build.map .query

/-- Starts a subscription under a name, in place of the one that was there. -/
def subscribe (name : String) (target : TargetRequest) (session : Session) :
    Except Error Answer × Session :=
  match session.act (targetFor target) with
  | (.error e, session) => (.error e, session)
  | (.ok target, session) =>
    let session := session.letGo name
    let (mailbox, session) := session.addMailbox .unbounded
    let member : Member :=
      { name, subscription := .new target, mailbox, held := true, leaving := false }
    let place := session.members.length
    let session := { session with members := session.members ++ [member] }
    (.ok (.phase .registering), session.step place .start)

/-- The listener of the owner's own under a name. -/
def listener? (name : String) (session : Session) : Option DirectListener :=
  session.listeners.find? fun listener => listener.name == name

/-- Closes the mailbox of a listener of the owner's own. -/
def closeListener (listener : DirectListener) (session : Session) : Session :=
  session.withMailbox listener.mailbox (session.mailbox listener.mailbox).close

/-- Forgets the listener of the owner's own under a name, whose mailbox nobody reads any more. -/
def forget (name : String) (session : Session) : Session :=
  match session.listener? name with
  | none => session
  | some listener =>
    { session.closeListener listener with
      listeners := session.listeners.filter fun other => other.name != name }

/-- Registers a mailbox with the store directly, under a name, in place of the one that was there. -/
def listenDirectly (name : String) (target : TargetRequest) (mailbox : Mailbox)
    (session : Session) : Except Error Answer × Session :=
  match bareTarget target with
  | .error e => (.error e, session)
  | .ok target =>
    let (number, session) := session.addMailbox mailbox
    match session.actOnStore (Datastore.listen target number) with
    | (.error e, session) => (.error e, session)
    | (.ok token, session) =>
      let session := session.forget name
      (.ok (.token token), { session with listeners := ⟨name, token, number⟩ :: session.listeners })

/-- Runs an action of the client and words its answer. -/
def answer {α : Type} (wording : α → Answer) (action : Action Backend α) (session : Session) :
    Except Error Answer × Session :=
  let (result, session) := session.act action
  (result.map wording, session)

/-- Fills a batch and commits it, or drops it. -/
def runBatch (entries : List BatchEntry) (discard : Bool) (session : Session) :
    Except Error Answer × Session :=
  let (lengths, batch) := Batch.addEntries entries Batch.empty
  if discard then (.ok (.batch lengths none), session)
  else
    let (committed, session) := session.act (Client.commit batch)
    (.ok (.batch lengths (some committed)), session)

def runScript (ops : List ScriptOp) (session : Session) : Except Error Answer × Session :=
  let (outcome, client) := session.client.runTransaction (ScriptOp.body ops)
  (.ok (.transaction outcome.reports outcome.result), { session with client })

def counts? (session : Session) : Option Counts :=
  session.backend.memory?.map fun store =>
    { documents := store.documents.length
      listeners := store.listeners.length
      unlistened := session.backend.gate?.map Gate.unlistened }

/-- The part of a command about a subscription that the owner has. -/
def onMember (name : String) (session : Session)
    (f : Nat → Member → Except Error Answer × Session) : Except Error Answer × Session :=
  match session.held? name with
  | some (place, member) => f place member
  | none => (.ok .unknown, session)

/-- The part of a command about a listener of the owner's own. -/
def onListener (name : String) (session : Session)
    (f : DirectListener → Except Error Answer × Session) : Except Error Answer × Session :=
  match session.listener? name with
  | some listener => f listener
  | none => (.ok .unknown, session)

/-- Starts a subscription again, which is refused unless it was never started. -/
def startAgain (place : Nat) (member : Member) (session : Session) :
    Except Error Answer × Session :=
  (member.subscription.start.map fun _ => .done, session.step place .start)

/-- Disposes of a subscription and shows its phase afterwards. -/
def disposeNow (place : Nat) (session : Session) : Except Error Answer × Session :=
  let session := session.disposeAt place
  match session.members[place]? with
  | some member => (.ok (.phase member.subscription.phase), session)
  | none => (.ok .unknown, session)

def execute (command : Command) (session : Session) : Except Error Answer × Session :=
  match command with
  | .get path => session.answer .snapshot (Client.getDoc path)
  | .getJson path => session.answer .json (Client.getJson path)
  | .write request => session.answer (fun _ => .done) (Client.write request)
  | .setJson path json merge =>
    session.answer (fun _ => .done) (Client.setJson path json merge)
  | .add collection data => session.answer .added (Client.addDoc collection data)
  | .addJson collection json => session.answer .added (Client.addJson collection json)
  | .query request =>
    session.answer .result (do Client.getDocs (← request.build))
  | .queryJson request =>
    session.answer .jsons (do Client.getDocsJson (← request.build))
  | .batch entries discard => session.runBatch entries discard
  | .transaction ops => session.runScript ops
  | .subscribe name target => session.subscribe name target
  | .phase name =>
    session.onMember name fun _ member =>
      (.ok (.state member.subscription.phase member.subscription.target), session)
  | .ready name =>
    session.onMember name fun _ member =>
      (.ok (if member.subscription.settled then .phase member.subscription.phase else .pending),
        session)
  | .start name => session.onMember name fun place member => session.startAgain place member
  | .dispose name => session.onMember name fun place _ => session.disposeNow place
  | .drop name => (.ok .done, session.letGo name)
  | .release failure =>
    (.ok .done, session.withBackend (session.backend.changeGate (Gate.release failure)))
  | .cancel => (.ok .done, { session with client := session.client.cancel })
  | .count => (.ok (session.counts?.elim .unknown .counts), session)
  | .emit events handle =>
    match session.backend with
    | .remote store =>
      let (deliveries, store) := store.emit handle events
      (.ok (.deliveries deliveries), session.withBackend (.remote store))
    | _ => (.ok (.deliveries []), session)
  | .respond method reply =>
    (.ok .done, session.withBackend <| session.backend.changeRemote fun store =>
      { store with bridge := store.bridge.respond method reply })
  | .listenDirectly name target mailbox => session.listenDirectly name target mailbox
  | .drain name =>
    session.onListener name fun listener =>
      let mailbox := session.mailbox listener.mailbox
      (.ok (.events mailbox.items), session.withMailbox listener.mailbox { mailbox with items := [] })
  | .close name =>
    session.onListener name fun listener => (.ok .done, session.closeListener listener)
  | .unlisten name =>
    session.onListener name fun listener =>
      let (result, session) := session.actOnStore (Datastore.unlisten listener.token)
      (result.map fun _ => .done, session)

/-- What a command leads to: its answer, the calls of the bridge and the events that observers were
called with, by the names of their subscriptions. -/
structure Report where
  answer : Except Error Answer
  calls : List Call
  events : Entries (List ListenEvent)

def gather (heard : List (String × ListenEvent)) : Entries (List ListenEvent) :=
  heard.foldl
    (fun groups (name, event) =>
      Entries.insert name ((Entries.find? name groups).getD [] ++ [event]) groups)
    []

/-- Obeys a command, then lets background work go on unless it is to wait. -/
def obey (command : Command) (wait : Bool) (session : Session) : Report × Session :=
  let (answer, session) := session.execute command
  let session := if wait then session.enqueue else session.settle
  let calls := session.backend.calls
  ({ answer, calls := calls.drop session.reported, events := gather session.heard },
    { session with heard := [], reported := calls.length })

def obeyAll : List (Command × Bool) → Session → List Report
  | [], _ => []
  | (command, wait) :: rest, session =>
    let (report, session) := session.obey command wait
    report :: obeyAll rest session

end Session

end DocumentStore
