import DocumentStore.Client.Basic
import DocumentStore.Listen.Subscription
import DocumentStore.Session.Backend

/-! # Sessions

A session is a client with the subscriptions that its owner made and with the background work that
belongs to them. Work that can go on is queued in the order in which it became possible; the piece at
the head of the queue is worked on until it can go on no further. -/

namespace DocumentStore

/-- A subscription in a session. -/
structure Member where
  /-- The name that the owner gave it. -/
  name : String
  subscription : Subscription
  /-- The number of its mailbox. -/
  mailbox : Nat
  /-- Tells whether the owner still has it under its name. -/
  held : Bool
  /-- Tells whether it was let go of and is to be disposed of in the background. -/
  leaving : Bool

/-- A mailbox of the owner's own that was registered with the store directly. -/
structure DirectListener where
  name : String
  token : Token
  mailbox : Nat

/-- A piece of background work. -/
inductive Task where
  /-- The registration of a subscription and the delivery of its events, by its place in the
  session. -/
  | subscription (place : Nat)
  /-- The forwarding of the events of a registration with a remote store. -/
  | forwarding (token : Token)
  /-- The disposal of a subscription that was let go of. -/
  | disposal (place : Nat)
deriving DecidableEq, Repr

/-- The state of a session. -/
structure Session where
  client : Client Backend
  members : List Member
  listeners : List DirectListener
  /-- The work that was queued. -/
  ready : List Task
  /-- The events that observers were called with since the last report, with the names of their
  subscriptions. -/
  heard : List (String × ListenEvent)
  /-- The number of calls of the bridge in earlier reports. -/
  reported : Nat

namespace Session

def new (backend : Backend) : Session :=
  { client := .new backend, members := [], listeners := [], ready := [], heard := [], reported := 0 }

def backend (session : Session) : Backend := session.client.store

def withBackend (backend : Backend) (session : Session) : Session :=
  { session with client := { session.client with store := backend } }

def mailbox (number : Nat) (session : Session) : Mailbox :=
  Mailboxes.box number session.backend.mailboxes

def withMailbox (number : Nat) (mailbox : Mailbox) (session : Session) : Session :=
  let backend := session.backend
  session.withBackend (backend.withMailboxes (backend.mailboxes.set number mailbox))

def addMailbox (mailbox : Mailbox) (session : Session) : Nat × Session :=
  let backend := session.backend
  (backend.mailboxes.length,
    session.withBackend (backend.withMailboxes (backend.mailboxes.add mailbox)))

def act {α : Type} (action : Action Backend α) (session : Session) : Except Error α × Session :=
  let (result, client) := action.run session.client
  (result, { session with client })

/-- Runs an operation of the store, not of the client. -/
def actOnStore {α : Type} (operation : Backend → Except Error α × Backend) (session : Session) :
    Except Error α × Session :=
  let (result, backend) := operation session.backend
  (result, session.withBackend backend)

/-- Gives a token back to the store. Failures are passed over. -/
def release (token : Token) (session : Session) : Session :=
  (session.actOnStore (Datastore.unlisten token)).2

/-- Performs the effect of a step of the subscription with a name. -/
def carryOut (name : String) (effect : Effect) (session : Session) : Session :=
  let heard := { session with
    heard := session.heard ++ (effect.notified.map fun event => (name, event)).toList }
  match effect.released with
  | some token => heard.release token
  | none => heard

/-- Takes a step of the subscription at a place. -/
def step (place : Nat) (feedStep : FeedStep) (session : Session) : Session :=
  match session.members[place]? with
  | none => session
  | some member =>
    let feed : Feed := ⟨member.subscription, session.mailbox member.mailbox⟩
    let (feed, effect) := feed.step feedStep
    let members := session.members.set place { member with subscription := feed.subscription }
    (({ session with members }).withMailbox member.mailbox feed.mailbox).carryOut member.name effect

/-- Has the store answer the registration of the subscription at a place, or has it wait at a gate
without permits. -/
def register (place : Nat) (member : Member) (session : Session) : Session :=
  if session.backend.gate?.any Gate.isShut then
    session.withBackend (session.backend.changeGate (Gate.wait member.mailbox))
  else
    let (answer, session) :=
      session.actOnStore (Datastore.listen member.subscription.target member.mailbox)
    session.step place (.settle answer)

def disposeAt (place : Nat) (session : Session) : Session :=
  (session.step place .beginDispose).step place (.endDispose 0)

/-- Tells whether the background work of a member can go on. A registration that waits at a gate goes
on when it is called. -/
def canAdvance (member : Member) (session : Session) : Bool :=
  match member.subscription.stage with
  | .idle | .finished => false
  | .requesting => !session.backend.gate?.any fun gate => gate.holds member.mailbox
  | .failed .. | .orphaned _ => true
  | .delivering => !(session.mailbox member.mailbox).items.isEmpty

/-- Tells whether a piece of work can go on. -/
def isEnabled (session : Session) : Task → Bool
  | .subscription place => session.members[place]?.any fun member => session.canAdvance member
  | .forwarding token =>
    match session.backend.remote? with
    | none => false
    | some store =>
      (store.listener? token).any fun listener => RemoteStore.canForward store.mailboxes listener
  | .disposal place => session.members[place]?.any Member.leaving

/-- Takes a step of the background work of a member. -/
def advance (place : Nat) (member : Member) (session : Session) : Session :=
  match member.subscription.stage with
  | .idle | .finished => session
  | .requesting => session.register place member
  | .failed .. => session.step place .report
  | .orphaned _ => session.step place .releaseOrphan
  | .delivering => session.step place .deliver

def runTask (task : Task) (session : Session) : Session :=
  match task with
  | .subscription place =>
    match session.members[place]? with
    | some member => session.advance place member
    | none => session
  | .forwarding token =>
    session.withBackend (session.backend.changeRemote (RemoteStore.forward token))
  | .disposal place =>
    let members := session.members.modify place fun member => { member with leaving := false }
    ({ session with members }).disposeAt place

/-- All pieces of work that a session may have. -/
def tasks (session : Session) : List Task :=
  let places := List.range session.members.length
  let registrations :=
    match session.backend.remote? with
    | some store => store.listeners.map RemoteListener.token
    | none => []
  places.map .subscription ++ registrations.map .forwarding ++ places.map .disposal

/-- Queues the work that can go on and was not queued before. -/
def enqueue (session : Session) : Session :=
  { session with
    ready := session.ready ++ session.tasks.filter fun task =>
      session.isEnabled task && !session.ready.contains task }

/-- A bound on the number of steps that background work can take. -/
def workload (session : Session) : Nat :=
  let mail := session.members.map fun member => 8 + (session.mailbox member.mailbox).items.length
  let raw :=
    match session.backend.remote? with
    | some store => store.listeners.map fun (listener : RemoteListener) => 4 + 4 * listener.raw.items.length
    | none => []
  (mail ++ raw).foldl (· + ·) 0

/-- Works on the queue for at most a number of steps. -/
def work : Nat → Session → Session
  | 0, session => session
  | fuel + 1, session =>
    match session.ready.dropWhile fun task => !session.isEnabled task with
    | [] => { session with ready := [] }
    | task :: rest => work fuel (({ session with ready := task :: rest }).runTask task).enqueue

def settle (session : Session) : Session :=
  let session := session.enqueue
  session.work session.workload

end Session

end DocumentStore
