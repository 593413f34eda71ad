import DocumentStore.Listen.Event

/-! # Subscriptions

A subscription registers with a store, hands the events of its mailbox to an observer one by one, and
ends with the first error or when it is disposed of. What happens to it comes in atomic steps that
may follow each other in any order; a step that has no occasion changes nothing. -/

namespace DocumentStore

/-- The life of a subscription as its owner sees it. -/
inductive Phase where
  | created
  | registering
  | active
  /-- Nothing more is delivered. The flag tells that the subscription was disposed of before the
  store had answered. -/
  | disposed (duringRegistration : Bool)
deriving DecidableEq, Repr

namespace Phase

def isDisposed : Phase → Bool
  | .disposed _ => true
  | _ => false

def afterDispose : Phase → Phase
  | .disposed flag => .disposed flag
  | .registering => .disposed true
  | _ => .disposed false

def name : Phase → String
  | .created => "created"
  | .registering => "registering"
  | .active => "active"
  | .disposed false => "disposed"
  | .disposed true => "disposed-during-registration"

end Phase

/-- What a subscription's background work is about to do. -/
inductive Stage where
  | idle
  /-- Waits for the store to answer the registration. -/
  | requesting
  /-- Reports a failed registration, if there was an observer to report it to. -/
  | failed (e : Error) (observed : Bool)
  /-- Releases a token that nobody wants any more. -/
  | orphaned (token : Token)
  | delivering
  | finished

/-- The state of a subscription. -/
structure Subscription where
  target : ListenTarget
  phase : Phase
  /-- The token of the registration while it is to be released. -/
  token : Option Token
  /-- Tells whether there is an observer to be called. -/
  observing : Bool
  stage : Stage
  /-- Tells whether the store has answered, or will never be asked. -/
  settled : Bool
  /-- The disposals that have ended the subscription but not released its token, each with the token
  that it has to release. -/
  disposals : List (Option Token)

/-- What a step does to the outside. -/
structure Effect where
  /-- The event that the observer is called with. -/
  notified : Option ListenEvent
  /-- The token that is given back to the store. -/
  released : Option Token

def Effect.nothing : Effect := ⟨none, none⟩

namespace Subscription

def new (target : ListenTarget) : Subscription :=
  { target, phase := .created, token := none, observing := true, stage := .idle,
    settled := false, disposals := [] }

def start (s : Subscription) : Except Error Subscription :=
  if s.phase = .created then .ok { s with phase := .registering, stage := .requesting }
  else .error (.alreadyStarted s.target.describe)

/-- The subscription after the store has answered its registration. A token that comes after a
disposal is an orphan. -/
def settle (answer : Except Error Token) (s : Subscription) : Subscription :=
  match answer with
  | .ok token =>
    if s.phase = .registering then
      { s with phase := .active, token := some token, stage := .delivering, settled := true }
    else { s with observing := false, stage := .orphaned token, settled := true }
  | .error e =>
    let registering := s.phase == .registering
    { s with
      phase := if s.phase.isDisposed then s.phase else .disposed false
      stage := .failed e (registering && s.observing)
      observing := s.observing && !registering
      settled := true }

/-- The subscription after a disposal has ended it. The disposal that finds it active has to release
its token. -/
def beginDispose (s : Subscription) : Subscription :=
  { s with
    phase := s.phase.afterDispose
    observing := false
    token := if s.phase = .active then none else s.token
    settled := s.settled || s.phase == .created
    disposals := s.disposals ++ [if s.phase = .active then s.token else none] }

def terminate (s : Subscription) : Subscription :=
  { s with phase := .disposed false, observing := false, token := none, stage := .finished }

end Subscription

/-- A subscription with the mailbox that the store pushes its events into. -/
structure Feed where
  subscription : Subscription
  mailbox : Mailbox

/-- The steps in the life of a feed. -/
inductive FeedStep where
  /-- The owner starts the subscription. -/
  | start
  /-- The store answers the registration. -/
  | settle (answer : Except Error Token)
  /-- A failed registration is reported. -/
  | report
  /-- A token is released that arrived after a disposal. -/
  | releaseOrphan
  /-- The store pushes an event. -/
  | push (event : ListenEvent)
  /-- The next event is handed to the observer. -/
  | deliver
  /-- A disposal ends the subscription. -/
  | beginDispose
  /-- One of the disposals under way, named by its place among them, releases the token that it has
  to, and returns. -/
  | endDispose (place : Nat)

namespace Feed

/-- A feed with an empty mailbox before its start. -/
def new (target : ListenTarget) : Feed := ⟨.new target, .unbounded⟩

/-- Hands the first event of the mailbox to the observer of a subscription that delivers. An event
that comes after disposal ends the delivery. -/
def deliverEvent (event : ListenEvent) (rest : Mailbox) (s : Subscription) : Feed × Effect :=
  let notified := if s.observing then some event else none
  if s.phase ≠ .active then (⟨{ s with stage := .finished }, rest⟩, .nothing)
  else if event.isTerminal then (⟨s.terminate, rest.close⟩, ⟨notified, s.token⟩)
  else (⟨s, rest⟩, ⟨notified, none⟩)

/-- The feed after the next event was handed on. -/
def deliver (feed : Feed) : Feed × Effect :=
  match feed.subscription.stage, feed.mailbox.take? with
  | .delivering, some (event, rest) => deliverEvent event rest feed.subscription
  | _, _ => (feed, .nothing)

def step (feed : Feed) : FeedStep → Feed × Effect
  | .start =>
    match feed.subscription.start with
    | .ok started => ({ feed with subscription := started }, .nothing)
    | .error _ => (feed, .nothing)
  | .settle answer =>
    match feed.subscription.stage with
    | .requesting => ({ feed with subscription := feed.subscription.settle answer }, .nothing)
    | _ => (feed, .nothing)
  | .report =>
    match feed.subscription.stage with
    | .failed e observed =>
      (⟨{ feed.subscription with stage := .finished }, feed.mailbox.close⟩,
        ⟨if observed then some (.error e) else none, none⟩)
    | _ => (feed, .nothing)
  | .releaseOrphan =>
    match feed.subscription.stage with
    | .orphaned token =>
      ({ feed with subscription := { feed.subscription with stage := .finished } },
        ⟨none, some token⟩)
    | _ => (feed, .nothing)
  | .push event => ({ feed with mailbox := (feed.mailbox.offer event).2 }, .nothing)
  | .deliver => feed.deliver
  | .beginDispose => (⟨feed.subscription.beginDispose, feed.mailbox.close⟩, .nothing)
  | .endDispose place =>
    match feed.subscription.disposals[place]? with
    | some token =>
      ({ feed with subscription :=
        { feed.subscription with disposals := feed.subscription.disposals.eraseIdx place } },
        ⟨none, token⟩)
    | none => (feed, .nothing)

end Feed

end DocumentStore
