import DocumentStore.Proofs.Remote.Reception

/-! # A subscription at a remote store

A subscription, the remote store that it is registered with, and everything else that is done with this
store take steps in any order: the bridge pushes events, these are moved on, other listeners come and go,
and other operations of the store call the bridge. For the subscription all this looks like the steps of
its feed. -/

namespace DocumentStore

open Mailboxes RemoteStore

/-- Tells the steps that a subscription takes by itself. -/
def FeedStep.isOwn : FeedStep → Bool
  | .settle _ | .push _ => false
  | _ => true

/-- A subscription with the remote store that it registers with. Its mailbox is the first one. -/
structure Relay where
  subscription : Subscription
  /-- What the store has answered, once it was asked for the registration. -/
  answer : Option (Except Error Token)
  store : RemoteStore

/-- The steps of a subscription and of its store. -/
inductive RelayStep where
  /-- The subscription takes a step by itself. -/
  | own (step : FeedStep)
  /-- The subscription asks the store for its registration. -/
  | ask
  /-- The answer of the store reaches the subscription. -/
  | settle
  /-- Something happens in the store. -/
  | other (step : RemoteStep)

theorem Feed.run_toList_append (feed : Feed) (step : Option FeedStep) (steps : List FeedStep) :
    let now := step.elim (feed, Effect.nothing) feed.step
    feed.run (step.toList ++ steps) = now.1.run steps ∧
      feed.heard (step.toList ++ steps) = now.2.notified.toList ++ now.1.heard steps ∧
      feed.released (step.toList ++ steps) = now.2.released.toList ++ now.1.released steps := by
  cases step <;> exact ⟨rfl, rfl, rfl⟩

namespace Relay

/-- A subscription before its start, at a store without registrations. -/
def new (bridge : Bridge) (capacity : Nat) (others : Mailboxes) (target : ListenTarget) : Relay :=
  { subscription := .new target
    answer := none
    store := { RemoteStore.new bridge capacity with mailboxes := .unbounded :: others } }

def feed (relay : Relay) : Feed := ⟨relay.subscription, box 0 relay.store.mailboxes⟩

/-- Takes a step of the feed of the subscription. -/
def take (step : FeedStep) (relay : Relay) : Relay × Effect :=
  let (feed, effect) := relay.feed.step step
  ({ relay with
      subscription := feed.subscription
      store := relay.store.settle 0 feed.mailbox effect.released }, effect)

/-- Tells whether the subscription waits for an answer that it has not asked for. -/
def canAsk (relay : Relay) : Bool :=
  match relay.subscription.stage, relay.answer with
  | .requesting, none => true
  | _, _ => false

/-- Asks the store for the registration. -/
def ask (relay : Relay) : Relay :=
  let (answer, store) := relay.store.listen relay.subscription.target 0
  { relay with answer := some answer, store }

def step (relay : Relay) : RelayStep → Relay × Effect
  | .own step => if step.isOwn then relay.take step else (relay, .nothing)
  | .ask => (if relay.canAsk then relay.ask else relay, .nothing)
  | .settle =>
    match relay.answer with
    | some answer => relay.take (.settle answer)
    | none => (relay, .nothing)
  | .other step => ({ relay with store := relay.store.step step }, .nothing)

/-- The relay after some steps. -/
def run (relay : Relay) (steps : List RelayStep) : Relay :=
  steps.foldl (fun relay step => (relay.step step).1) relay

/-- What can be observed in some steps. -/
def trace {α : Type} (seen? : Relay → RelayStep → Option α) : Relay → List RelayStep → List α
  | _, [] => []
  | relay, step :: steps =>
    (seen? relay step).toList ++ trace seen? (relay.step step).1 steps

/-- The own registration, once the store has granted it. -/
def registration? (relay : Relay) : Option RemoteListener :=
  match relay.answer with
  | some (.ok token) => relay.store.listener? token
  | _ => none

/-- The event that the channel of the own registration takes. -/
def received? (relay : Relay) : RelayStep → Option Json
  | .other (.emit event handle) => relay.registration?.bind (RemoteListener.taken? event handle)
  | _ => none

/-- Tells whether the channel of the own registration has no room. -/
def isFull (relay : Relay) : Bool := relay.registration?.any fun listener => listener.raw.isFull

/-- The token of a new registration. -/
def issued? (relay : Relay) : RelayStep → Option Token
  | .ask =>
    if relay.canAsk then (relay.store.listen relay.subscription.target 0).1.toOption else none
  | .other step => relay.store.issued? step
  | .own _ | .settle => none

/-- The token that is given back to the store. -/
def givenBack? (relay : Relay) (step : RelayStep) : Option Token :=
  match step with
  | .other step => step.givenBack?
  | .own _ | .ask | .settle => (relay.step step).2.released

/-- The token of a registration that ends. -/
def ended? (relay : Relay) (step : RelayStep) : Option Token :=
  (relay.givenBack? step).bind relay.store.ends?

/-- The events that the channel of the own registration takes. -/
def received : Relay → List RelayStep → List Json := trace received?

/-- The events that the observer is called with. -/
def heard : Relay → List RelayStep → List ListenEvent :=
  trace fun relay step => (relay.step step).2.notified

/-- The tokens that the subscription gives back. -/
def released : Relay → List RelayStep → List Token :=
  trace fun relay step => (relay.step step).2.released

/-- The tokens that the store grants. -/
def issued : Relay → List RelayStep → List Token := trace issued?

/-- The tokens of the registrations that end. -/
def ended : Relay → List RelayStep → List Token := trace ended?

/-- What a step is for the feed of the subscription. -/
def fed? (relay : Relay) : RelayStep → Option FeedStep
  | .own step => if step.isOwn then some step else none
  | .ask => none
  | .settle => relay.answer.map .settle
  | .other step => (relay.store.posted? step).map .push

/-- The steps of the feed of the subscription. -/
def fed : Relay → List RelayStep → List FeedStep := trace fed?

variable {relay : Relay} {steps : List RelayStep}

theorem feed_ask (relay : Relay) : relay.ask.feed = relay.feed := by
  rw [feed, ask]
  dsimp only
  rw [RemoteStore.mailboxes_listen]
  rfl

theorem feed_take (inside : 0 < relay.store.mailboxes.length) (step : FeedStep) :
    (relay.take step).1.feed = (relay.feed.step step).1 := by
  have own : box 0 (relay.take step).1.store.mailboxes = (relay.feed.step step).1.mailbox := by
    rw [take, RemoteStore.mailboxes_settle, box_set, if_pos ⟨rfl, inside⟩]
  rw [feed, own]
  rfl

/-- A step is one of the feed, or it leaves the feed as it is. -/
theorem step_fed (inside : 0 < relay.store.mailboxes.length) (step : RelayStep) :
    ((relay.step step).1.feed, (relay.step step).2)
      = (relay.fed? step).elim (relay.feed, .nothing) relay.feed.step := by
  cases step with
  | own step =>
    rw [Relay.step, fed?]
    split
    · rw [feed_take inside]
      rfl
    · rfl
  | ask =>
    rw [Relay.step, fed?]
    split
    · rw [feed_ask]
      rfl
    · rfl
  | settle =>
    rw [Relay.step, fed?]
    cases relay.answer with
    | none => rfl
    | some answer =>
      dsimp only
      rw [feed_take inside]
      rfl
  | other step =>
    rw [Relay.step, fed?, feed]
    dsimp only
    rw [(relay.store.move_step step).mailboxes.1]
    cases relay.store.posted? step with
    | none => rfl
    | some event => rfl

/-- What holds of a relay whose store was set up with a bridge and has ended the registrations with some
tokens. -/
structure Coherent (relay : Relay) (origin : Bridge) (ended : List Token) : Prop where
  account : relay.store.Accounted origin ended
  serves : relay.store.Serves relay.answer relay.subscription.target
  receptive : relay.store.Receptive
  sound : relay.subscription.Sound
  asked : relay.answer ≠ none → relay.subscription.stage ≠ .idle
  owed : ∀ token ∈ relay.feed.owed, relay.answer = some (.ok token)

variable {origin : Bridge} {ended : List Token}

theorem coherent_new (bridge : Bridge) (capacity : Nat) (others : Mailboxes) (target : ListenTarget) :
    (new bridge capacity others target).Coherent bridge [] where
  account := (RemoteStore.accounted_new bridge capacity).kept (.refl _) (.of_listeners_eq rfl)
    fun _ _ => rfl
  serves :=
    { inside := Nat.zero_lt_succ _
      unlimited := rfl
      registered := nofun
      own := List.forall_mem_nil _ }
  receptive := ⟨Nat.lt_of_succ_le (Nat.le_max_right capacity 1), List.forall_mem_nil _⟩
  sound := Feed.sound_new target
  asked asked := absurd rfl asked
  owed := List.forall_mem_nil _

theorem requesting_of_canAsk (canAsk : relay.canAsk = true) :
    relay.subscription.stage = .requesting ∧ relay.answer = none := by
  unfold Relay.canAsk at canAsk
  split at canAsk
  · rename_i requesting unasked
    exact ⟨requesting, unasked⟩
  · cases canAsk

namespace Coherent

private theorem take (coherent : relay.Coherent origin ended) {step : FeedStep}
    (answered : ∀ answer, step = .settle answer → relay.answer = some answer) :
    (relay.take step).1.Coherent origin
      (ended ++ ((relay.take step).2.released.bind relay.store.ends?).toList) := by
  have move := relay.feed.move_step step
  obtain ⟨capacity, -⟩ := move.mailbox
  exact {
    account := coherent.account.settle _ _ _
    serves := by
      have target : (relay.take step).1.subscription.target = relay.subscription.target := move.target
      rw [target]
      exact coherent.serves.settle (capacity.trans coherent.serves.unlimited) _
    receptive := coherent.receptive.settle _ _ _
    sound := coherent.sound.move move
    asked := fun asked => move.begun (coherent.asked asked)
    owed := fun token mem => by
      -- What is owed was owed before or has just been granted.
      have before := (move.released_owed coherent.sound).mem_iff.mp (List.mem_append_right _ mem)
      rcases List.mem_append.mp before with mem | granted
      · exact coherent.owed token mem
      · exact answered _ (Feed.eq_settle_of_grant (Option.mem_toList.mp granted)) }

theorem ask (coherent : relay.Coherent origin ended) (canAsk : relay.canAsk = true) :
    relay.ask.Coherent origin ended := by
  obtain ⟨requesting, unasked⟩ := requesting_of_canAsk canAsk
  have listened := RemoteStore.listened_listen relay.subscription.target 0 relay.store
  exact {
    account := coherent.account.listened listened
    serves := coherent.serves.listened unasked listened
    receptive := coherent.receptive.listened listened
    sound := coherent.sound
    asked := fun _ idle => nomatch requesting.symm.trans idle
    owed := fun token mem => by
      have answered := coherent.owed token mem
      rw [unasked] at answered
      cases answered }

/-- Each step keeps it. -/
theorem step (coherent : relay.Coherent origin ended) (step : RelayStep) :
    (relay.step step).1.Coherent origin (ended ++ (relay.ended? step).toList) := by
  have nothing {relay : Relay} (coherent : relay.Coherent origin ended) :
      relay.Coherent origin (ended ++ (none : Option Token).toList) := by
    rwa [Option.toList_none, List.append_nil]
  cases step with
  | own step =>
    rw [ended?, givenBack?, Relay.step]
    split
    · rename_i own
      refine coherent.take fun answer same => ?_
      rw [same] at own
      cases own
    · exact nothing coherent
  | ask =>
    rw [ended?, givenBack?, Relay.step]
    split
    · rename_i canAsk
      exact nothing (coherent.ask canAsk)
    · exact nothing coherent
  | settle =>
    rw [ended?, givenBack?, Relay.step]
    cases answered : relay.answer with
    | none => exact nothing coherent
    | some answer =>
      refine coherent.take fun other same => ?_
      rw [answered, FeedStep.settle.inj same]
  | other step =>
    have move := relay.store.move_step step
    exact {
      account := coherent.account.move move
      serves := coherent.serves.move coherent.account.numbered move
      receptive := coherent.receptive.move move
      sound := coherent.sound
      asked := coherent.asked
      owed := coherent.owed }

variable {token : Token} {listener : RemoteListener}

theorem exists_listener (coherent : relay.Coherent origin ended)
    (answered : relay.answer = some (.ok token)) :
    ∃ listener, relay.store.listener? token = some listener ∧ listener.mailbox = 0 ∧
      listener.target = relay.subscription.target := by
  obtain ⟨listener, mem, has, mailbox, target⟩ := coherent.serves.registered token answered
  exact ⟨listener, coherent.account.numbered.listener?_eq_some.mpr ⟨mem, has⟩, mailbox, target⟩

/-- The registrations for the first mailbox are the own one. -/
theorem registration?_eq_some (coherent : relay.Coherent origin ended) :
    relay.registration? = some listener ↔ listener ∈ relay.store.listeners ∧ listener.mailbox = 0 := by
  have numbered := coherent.account.numbered
  constructor
  · intro found
    unfold registration? at found
    split at found
    · rename_i token answered
      obtain ⟨own, found', mailbox, -⟩ := coherent.exists_listener answered
      obtain rfl : listener = own := Option.some.inj (found.symm.trans found')
      exact ⟨(numbered.listener?_eq_some.mp found).1, mailbox⟩
    · cases found
  · rintro ⟨mem, mailbox⟩
    rw [registration?, coherent.serves.own listener mem mailbox]
    exact numbered.listener?_eq_some.mpr ⟨mem, rfl⟩

/-- The registration that the subscription asked for is a new one. -/
theorem registration?_ask (coherent : relay.Coherent origin ended) (canAsk : relay.canAsk = true) :
    relay.registration? = none ∧ (relay.ask.registration? = none ∨
      relay.ask.registration? = some (.fresh relay.subscription.target 0 relay.store)) := by
  have numbered := (coherent.ask canAsk).account.numbered
  have listened := RemoteStore.listened_listen relay.subscription.target 0 relay.store
  refine ⟨by rw [registration?, (requesting_of_canAsk canAsk).2], ?_⟩
  unfold Relay.ask at numbered ⊢
  generalize relay.store.listen relay.subscription.target 0 = given at listened numbered ⊢
  obtain ⟨answer, after⟩ := given
  cases listened with
  | refused e => exact .inl rfl
  | granted =>
    have mem := List.mem_append_right relay.store.listeners
      (List.mem_singleton_self (RemoteListener.fresh relay.subscription.target 0 relay.store))
    exact .inr (numbered.listener?_eq_some.mpr ⟨mem, rfl⟩)

/-- The own registration is still the own one. -/
theorem registration?_continued (coherent : relay.Coherent origin ended) {after : RemoteStore}
    {f : RemoteListener → RemoteListener} {more : List RemoteListener}
    (continued : relay.store.Continued f more after) (numbered : after.Numbered)
    (subscription : Subscription) :
    registration? { relay with store := after, subscription } = relay.registration?.map f := by
  unfold registration?
  dsimp only
  split
  · rename_i token answered
    obtain ⟨listener, found, -⟩ := coherent.exists_listener answered
    rw [found, continued.listener?_eq_some coherent.account.numbered numbered found]
    rfl
  · rfl

/-- A step of the feed adds no registration and moves none of their events on. -/
theorem registration?_take (coherent : relay.Coherent origin ended) (step : FeedStep) :
    ∃ f, (∀ listener, RemoteListener.Alike listener (f listener)) ∧
      (relay.take step).1.registration? = relay.registration?.map f ∧
      (relay.take step).1.store.listeners.map RemoteListener.token
        = relay.store.listeners.map RemoteListener.token := by
  have account := coherent.account.settle 0 (relay.feed.step step).1.mailbox
    (relay.feed.step step).2.released
  obtain ⟨f, continued, alike⟩ := continued_settle 0 (relay.feed.step step).1.mailbox
    (relay.feed.step step).2.released relay.store
  have here := coherent.registration?_continued continued account.numbered
    (relay.feed.step step).1.subscription
  have tokens := continued.tokens
  rw [List.map_nil, List.append_nil] at tokens
  exact ⟨f, alike, here, tokens⟩

end Coherent

theorem run_append (relay : Relay) (steps later : List RelayStep) :
    relay.run (steps ++ later) = (relay.run steps).run later :=
  List.foldl_append

theorem trace_append {α : Type} (seen? : Relay → RelayStep → Option α) (relay : Relay)
    (steps later : List RelayStep) :
    relay.trace seen? (steps ++ later)
      = relay.trace seen? steps ++ (relay.run steps).trace seen? later := by
  induction steps generalizing relay with
  | nil => rfl
  | cons step steps ih =>
    rw [List.cons_append, trace, trace, ih, List.append_assoc]
    rfl

/-- A step of the feed is one that the subscription takes by itself, or the answer that the store gave,
or an event that is pushed. -/
theorem fed?_eq_some {step : RelayStep} {feedStep : FeedStep}
    (fed : relay.fed? step = some feedStep) :
    (step = .own feedStep ∧ feedStep.isOwn = true) ∨
      (∃ answer, feedStep = .settle answer ∧ relay.answer = some answer) ∨
      ∃ event, feedStep = .push event := by
  cases step with
  | own step =>
    rw [fed?] at fed
    split at fed
    · rename_i own
      obtain rfl := Option.some.inj fed
      exact .inl ⟨rfl, own⟩
    · cases fed
  | ask => cases fed
  | settle =>
    obtain ⟨answer, answered, same⟩ := Option.map_eq_some_iff.mp fed
    exact .inr (.inl ⟨answer, same.symm, answered⟩)
  | other step =>
    obtain ⟨event, -, same⟩ := Option.map_eq_some_iff.mp fed
    exact .inr (.inr ⟨event, same.symm⟩)

theorem answer_of_fed {step : RelayStep} {answer : Except Error Token}
    (fed : relay.fed? step = some (.settle answer)) : relay.answer = some answer := by
  obtain ⟨-, own⟩ | ⟨given, same, answered⟩ | ⟨event, same⟩ := fed?_eq_some fed
  · cases own
  · rw [answered, FeedStep.settle.inj same]
  · cases same

/-- An answer is not given again. -/
theorem answer_step {answer : Except Error Token} (answered : relay.answer = some answer)
    (step : RelayStep) : (relay.step step).1.answer = some answer := by
  cases step with
  | own step =>
    rw [Relay.step]
    split <;> exact answered
  | ask =>
    rw [Relay.step]
    split
    · rename_i canAsk
      rw [(requesting_of_canAsk canAsk).2] at answered
      cases answered
    · exact answered
  | settle =>
    rw [Relay.step, answered]
    exact answered
  | other step => exact answered

theorem answer_run {answer : Except Error Token} (answered : relay.answer = some answer)
    (steps : List RelayStep) : (relay.run steps).answer = some answer := by
  induction steps generalizing relay with
  | nil => exact answered
  | cons step steps ih => exact ih (answer_step answered step)

theorem answer_of_mem_fed {answer : Except Error Token} (mem : .settle answer ∈ relay.fed steps) :
    (relay.run steps).answer = some answer := by
  induction steps generalizing relay with
  | nil => cases mem
  | cons step steps ih =>
    rcases List.mem_append.mp mem with now | later
    · exact answer_run (answer_step (answer_of_fed (Option.mem_toList.mp now)) step) steps
    · exact ih later

theorem mem_of_mem_fed (mem : .beginDispose ∈ relay.fed steps) : .own .beginDispose ∈ steps := by
  induction steps generalizing relay with
  | nil => cases mem
  | cons step steps ih =>
    rcases List.mem_append.mp mem with now | later
    · obtain ⟨rfl, -⟩ | ⟨given, same, -⟩ | ⟨event, same⟩ := fed?_eq_some (Option.mem_toList.mp now)
      · exact List.mem_cons_self
      · cases same
      · cases same
    · exact List.mem_cons_of_mem _ (ih later)

/-- A registration that was granted was not refused. -/
theorem refused_eq_nil (answered : (relay.run steps).answer = some (.ok token)) :
    relay.feed.refused (relay.fed steps) = [] := by
  refine List.eq_nil_iff_forall_not_mem.mpr fun e mem => ?_
  have refused := answer_of_mem_fed (Feed.settle_mem_of_refused mem)
  rw [answered] at refused
  cases refused

namespace Coherent

theorem run (coherent : relay.Coherent origin ended) (steps : List RelayStep) :
    (relay.run steps).Coherent origin (ended ++ relay.ended steps) := by
  induction steps generalizing relay ended with
  | nil =>
    rw [Relay.ended, trace, List.append_nil]
    exact coherent
  | cons step steps ih =>
    rw [Relay.ended, trace, ← List.append_assoc]
    exact ih (coherent.step step)

/-- A run of the relay is a run of its feed, with the same effects. -/
theorem fed_run (coherent : relay.Coherent origin ended) (steps : List RelayStep) :
    (relay.run steps).feed = relay.feed.run (relay.fed steps) ∧
      relay.heard steps = relay.feed.heard (relay.fed steps) ∧
      relay.released steps = relay.feed.released (relay.fed steps) := by
  induction steps generalizing relay ended with
  | nil => exact ⟨rfl, rfl, rfl⟩
  | cons step steps ih =>
    obtain ⟨run, heard, released⟩ := ih (coherent.step step)
    obtain ⟨run', heard', released'⟩ :=
      relay.feed.run_toList_append (relay.fed? step) ((relay.step step).1.fed steps)
    rw [← step_fed coherent.serves.inside step] at run' heard' released'
    refine ⟨run.trans run'.symm, ?_, ?_⟩
    · refine Eq.trans ?_ heard'.symm
      rw [← heard]
      rfl
    · refine Eq.trans ?_ released'.symm
      rw [← released]
      rfl

private theorem tokens_step (coherent : relay.Coherent origin ended) (step : RelayStep) :
    (relay.step step).1.store.listeners.map RemoteListener.token
      = relay.store.listeners.map RemoteListener.token ++ (relay.issued? step).toList := by
  have take (step : FeedStep) : (relay.take step).1.store.listeners.map RemoteListener.token
      = relay.store.listeners.map RemoteListener.token ++ (none : Option Token).toList := by
    obtain ⟨-, -, -, tokens⟩ := coherent.registration?_take step
    rw [tokens, Option.toList_none, List.append_nil]
  cases step with
  | own step =>
    rw [Relay.step, issued?]
    split
    · exact take step
    · exact (List.append_nil _).symm
  | ask =>
    rw [Relay.step, issued?]
    split
    · obtain ⟨more, continued, tokens, -⟩ :=
        (listened_listen relay.subscription.target 0 relay.store).continued
      rw [← tokens]
      exact continued.tokens
    · exact (List.append_nil _).symm
  | settle =>
    rw [Relay.step, issued?]
    split
    · exact take _
    · exact (List.append_nil _).symm
  | other step =>
    obtain ⟨f, more, continued, tokens, -⟩ :=
      (relay.store.move_step step).continued coherent.account.numbered
    rw [issued?, ← tokens]
    exact continued.tokens

/-- The registrations are those that were there before and those that were added. -/
theorem tokens_run (coherent : relay.Coherent origin ended) (steps : List RelayStep) :
    (relay.run steps).store.listeners.map RemoteListener.token
      = relay.store.listeners.map RemoteListener.token ++ relay.issued steps := by
  induction steps generalizing relay ended with
  | nil => exact (List.append_nil _).symm
  | cons step steps ih =>
    have later := ih (coherent.step step)
    rw [coherent.tokens_step step, List.append_assoc] at later
    exact later

private theorem answer_of_released (coherent : relay.Coherent origin ended) {step : RelayStep}
    (released : (relay.step step).2.released = some token) : relay.answer = some (.ok token) := by
  have now := congrArg Prod.snd (step_fed coherent.serves.inside step)
  dsimp only at now
  rw [now] at released
  cases fed : relay.fed? step with
  | none =>
    rw [fed] at released
    cases released
  | some feedStep =>
    rw [fed] at released
    have given : token ∈ (relay.feed.step feedStep).2.released.toList :=
      Option.mem_toList.mpr released
    have move := relay.feed.move_step feedStep
    have before := (move.released_owed coherent.sound).mem_iff.mp (List.mem_append_left _ given)
    rcases List.mem_append.mp before with owed | granted
    · exact coherent.owed token owed
    · rw [Feed.eq_settle_of_grant (Option.mem_toList.mp granted)] at fed
      exact answer_of_fed fed

theorem mem_ended (coherent : relay.Coherent origin ended) {step : RelayStep}
    (released : (relay.step step).2.released = some token) :
    token ∈ ended ++ (relay.ended? step).toList := by
  have givenBack : relay.givenBack? step = some token := by
    cases step with
    | other step => cases released
    | _ => exact released
  obtain ⟨listener, found, -⟩ := coherent.exists_listener (coherent.answer_of_released released)
  obtain ⟨mem, rfl⟩ := coherent.account.numbered.listener?_eq_some.mp found
  rw [ended?, givenBack]
  exact coherent.account.mem_of_givenBack mem

theorem released_subset (coherent : relay.Coherent origin ended) (steps : List RelayStep) :
    relay.released steps ⊆ ended ++ relay.ended steps := by
  induction steps generalizing relay ended with
  | nil => exact List.nil_subset _
  | cons step steps ih =>
    have later := ih (coherent.step step)
    rw [List.append_assoc] at later
    refine List.append_subset.mpr ⟨fun token mem => ?_, later⟩
    have now := coherent.mem_ended (Option.mem_toList.mp mem)
    rcases List.mem_append.mp now with before | here
    · exact List.mem_append_left _ before
    · exact List.mem_append_right _ (List.mem_append_left _ here)

end Coherent

end Relay

end DocumentStore
