import DocumentStore.Proofs.Remote.Rest

/-! # A stream of events from the bridge to the observer

An event passes through the channel of a registration, is decoded, and passes through the mailbox of the
subscription. The observer is called with what the channel took, in this order, and the first event that
cannot be decoded, or that is an error, is the last one. Then the registration has ended, and no later
step tells the bridge so again. -/

namespace DocumentStore

open Mailboxes ListenEvent RemoteStore

namespace Wire

variable {target : ListenTarget} {event : Json}

private theorem isTerminal_of_decodeTarget {decoded : ListenEvent}
    (read : decodeTarget target event = .ok decoded) : decoded.isTerminal = false := by
  unfold decodeTarget at read
  split at read
  · split at read
    · obtain ⟨snapshot, -, rfl⟩ := map_eq_ok.mp read
      rfl
    · cases read
  · obtain ⟨found, -, rfl⟩ := map_eq_ok.mp read
    rfl

/-- An event is the last one if it carries a member for an error, whatever this is, or if what it says
about the target cannot be read. -/
theorem isTerminal_decodeListenEvent (target : ListenTarget) (event : Json) :
    (decodeListenEvent target event).isTerminal = true ↔
      (event.member? "error").isSome = true ∨ ∃ fault, decodeTarget target event = .error fault := by
  unfold decodeListenEvent
  cases event.member? "error" with
  | some e => simp [ListenEvent.isTerminal]
  | none =>
    cases read : decodeTarget target event with
    | error fault => simp [ListenEvent.isTerminal]
    | ok decoded => simp [isTerminal_of_decodeTarget read]

end Wire

namespace Relay

variable {relay : Relay} {steps : List RelayStep} {origin : Bridge} {ended : List Token}
  {accepted : List Json} {posted : List ListenEvent} {token : Token} {listener : RemoteListener}

/-- What has become of the events that the channel of the own registration took. There are none before
the store has granted the registration. -/
inductive Relayed (relay : Relay) (accepted : List Json) (posted : List ListenEvent) : Prop
  | unregistered (nobody : relay.registration? = none) (nothing : accepted = [])
      (unposted : posted = [])
  | registered {listener : RemoteListener} (found : relay.registration? = some listener)
      (forwarded : listener.Forwarded (box 0 relay.store.mailboxes).isOpen accepted posted)

namespace Relayed

theorem still (relayed : relay.Relayed accepted posted) {received : Option Json}
    {pushed : Option ListenEvent} (unreceived : received = none) (unpushed : pushed = none) :
    relay.Relayed (accepted ++ received.toList) (posted ++ pushed.toList) := by
  rw [unreceived, unpushed, Option.toList_none, List.append_nil, Option.toList_none,
    List.append_nil]
  exact relayed

/-- Nothing becomes of them when no event is moved on. -/
theorem quiet (relayed : relay.Relayed accepted posted) {after : Relay}
    {f : RemoteListener → RemoteListener} (here : after.registration? = relay.registration?.map f)
    (alike : ∀ listener, RemoteListener.Alike listener (f listener))
    (closed : (box 0 relay.store.mailboxes).isOpen = false →
      (box 0 after.store.mailboxes).isOpen = false) :
    after.Relayed accepted posted := by
  cases relayed with
  | unregistered nobody nothing unposted =>
    rw [nobody] at here
    exact .unregistered here nothing unposted
  | @registered listener found forwarded =>
    rw [found] at here
    exact .registered here ((forwarded.alike (alike listener)).mono closed)

private theorem take (relayed : relay.Relayed accepted posted) (coherent : relay.Coherent origin ended)
    (step : FeedStep) : (relay.take step).1.Relayed accepted posted := by
  obtain ⟨f, alike, here, -⟩ := coherent.registration?_take step
  have mailbox : box 0 (relay.take step).1.store.mailboxes = (relay.feed.step step).1.mailbox :=
    congrArg Feed.mailbox (feed_take coherent.serves.inside step)
  refine relayed.quiet here alike ?_
  rw [mailbox]
  exact (relay.feed.move_step step).mailbox.2

theorem emit (relayed : relay.Relayed accepted posted) (coherent : relay.Coherent origin ended)
    (event : Json) (handle : Option String) :
    Relayed { relay with store := relay.store.changeAll (.offered event handle) }
      (accepted ++ (relay.received? (.other (.emit event handle))).toList) posted := by
  have account := coherent.account.move (.emit event handle)
  have continued := Continued.changeAll fun l (_ : l ∈ relay.store.listeners) =>
    (RemoteListener.same_offered event handle l).1
  have here := coherent.registration?_continued continued account.numbered relay.subscription
  cases relayed with
  | unregistered nobody nothing unposted =>
    rw [nobody] at here
    rw [received?, nobody]
    exact .unregistered here (by rw [nothing]; rfl) unposted
  | registered found forwarded =>
    rw [found] at here
    rw [received?, found]
    exact .registered here (forwarded.offered event handle)

theorem forward (relayed : relay.Relayed accepted posted) (coherent : relay.Coherent origin ended)
    (found : relay.store.listener? token = some listener)
    (enabled : canForward relay.store.mailboxes listener = true) :
    Relayed { relay with store := relay.store.forward token } accepted
      (posted ++ (inbound? listener).toList) := by
  have numbered := coherent.account.numbered
  obtain ⟨mem, rfl⟩ := numbered.listener?_eq_some.mp found
  have numbered' := (coherent.account.move (.forward found enabled)).numbered
  have here := coherent.registration?_continued (continued_forward numbered found).1 numbered'
    relay.subscription
  by_cases own : listener.mailbox = 0
  · have isOwn := coherent.registration?_eq_some.mpr ⟨mem, own⟩
    rw [isOwn, Option.map_some, atToken, if_pos (beq_self_eq_true _)] at here
    rw [inbound?, if_pos own.symm]
    cases relayed with
    | unregistered nobody => simp [isOwn] at nobody
    | @registered listener' found' forwarded =>
      obtain rfl : listener = listener' := Option.some.inj (isOwn.symm.trans found')
      have unlimited := coherent.serves.unlimited
      rw [← own] at forwarded unlimited
      have moved := forwarded_forwardOne forwarded unlimited enabled
      refine .registered here ?_
      rw [own] at moved
      rw [forward_eq found]
      exact moved
  · have aside : inbound? listener = none := if_neg (Ne.symm own)
    have boxes := box_forward found
    rw [aside] at boxes
    rw [aside, Option.toList_none, List.append_nil]
    cases relayed with
    | unregistered nobody nothing unposted =>
      rw [nobody] at here
      exact .unregistered here nothing unposted
    | @registered listener' found' forwarded =>
      obtain ⟨mem', own'⟩ := coherent.registration?_eq_some.mp found'
      have other : (listener'.token == listener.token) = false := by
        refine beq_eq_false_iff_ne.mpr fun same => own ?_
        rw [← List.inj_on_of_nodup_map numbered.nodup mem' mem same, own']
      rw [found', Option.map_some, atToken, other, if_neg Bool.false_ne_true] at here
      refine .registered here ?_
      rw [boxes]
      exact forwarded

theorem aside (relayed : relay.Relayed accepted posted) (coherent : relay.Coherent origin ended)
    {after : RemoteStore} (numbered : after.Numbered) {more : List RemoteListener}
    (continued : relay.store.Continued id more after)
    (boxes : box 0 after.mailboxes = box 0 relay.store.mailboxes) :
    Relayed { relay with store := after } accepted posted := by
  have here := coherent.registration?_continued continued numbered relay.subscription
  refine relayed.quiet here .refl fun closed => ?_
  rw [← closed]
  exact congrArg Channel.isOpen boxes

theorem move (relayed : relay.Relayed accepted posted) (coherent : relay.Coherent origin ended)
    {step : RemoteStep} {after : RemoteStore} (move : relay.store.Move step after) :
    Relayed { relay with store := after } (accepted ++ (relay.received? (.other step)).toList)
      (posted ++ (relay.store.posted? step).toList) := by
  have numbered := (coherent.account.move move).numbered
  cases move with
  | emit event handle =>
    have unposted : relay.store.posted? (.emit event handle) = none := rfl
    rw [unposted, Option.toList_none, List.append_nil]
    exact relayed.emit coherent event handle
  | @forward token listener found enabled =>
    have unreceived : relay.received? (.other (.forward token)) = none := rfl
    rw [unreceived, posted?, movable?_eq_some.mpr ⟨found, enabled⟩, Option.toList_none,
      List.append_nil, Option.bind_some]
    exact relayed.forward coherent found enabled
  | listen target place =>
    obtain ⟨more, continued, -, -, boxes⟩ := (listened_listen target (place + 1) relay.store).continued
    exact (relayed.aside coherent numbered continued (congrArg (box 0) boxes)).still rfl rfl
  | unlisten token =>
    obtain ⟨f, continued, alike, boxes⟩ := (unlistened_unlisten token relay.store).continued
    have here := coherent.registration?_continued continued numbered relay.subscription
    exact (relayed.quiet here alike (by rw [boxes]; exact id)).still rfl rfl
  | replace => exact (relayed.aside coherent numbered (.of_listeners_eq rfl) rfl).still rfl rfl
  | invoke => exact (relayed.aside coherent numbered (.of_listeners_eq rfl) rfl).still rfl rfl
  | respond => exact (relayed.aside coherent numbered (.of_listeners_eq rfl) rfl).still rfl rfl
  | stuck nothing => exact relayed.still rfl (by rw [posted?, nothing, Option.bind_none])
  | ignored => exact relayed.still rfl rfl

theorem ask (relayed : relay.Relayed accepted posted) (coherent : relay.Coherent origin ended)
    (canAsk : relay.canAsk = true) : relay.ask.Relayed accepted posted := by
  obtain ⟨nobody, here⟩ := coherent.registration?_ask canAsk
  cases relayed with
  | registered found => simp [nobody] at found
  | unregistered _ nothing unposted =>
    subst nothing unposted
    obtain refused | granted := here
    · exact .unregistered refused rfl rfl
    · exact .registered granted (.fresh _ 0 relay.store _)

/-- What has become of the events after a step. -/
theorem step (relayed : relay.Relayed accepted posted) (coherent : relay.Coherent origin ended)
    (step : RelayStep) :
    (relay.step step).1.Relayed (accepted ++ (relay.received? step).toList)
      (posted ++ ((relay.fed? step).bind FeedStep.pushed?).toList) := by
  cases step with
  | own step =>
    refine still ?_ rfl (by cases step <;> rfl)
    rw [Relay.step]
    split
    · exact relayed.take coherent step
    · exact relayed
  | ask =>
    refine still ?_ rfl rfl
    rw [Relay.step]
    split
    · rename_i canAsk
      exact relayed.ask coherent canAsk
    · exact relayed
  | settle =>
    refine still ?_ rfl (by rw [fed?]; cases relay.answer <;> rfl)
    rw [Relay.step]
    split
    · rename_i answer answered
      exact relayed.take coherent (.settle answer)
    · exact relayed
  | other step =>
    have pushed : (relay.fed? (.other step)).bind FeedStep.pushed? = relay.store.posted? step := by
      rw [fed?]
      cases relay.store.posted? step <;> rfl
    rw [pushed]
    exact relayed.move coherent (relay.store.move_step step)

private theorem run (relayed : relay.Relayed accepted posted) (coherent : relay.Coherent origin ended)
    (steps : List RelayStep) :
    (relay.run steps).Relayed (accepted ++ relay.received steps)
      (posted ++ Feed.pushed (relay.fed steps)) := by
  induction steps generalizing relay ended accepted posted with
  | nil =>
    rw [received, trace, fed, trace, Feed.pushed, List.filterMap_nil, List.append_nil,
      List.append_nil]
    exact relayed
  | cons step steps ih =>
    have later := ih (relayed.step coherent step) (coherent.step step)
    rw [List.append_assoc, List.append_assoc] at later
    have pushed : Feed.pushed (relay.fed (step :: steps))
        = ((relay.fed? step).bind FeedStep.pushed?).toList
          ++ Feed.pushed ((relay.step step).1.fed steps) := by
      rw [fed, trace, Feed.pushed, List.filterMap_append]
      cases relay.fed? step with
      | none => rfl
      | some feedStep => cases feedStep <;> rfl
    rw [pushed]
    exact later

end Relayed

/-- A relay before its subscription is started. -/
structure Fresh (relay : Relay) (origin : Bridge) : Prop where
  coherent : relay.Coherent origin []
  relayed : relay.Relayed [] []
  waiting : relay.feed.Waiting
  empty : relay.feed.mailbox.items = []

theorem fresh_new (bridge : Bridge) (capacity : Nat) (others : Mailboxes) (target : ListenTarget) :
    (new bridge capacity others target).Fresh bridge where
  coherent := coherent_new bridge capacity others target
  relayed := .unregistered rfl rfl rfl
  waiting := Feed.waiting_new target
  empty := rfl

namespace Fresh

/-- The registration with what became of its events after some steps. -/
theorem registered (fresh : relay.Fresh origin)
    (answered : (relay.run steps).answer = some (.ok token)) :
    ∃ listener, (relay.run steps).registration? = some listener ∧ listener.mailbox = 0 ∧
      listener.target = relay.subscription.target ∧
      listener.Forwarded (box 0 (relay.run steps).store.mailboxes).isOpen (relay.received steps)
        (Feed.pushed (relay.fed steps)) := by
  have coherent := fresh.coherent.run steps
  obtain ⟨listener, found, mailbox, target⟩ := coherent.exists_listener answered
  have here : (relay.run steps).registration? = some listener := by
    rw [registration?, answered]
    exact found
  have same : (relay.run steps).subscription.target = relay.subscription.target := by
    have feed := (fresh.coherent.fed_run steps).1
    have kept := Feed.target_run relay.feed (relay.fed steps)
    rw [← feed] at kept
    exact kept
  refine ⟨listener, here, mailbox, target.trans same, ?_⟩
  cases fresh.relayed.run fresh.coherent steps with
  | unregistered nobody => simp [here] at nobody
  | @registered listener' found' forwarded =>
    obtain rfl : listener = listener' := Option.some.inj (here.symm.trans found')
    exact forwarded

/-- The observer is called with the first of the events that the channel took. -/
theorem heard_prefix (fresh : relay.Fresh origin)
    (answered : (relay.run steps).answer = some (.ok token)) :
    relay.heard steps <+: upToError
      ((relay.received steps).map (Wire.decodeListenEvent relay.subscription.target)) := by
  obtain ⟨listener, -, -, target, forwarded⟩ := fresh.registered answered
  have heard := (fresh.waiting.heard_prefix (relay.fed steps)).1 (refused_eq_nil answered)
  rw [fresh.empty, List.nil_append, ← (fresh.coherent.fed_run steps).2.1] at heard
  have first := forwarded.first
  rw [target] at first
  exact heard.trans (upToError_mono first)

/-- Without a disposal the mailbox is closed after an error only. -/
theorem failed_of_closed (fresh : relay.Fresh origin)
    (answered : (relay.run steps).answer = some (.ok token)) (kept : .own .beginDispose ∉ steps)
    (closed : (box 0 (relay.run steps).store.mailboxes).isOpen = false) :
    ∃ event ∈ Feed.pushed (relay.fed steps), event.isTerminal = true := by
  have undisposed : .beginDispose ∉ relay.fed steps := fun mem => kept (mem_of_mem_fed mem)
  have failed := fresh.waiting.isOpen_or_failed undisposed (refused_eq_nil answered)
  rw [fresh.empty, List.nil_append] at failed
  refine failed.resolve_left ?_
  rw [← (fresh.coherent.fed_run steps).1]
  exact Bool.eq_false_iff.mp closed

theorem heard_eq (fresh : relay.Fresh origin)
    (answered : (relay.run steps).answer = some (.ok token)) (kept : .own .beginDispose ∉ steps)
    (atRest : (relay.run steps).AtRest) :
    relay.heard steps = upToError
      ((relay.received steps).map (Wire.decodeListenEvent relay.subscription.target)) := by
  have coherent := fresh.coherent.run steps
  obtain ⟨feed, heard, -⟩ := fresh.coherent.fed_run steps
  obtain ⟨listener, found, mailbox, target, forwarded⟩ := fresh.registered answered
  have undisposed : .beginDispose ∉ relay.fed steps := fun mem => kept (mem_of_mem_fed mem)
  have unrefused := refused_eq_nil answered
  have resting := atRest.feed
  have granted : relay.feed.granted (relay.fed steps) ≠ [] := by
    intro ungranted
    have waiting := fresh.waiting.waiting_run undisposed ungranted unrefused
    rw [← feed] at waiting
    obtain ⟨-, idle⟩ | ⟨-, requesting⟩ := waiting.course
    · exact coherent.asked (by simp [answered]) idle
    · exact resting.not_requesting requesting
  rw [feed] at resting
  have all := (fresh.waiting.heard_eq undisposed resting).1 granted
  rw [fresh.empty, List.nil_append] at all
  have failed := fresh.failed_of_closed answered kept
  have unlimited := coherent.serves.unlimited
  rw [← mailbox] at forwarded failed unlimited
  rw [heard, all, ← target]
  exact upToError_eq_of_forwarded forwarded unlimited (atRest.forwarded listener found) failed

/-- Without a disposal the channel takes what the bridge pushes, unless it has no room or the
registration has ended or an error has come in. -/
theorem received?_eq_some (fresh : relay.Fresh origin)
    (answered : (relay.run steps).answer = some (.ok token)) (kept : .own .beginDispose ∉ steps)
    (registered : token ∉ relay.ended steps)
    (snapshots : ∀ event ∈ (relay.received steps).map
      (Wire.decodeListenEvent relay.subscription.target), event.isTerminal = false)
    (room : (relay.run steps).AtRest ∨ (relay.run steps).isFull = false) (event : Json) :
    (relay.run steps).received? (.other (.emit event (some (origin.names token)))) = some event := by
  have coherent := fresh.coherent.run steps
  obtain ⟨listener, found, mailbox, target, forwarded⟩ := fresh.registered answered
  obtain ⟨mem, own⟩ := coherent.registration?_eq_some.mp found
  obtain rfl : token = listener.token :=
    Except.ok.inj (Option.some.inj (answered.symm.trans (coherent.serves.own listener mem own)))
  have receptive := coherent.receptive.each listener mem
  rw [← target] at snapshots
  have forwarding :=
    forwarded.forwarding_eq_true (fresh.failed_of_closed answered kept) snapshots
  have free : listener.raw.isFull = false := by
    rcases room with atRest | room
    · have unlimited := coherent.serves.unlimited
      rw [← mailbox] at unlimited
      have nothing := underway_eq_nil forwarding unlimited (atRest.forwarded listener found)
      exact receptive.isFull_eq_false (List.map_eq_nil_iff.mp (List.append_eq_nil_iff.mp nothing).2)
    · rw [isFull, found] at room
      exact room
  have goesOn := (coherent.account.registered listener mem).mpr registered
  rw [received?, found, ← coherent.account.handles listener mem]
  exact receptive.taken?_eq_some goesOn forwarding free event

theorem ended_of_heard (fresh : relay.Fresh origin)
    (answered : (relay.run steps).answer = some (.ok token)) {event : ListenEvent}
    (mem : event ∈ relay.heard steps) (terminal : event.isTerminal = true) :
    token ∈ relay.ended steps := by
  obtain ⟨-, heard, released⟩ := fresh.coherent.fed_run steps
  rw [heard] at mem
  obtain ⟨nothing, granted⟩ := fresh.waiting.owed_of_heard (refused_eq_nil answered) mem terminal
  obtain ⟨given, isGranted⟩ := List.exists_mem_of_ne_nil _ granted
  have same := answer_of_mem_fed (Feed.settle_mem_of_granted isGranted)
  obtain rfl : token = given := Except.ok.inj (Option.some.inj (answered.symm.trans same))
  have sound : relay.feed.subscription.Sound := fresh.coherent.sound
  have accounts := Feed.released_owed_run sound (relay.fed steps)
  have returned := accounts.mem_iff.mpr (List.mem_append_right _ isGranted)
  rw [nothing, List.append_nil, ← released] at returned
  exact fresh.coherent.released_subset steps returned

end Fresh

theorem received_background (relay : Relay)
    (background : ∀ step ∈ steps, step.isBackground = true) :
    relay.received steps = [] ∧ .own .beginDispose ∉ steps := by
  constructor
  · induction steps generalizing relay with
    | nil => rfl
    | cons step steps ih =>
      rw [List.forall_mem_cons] at background
      rw [received, trace, ← received, ih _ background.2, List.append_nil]
      cases step with
      | other step => cases step <;> first | rfl | cases background.1
      | _ => rfl
  · intro mem
    cases background _ mem

/-- For every order of steps, at a bridge that answers and pushes whatever it likes: when the store has
granted a registration, the observer is called with the events that the channel of this registration
took, read one by one in this order, and with none after the first error. Unless somebody disposes of the
subscription, all of them have been told once no work is left to do, and work comes to this point; until
an error comes in or the registration ends, the channel takes every event for which it has room, and it
has room at this point. An error that was told is the last event, and the registration has ended; it ends
once, whatever follows. The store grants no token twice, in up to `2 ^ 64` registrations, and it tells the
bridge of each end once, by the name of the registration that has ended. -/
theorem received_events_heard (bridge : Bridge) (capacity : Nat) (others : Mailboxes)
    (target : ListenTarget) (steps : List RelayStep) :
    let start := new bridge capacity others target
    let relay := start.run steps
    let received := (start.received steps).map (Wire.decodeListenEvent target)
    let heard := start.heard steps
    let ended := start.ended steps
    (∀ token, relay.answer = some (.ok token) →
      heard <+: upToError received ∧
      (.own .beginDispose ∉ steps →
        (relay.AtRest → heard = upToError received) ∧
        (∃ later : List RelayStep, (∀ step ∈ later, step.isBackground = true) ∧
          (start.run (steps ++ later)).AtRest ∧ start.heard (steps ++ later) = upToError received) ∧
        (token ∉ ended → (∀ event ∈ received, event.isTerminal = false) →
          relay.AtRest ∨ relay.isFull = false →
          ∀ event, relay.received? (.other (.emit event (some (bridge.names token)))) = some event)) ∧
      ∀ e, .error e ∈ heard →
        (∃ earlier, heard = earlier ++ [.error e] ∧ ∀ event ∈ earlier, event.isTerminal = false) ∧
        ended.count token = 1) ∧
    (∀ event, (Wire.decodeListenEvent target event).isTerminal = true ↔
      (event.member? "error").isSome = true ∨
        ∃ fault, Wire.decodeTarget target event = .error fault) ∧
    (start.issued steps).Nodup ∧
    relay.store.listeners.map (fun listener => (listener.token, listener.handle))
      = (start.issued steps).map (fun token => (token, bridge.names token)) ∧
    ended.Nodup ∧ ended ⊆ start.issued steps ∧
    relay.store.bridge.ended = bridge.ended ++ ended.map bridge.names := by
  intro start relay received heard ended
  have fresh : start.Fresh bridge := fresh_new bridge capacity others target
  have account := (fresh.coherent.run steps).account
  have tokens : relay.store.listeners.map RemoteListener.token = start.issued steps :=
    fresh.coherent.tokens_run steps
  have distinct : (start.issued steps).Nodup := tokens ▸ account.numbered.nodup
  rw [List.nil_append] at account
  refine ⟨fun token answered => ?_, Wire.isTerminal_decodeListenEvent target, distinct, ?_,
    account.distinct, fun token mem => ?_, account.told⟩
  · have first := fresh.heard_prefix answered
    refine ⟨first, fun kept => ⟨fresh.heard_eq answered kept, ?_, ?_⟩, fun e mem => ⟨?_, ?_⟩⟩
    · obtain ⟨later, background, resting⟩ := (fresh.coherent.run steps).exists_rest
      obtain ⟨nothing, undisposed⟩ := received_background relay background
      rw [← run_append] at resting
      have answered' : (start.run (steps ++ later)).answer = some (.ok token) := by
        rw [run_append]
        exact answer_run answered later
      have kept' : .own .beginDispose ∉ steps ++ later := by
        rw [List.mem_append, not_or]
        exact ⟨kept, undisposed⟩
      have same : start.received (steps ++ later) = start.received steps ++ relay.received later :=
        trace_append received? start steps later
      have all := fresh.heard_eq answered' kept' resting
      rw [same, nothing, List.append_nil] at all
      exact ⟨later, background, resting, all⟩
    · exact fun registered snapshots room =>
        fresh.received?_eq_some answered kept registered snapshots room
    · exact eq_concat_of_terminal first mem rfl
    · exact List.count_eq_one_of_mem account.distinct (fresh.ended_of_heard answered mem rfl)
  · rw [← tokens, List.map_map]
    refine List.map_congr_left fun listener mem => ?_
    rw [account.handles listener mem]
    rfl
  · obtain ⟨listener, inside, same⟩ := account.known token mem
    rw [← tokens, ← same]
    exact List.mem_map_of_mem inside

def everyStall : ListenTarget := .query ⟨⟨["stalls"]⟩, QueryPlan.empty⟩

def market : Relay := new .silent 2 [] everyStall

/-- The store grants the registration. -/
def opening : List RelayStep := [.own .start, .ask, .settle]

/-- The bridge pushes a result, then an error of no known shape, and one more result while the error is on
its way. -/
def brokenStream : List RelayStep :=
  opening ++ [.other (.emit (.object [("documents", .array [])]) none),
    .other (.forward 1), .other (.forward 1), .own .deliver,
    .other (.emit (.object [("error", .null)]) none), .other (.forward 1),
    .other (.emit (.object []) none), .other (.forward 1), .own .deliver]

/-- The subscription is disposed of, and somebody gives its token back once more. -/
def farewell : List RelayStep := [.own .beginDispose, .own (.endDispose 0), .other (.unlisten 1)]

theorem answer_opening : (market.run opening).answer = some (.ok 1) := by
  have granted : (market.run opening).answer.any (fun answer => answer.toOption == some 1)
      = true := by decide +kernel
  match (market.run opening).answer, granted with
  | some (.ok token), same => rw [Option.some.inj (eq_of_beq same)]

private theorem answer_brokenStream : (market.run brokenStream).answer = some (.ok 1) := by
  rw [brokenStream, run_append]
  exact answer_run answer_opening _

private theorem atRest_brokenStream : (market.run brokenStream).AtRest := by
  have fresh : market.Fresh .silent := fresh_new .silent 2 [] everyStall
  exact (fresh.coherent.run brokenStream).atRest_of_work_eq_zero (by decide +kernel)

/-- Two of the three events are told, and the registration has ended once when all is over. -/
theorem received_events_heard_brokenStream :
    (market.run opening).received? (.other (.emit .null (some "h1"))) = some .null ∧
      (market.run brokenStream).answer = some (.ok 1) ∧ .own .beginDispose ∉ brokenStream ∧
      (market.run brokenStream).AtRest ∧
      market.heard brokenStream
        = upToError ((market.received brokenStream).map (Wire.decodeListenEvent everyStall)) ∧
      ∃ e earlier, market.heard (brokenStream ++ farewell) = earlier ++ [.error e] ∧
        (market.ended (brokenStream ++ farewell)).count 1 = 1 := by
  have begun : RelayStep.own .beginDispose ∉ opening := by simp [opening]
  have kept : RelayStep.own .beginDispose ∉ brokenStream := by simp [brokenStream, opening]
  have silence : market.received opening = [] := List.isEmpty_iff.mp (by decide +kernel)
  have unended : 1 ∉ market.ended opening := by decide +kernel
  obtain ⟨-, taking, -⟩ :=
    (received_events_heard .silent 2 [] everyStall opening).1 1 answer_opening
  have took := (taking begun).2.2 unended (silence ▸ List.forall_mem_nil _)
    (.inr (by decide +kernel)) .null
  obtain ⟨-, all, -⟩ :=
    (received_events_heard .silent 2 [] everyStall brokenStream).1 1 answer_brokenStream
  have answered : (market.run (brokenStream ++ farewell)).answer = some (.ok 1) := by
    rw [run_append]
    exact answer_run answer_brokenStream farewell
  obtain ⟨-, -, last⟩ :=
    (received_events_heard .silent 2 [] everyStall (brokenStream ++ farewell)).1 1 answered
  have failed : (market.heard (brokenStream ++ farewell)).any isTerminal = true := by
    decide +kernel
  obtain ⟨event, mem, terminal⟩ := List.any_eq_true.mp failed
  cases event with
  | error e =>
    obtain ⟨⟨earlier, order, -⟩, once⟩ := last e mem
    exact ⟨took, answer_brokenStream, kept, atRest_brokenStream, (all kept).1 atRest_brokenStream, e,
      earlier, order, once⟩
  | document snapshot => cases terminal
  | query result => cases terminal

/-- The bridge hears of the end once, by the name that it gave. -/
example :
    (market.received (brokenStream ++ farewell)).length = 3 ∧
      (market.heard (brokenStream ++ farewell)).map isTerminal = [false, true] ∧
      (market.run (brokenStream ++ farewell)).store.bridge.ended = ["h1"] := by
  decide +kernel

end Relay

end DocumentStore
