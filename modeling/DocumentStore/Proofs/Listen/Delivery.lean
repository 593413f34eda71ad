import DocumentStore.Proofs.Listen.Disposal

/-! # What the observer is told

The store pushes events, and the observer is called with them in the order in which they were pushed,
up to and including the first error. A disposal may cut this off at any event. A registration that is
refused leads to one call at most, which tells of the refusal. -/

namespace DocumentStore

/-- Some events up to and including the first error among them. -/
def ListenEvent.upToError : List ListenEvent → List ListenEvent
  | [] => []
  | event :: events => if event.isTerminal then [event] else event :: upToError events

/-- Events before the first error come before those up to it. -/
theorem ListenEvent.upToError_append {earlier later : List ListenEvent}
    (goOn : ∀ event ∈ earlier, event.isTerminal = false) :
    upToError (earlier ++ later) = earlier ++ upToError later := by
  induction earlier with
  | nil => rfl
  | cons event earlier ih =>
    rw [List.forall_mem_cons] at goOn
    simp [upToError, goOn.1, ih goOn.2]

/-- The event that a step pushes. -/
def FeedStep.pushed? : FeedStep → Option ListenEvent
  | .push event => some event
  | _ => none

namespace Feed

open ListenEvent

variable {feed after : Feed} {step : FeedStep} {steps : List FeedStep} {effect : Effect}

/-- The events that the store pushes during some steps. -/
def pushed (steps : List FeedStep) : List ListenEvent := steps.filterMap FeedStep.pushed?

/-- The error with which the store answers a registration, if a step is such an answer and the answer
is waited for. -/
def refusal? (feed : Feed) : FeedStep → Option Error
  | .settle (.error e) =>
    match feed.subscription.stage with
    | .requesting => some e
    | _ => none
  | _ => none

/-- The errors with which the store answers during some steps. -/
def refused : Feed → List FeedStep → List Error
  | _, [] => []
  | feed, step :: steps => (feed.refusal? step).toList ++ refused (feed.step step).1 steps

theorem pushed_cons (step : FeedStep) (steps : List FeedStep) :
    pushed (step :: steps) = step.pushed?.toList ++ pushed steps := by
  cases given : step.pushed? <;> simp [pushed, given]

theorem refusal?_eq_none
    (unasked : ∀ answer, step = .settle answer → feed.subscription.stage ≠ .requesting) :
    feed.refusal? step = none := by
  unfold refusal?
  split
  · split
    · rename_i requesting
      exact absurd requesting (unasked _ rfl)
    · rfl
  · rfl

/-- An answer that was given is not given again. -/
theorem refused_eq_nil (sound : feed.subscription.Sound)
    (answered : feed.subscription.stage.isAnswered = true) (steps : List FeedStep) :
    feed.refused steps = [] := by
  induction steps generalizing feed with
  | nil => rfl
  | cons step steps ih =>
    have notRequesting : feed.subscription.stage ≠ .requesting := by
      intro requesting
      simp [requesting, Stage.isAnswered] at answered
    have move := feed.move_step step
    have later := ih (sound.move move) (move.isAnswered sound answered).1
    rw [refused, later, refusal?_eq_none fun _ _ => notRequesting]
    rfl

/-- A feed whose observer is not called any more. -/
structure Silent (feed : Feed) : Prop where
  disposed : feed.subscription.phase.isDisposed = true
  reported : feed.unreported? = none

theorem Silent.heard (silent : feed.Silent) (steps : List FeedStep) : feed.heard steps = [] := by
  have all := heard_unreported_run silent.disposed steps
  rw [silent.reported] at all
  exact (List.append_eq_nil_iff.mp all).1

theorem AtRest.unreported?_eq_none (atRest : feed.AtRest) : feed.unreported? = none := by
  unfold unreported?
  split
  · rename_i e failed
    have idle := congrArg (fun result => result.2.notified) (atRest .report rfl)
    simp [Feed.step, failed, Effect.nothing] at idle
  · rfl

/-- Nothing waits to be delivered when no work is left to do. -/
theorem AtRest.items_eq_nil (atRest : feed.AtRest)
    (delivering : feed.subscription.stage = .delivering) : feed.mailbox.items = [] := by
  cases items : feed.mailbox.items with
  | nil => rfl
  | cons event rest =>
    -- The delivery of the first event takes it out of the mailbox, whatever else it does.
    have taken : feed.mailbox.take? = some (event, { feed.mailbox with items := rest }) := by
      simp [Channel.take?, items]
    have idle := congrArg (fun result => result.1.mailbox.items.length) (atRest .deliver rfl)
    simp only [Feed.step, deliver, delivering, taken, deliverEvent, Channel.close, items] at idle
    split at idle
    · simp at idle
    · split at idle <;> simp at idle

/-- The mailbox takes every event. -/
def Accepts (feed : Feed) : Prop := feed.mailbox.isOpen = true ∧ feed.mailbox.capacity = none

/-- A feed that hands on what comes. -/
structure Delivering (feed : Feed) : Prop where
  sound : feed.subscription.Sound
  active : feed.subscription.phase = .active
  stage : feed.subscription.stage = .delivering
  observing : feed.subscription.observing = true
  accepts : feed.Accepts

theorem Delivering.undisposed (delivering : feed.Delivering) :
    feed.subscription.disposals = [] := by
  by_contra waiting
  have disposed := delivering.sound.disposals waiting
  rw [delivering.active] at disposed
  cases disposed

theorem accepts_push (accepts : feed.Accepts) (event : ListenEvent) :
    (feed.step (.push event)).1.Accepts ∧
      (feed.step (.push event)).1.mailbox.items = feed.mailbox.items ++ [event] := by
  have sent := Channel.offer_unbounded_open accepts.1 accepts.2 event
  simp only [Feed.step, sent]
  exact ⟨accepts, trivial⟩

/-- The first event of a mailbox and what comes after it. -/
theorem items_of_take? {event : ListenEvent} {rest : Mailbox}
    (taken : feed.mailbox.take? = some (event, rest)) :
    feed.mailbox.items = event :: rest.items ∧ rest.isOpen = feed.mailbox.isOpen ∧
      rest.capacity = feed.mailbox.capacity := by
  unfold Channel.take? at taken
  split at taken
  · cases taken
  · rename_i first others items
    cases taken
    exact ⟨items, rfl, rfl⟩

/-- What one step makes of a feed that hands on what comes: it goes on, with the events in their order,
or it is disposed of, or it has handed on an error. -/
inductive Progress (feed : Feed) (step : FeedStep) (after : Feed) (effect : Effect) : Prop
  | goesOn (delivering : after.Delivering)
      (snapshots : ∀ event ∈ effect.notified.toList, event.isTerminal = false)
      (order : feed.mailbox.items ++ step.pushed?.toList
        = effect.notified.toList ++ after.mailbox.items)
  | disposed (stopped : step = .beginDispose) (untold : effect.notified = none)
      (silent : after.Silent)
  | failed (event : ListenEvent) (rest : List ListenEvent)
      (first : feed.mailbox.items = event :: rest) (terminal : event.isTerminal = true)
      (told : effect.notified = some event) (silent : after.Silent)

private theorem Delivering.move (delivering : feed.Delivering) (unpushed : step.pushed? = none)
    (move : feed.Move step after effect) : feed.Progress step after effect := by
  have sound := delivering.sound.move move
  have notRequesting : feed.subscription.stage ≠ .requesting := by simp [delivering.stage]
  cases move with
  | idle =>
    have kept : feed.mailbox.items ++ step.pushed?.toList = feed.mailbox.items := by simp [unpushed]
    exact .goesOn delivering (fun _ mem => absurd mem List.not_mem_nil) kept
  | start created => simp [delivering.active] at created
  | activate requesting => exact absurd requesting notRequesting
  | orphan requesting => exact absurd requesting notRequesting
  | refuse requesting => exact absurd requesting notRequesting
  | refuseLate requesting => exact absurd requesting notRequesting
  | report failed => simp [delivering.stage] at failed
  | releaseOrphan orphaned => simp [delivering.stage] at orphaned
  | push => cases unpushed
  | drop _ _ inactive => exact absurd delivering.active inactive
  | @terminate event rest _ taken _ terminal =>
    obtain ⟨items, -, -⟩ := items_of_take? taken
    have silent : Silent ⟨feed.subscription.terminate, rest.close⟩ := ⟨rfl, rfl⟩
    exact .failed event rest.items items terminal (by rw [if_pos delivering.observing]) silent
  | @hand event rest _ taken _ goesOn =>
    obtain ⟨items, isOpen, capacity⟩ := items_of_take? taken
    have accepts : rest.isOpen = true ∧ rest.capacity = none := by
      rw [isOpen, capacity]
      exact delivering.accepts
    have told : (if feed.subscription.observing = true then some event else none) = some event :=
      if_pos delivering.observing
    refine .goesOn { delivering with accepts } ?_ ?_
    · simp [told, goesOn]
    · simp [told, items, FeedStep.pushed?]
  | beginDispose =>
    refine .disposed rfl rfl ⟨isDisposed_afterDispose _, ?_⟩
    simp [unreported?, Subscription.beginDispose, delivering.stage]
  | endDispose waiting => simp [delivering.undisposed] at waiting

theorem Delivering.progress (delivering : feed.Delivering) (step : FeedStep) :
    feed.Progress step (feed.step step).1 (feed.step step).2 := by
  cases step with
  | push event =>
    -- Every move but this one might also be idle.
    obtain ⟨accepts, items⟩ := accepts_push delivering.accepts event
    exact .goesOn { delivering with accepts } (fun _ mem => absurd mem List.not_mem_nil) items.symm
  | _ => exact delivering.move rfl (feed.move_step _)

/-- The observer is called with the first of the events that wait or are still to be pushed. -/
theorem Delivering.heard_prefix (delivering : feed.Delivering) (steps : List FeedStep) :
    feed.heard steps <+: upToError (feed.mailbox.items ++ pushed steps) := by
  induction steps generalizing feed with
  | nil => exact List.nil_prefix
  | cons step steps ih =>
    rw [Feed.heard, pushed_cons]
    cases delivering.progress step with
    | goesOn delivering snapshots order =>
      rw [← List.append_assoc, order, List.append_assoc, upToError_append snapshots,
        List.prefix_append_right_inj]
      exact ih delivering
    | disposed _ untold silent =>
      rw [untold, silent.heard]
      exact List.nil_prefix
    | failed event rest first terminal told silent =>
      rw [told, silent.heard, first]
      simp [upToError, terminal]

/-- Without a disposal it is called with all of them, when no work is left to do. -/
theorem Delivering.heard_eq (delivering : feed.Delivering) (kept : .beginDispose ∉ steps)
    (atRest : (feed.run steps).AtRest) :
    feed.heard steps = upToError (feed.mailbox.items ++ pushed steps) := by
  induction steps generalizing feed with
  | nil =>
    have empty : feed.mailbox.items = [] := AtRest.items_eq_nil atRest delivering.stage
    rw [empty]
    rfl
  | cons step steps ih =>
    rw [List.mem_cons, not_or] at kept
    rw [Feed.heard, pushed_cons]
    cases delivering.progress step with
    | goesOn delivering snapshots order =>
      rw [← List.append_assoc, order, List.append_assoc, upToError_append snapshots,
        ih delivering kept.2 atRest]
    | disposed stopped => exact absurd stopped.symm kept.1
    | failed event rest first terminal told silent =>
      rw [told, silent.heard, first]
      simp [upToError, terminal]

/-- A feed whose registration is yet to be answered. -/
structure Waiting (feed : Feed) : Prop where
  sound : feed.subscription.Sound
  course : feed.subscription.phase = .created ∧ feed.subscription.stage = .idle ∨
    feed.subscription.phase = .registering ∧ feed.subscription.stage = .requesting
  observing : feed.subscription.observing = true
  accepts : feed.Accepts

theorem waiting_new (target : ListenTarget) : (new target).Waiting where
  sound := sound_new target
  course := .inl ⟨rfl, rfl⟩
  observing := rfl
  accepts := ⟨rfl, rfl⟩

/-- Neither has the subscription ended nor has the store answered. -/
theorem Waiting.pending (waiting : feed.Waiting) :
    feed.subscription.phase.isDisposed = false ∧ feed.subscription.phase ≠ .active ∧
      feed.subscription.stage.isAnswered = false := by
  obtain ⟨phase, stage⟩ | ⟨phase, stage⟩ := waiting.course
  · rw [phase, stage]
    exact ⟨rfl, nofun, rfl⟩
  · rw [phase, stage]
    exact ⟨rfl, nofun, rfl⟩

/-- What one step makes of a feed that waits for an answer: it waits on, with the events that came; or
the answer is a token; or it is an error, of which the observer is to be told; or the feed is disposed
of. -/
inductive Answered (feed : Feed) (step : FeedStep) (after : Feed) (effect : Effect) : Prop
  | waits (waiting : after.Waiting) (ungranted : feed.grant? step = none)
      (unrefused : feed.refusal? step = none)
      (order : feed.mailbox.items ++ step.pushed?.toList = after.mailbox.items)
      (untold : effect.notified = none)
  | granted (delivering : after.Delivering) (unrefused : feed.refusal? step = none)
      (order : feed.mailbox.items ++ step.pushed?.toList = after.mailbox.items)
      (untold : effect.notified = none)
  | refused (e : Error) (refused : feed.refusal? step = some e) (ungranted : feed.grant? step = none)
      (disposed : after.subscription.phase.isDisposed = true)
      (answered : after.subscription.stage.isAnswered = true)
      (unreported : after.unreported? = some (.error e)) (untold : effect.notified = none)
  | disposed (stopped : step = .beginDispose) (untold : effect.notified = none)
      (silent : after.Silent)

private theorem Waiting.move (waiting : feed.Waiting) (unpushed : step.pushed? = none)
    (move : feed.Move step after effect) : feed.Answered step after effect := by
  have sound := waiting.sound.move move
  have kept : feed.mailbox.items ++ step.pushed?.toList = feed.mailbox.items := by simp [unpushed]
  obtain ⟨live, inactive, unanswered⟩ := waiting.pending
  cases move with
  | idle unasked =>
    exact .waits waiting (grant?_eq_none unasked) (refusal?_eq_none unasked) kept rfl
  | start => exact .waits { waiting with sound, course := .inr ⟨rfl, rfl⟩ } rfl rfl kept rfl
  | activate => exact .granted { waiting with sound, active := rfl, stage := rfl } rfl kept rfl
  | orphan requesting late =>
    have ended := waiting.sound.isDisposed_of_late requesting late
    simp [live] at ended
  | @refuse e requesting =>
    have refused : feed.refusal? (.settle (.error e)) = some e := by simp [refusal?, requesting]
    exact .refused e refused rfl rfl rfl (by simp [unreported?, waiting.observing]) rfl
  | refuseLate requesting late =>
    have ended := waiting.sound.isDisposed_of_late requesting late
    simp [live] at ended
  | report failed => simp [failed, Stage.isAnswered] at unanswered
  | releaseOrphan orphaned => simp [orphaned, Stage.isAnswered] at unanswered
  | push => cases unpushed
  | drop delivering => simp [delivering, Stage.isAnswered] at unanswered
  | terminate _ _ active => exact absurd active inactive
  | hand _ _ active => exact absurd active inactive
  | beginDispose =>
    have silent : unreported? ⟨feed.subscription.beginDispose, feed.mailbox.close⟩ = none := by
      obtain ⟨-, stage⟩ | ⟨-, stage⟩ := waiting.course
      · simp [unreported?, Subscription.beginDispose, stage]
      · simp [unreported?, Subscription.beginDispose, stage]
    exact .disposed rfl rfl ⟨isDisposed_afterDispose _, silent⟩
  | endDispose under =>
    have ended := waiting.sound.disposals (List.ne_nil_of_mem (List.mem_of_getElem? under))
    simp [live] at ended

theorem Waiting.answered (waiting : feed.Waiting) (step : FeedStep) :
    feed.Answered step (feed.step step).1 (feed.step step).2 := by
  cases step with
  | push event =>
    obtain ⟨accepts, items⟩ := accepts_push waiting.accepts event
    exact .waits { waiting with accepts } rfl rfl items.symm rfl
  | _ => exact waiting.move rfl (feed.move_step _)

/-- A registration that is not refused leads to the first of the events that are pushed, and one that is
refused to one call at most. -/
theorem Waiting.heard_prefix (waiting : feed.Waiting) (steps : List FeedStep) :
    (feed.refused steps = [] → feed.heard steps <+: upToError (feed.mailbox.items ++ pushed steps)) ∧
      ∀ e ∈ feed.refused steps, feed.heard steps <+: [.error e] := by
  induction steps generalizing feed with
  | nil => exact ⟨fun _ => List.nil_prefix, fun _ mem => absurd mem List.not_mem_nil⟩
  | cons step steps ih =>
    have sound := waiting.sound.move (feed.move_step step)
    rw [Feed.heard, Feed.refused, pushed_cons]
    cases waiting.answered step with
    | waits waiting _ unrefused order untold =>
      rw [unrefused, untold, ← List.append_assoc, order]
      exact ih waiting
    | granted delivering unrefused order untold =>
      have noRefusal := refused_eq_nil sound (by rw [delivering.stage]; rfl) steps
      rw [unrefused, untold, ← List.append_assoc, order, noRefusal]
      exact ⟨fun _ => delivering.heard_prefix steps, fun _ mem => absurd mem List.not_mem_nil⟩
    | refused e refused _ disposed answered unreported untold =>
      have all := heard_unreported_run disposed steps
      rw [unreported] at all
      rw [refused, untold, refused_eq_nil sound answered]
      refine ⟨fun accepted => absurd accepted (List.cons_ne_nil _ _), fun other mem => ?_⟩
      obtain rfl := List.mem_singleton.mp mem
      exact ⟨_, all⟩
    | disposed _ untold silent =>
      rw [untold, silent.heard]
      exact ⟨fun _ => List.nil_prefix, fun _ _ => List.nil_prefix⟩

/-- Without a disposal nothing is left out, when no work is left to do. -/
theorem Waiting.heard_eq (waiting : feed.Waiting) (kept : .beginDispose ∉ steps)
    (atRest : (feed.run steps).AtRest) :
    (feed.granted steps ≠ [] →
        feed.heard steps = upToError (feed.mailbox.items ++ pushed steps)) ∧
      ∀ e ∈ feed.refused steps, feed.heard steps = [.error e] := by
  induction steps generalizing feed with
  | nil => exact ⟨fun granted => absurd rfl granted, fun _ mem => absurd mem List.not_mem_nil⟩
  | cons step steps ih =>
    have sound := waiting.sound.move (feed.move_step step)
    rw [List.mem_cons, not_or] at kept
    rw [Feed.heard, Feed.refused, Feed.granted, pushed_cons]
    cases waiting.answered step with
    | waits waiting ungranted unrefused order untold =>
      rw [ungranted, unrefused, untold, ← List.append_assoc, order]
      exact ih waiting kept.2 atRest
    | granted delivering unrefused order untold =>
      have noRefusal := refused_eq_nil sound (by rw [delivering.stage]; rfl) steps
      rw [unrefused, untold, ← List.append_assoc, order, noRefusal]
      exact ⟨fun _ => delivering.heard_eq kept.2 atRest, fun _ mem => absurd mem List.not_mem_nil⟩
    | refused e refused ungranted disposed answered unreported untold =>
      have reported : ((feed.step step).1.run steps).unreported? = none :=
        AtRest.unreported?_eq_none atRest
      have all := heard_unreported_run disposed steps
      rw [unreported, reported] at all
      rw [refused, ungranted, untold, refused_eq_nil sound answered, granted_eq_nil sound answered]
      refine ⟨fun granted => absurd rfl granted, fun other mem => ?_⟩
      obtain rfl := List.mem_singleton.mp mem
      simpa using all
    | disposed stopped => exact absurd stopped.symm kept.1

/-- For every order of steps: unless the registration is refused, the observer is called with the first
of the pushed events in their order, and with none after the first error. If it is refused, the observer
is called once at most, with the refusal. When nobody has disposed of the subscription and no work is
left to do, the refusal has been told, or every event up to and including the first error. -/
theorem heard_in_order (target : ListenTarget) (steps : List FeedStep) :
    let feed := (new target).run steps
    let granted := (new target).granted steps
    let refused := (new target).refused steps
    let heard := (new target).heard steps
    (refused = [] → heard <+: upToError (pushed steps)) ∧
      (∀ e ∈ refused, heard <+: [.error e]) ∧
      (.beginDispose ∉ steps → feed.AtRest →
        (∀ e ∈ refused, heard = [.error e]) ∧ (granted ≠ [] → heard = upToError (pushed steps))) := by
  intro feed granted refused heard
  have waiting := waiting_new target
  obtain ⟨first, once⟩ := waiting.heard_prefix steps
  refine ⟨first, once, fun kept atRest => ?_⟩
  obtain ⟨all, told⟩ := waiting.heard_eq kept atRest
  exact ⟨told, all⟩

def foyer : DocumentKey := ⟨⟨["rooms", "foyer"]⟩, by decide, by decide⟩

def emptyFoyer : ListenEvent := .document ⟨foyer, some []⟩

def noFoyer : ListenEvent := .document ⟨foyer, none⟩

/-- Snapshots come before and after the store grants the token 7, then an error, and after it one more
snapshot. -/
def brokenOff : List FeedStep :=
  [.start, .push noFoyer, .settle (.ok 7), .push emptyFoyer, .deliver, .push (.error closedStore),
    .push noFoyer, .deliver, .deliver]

private theorem atRest_brokenOff : ((new (.document foyer)).run brokenOff).AtRest := by
  intro step pending
  cases step with
  | start => cases pending
  | push event => cases pending
  | beginDispose => cases pending
  | _ => rfl

theorem heard_foyer_brokenOff :
    .beginDispose ∉ brokenOff ∧ ((new (.document foyer)).run brokenOff).AtRest ∧
      (new (.document foyer)).granted brokenOff = [7] ∧
      (new (.document foyer)).heard brokenOff = [noFoyer, emptyFoyer, .error closedStore] := by
  have kept : FeedStep.beginDispose ∉ brokenOff := by simp [brokenOff]
  have granted : (new (.document foyer)).granted brokenOff = [7] := rfl
  obtain ⟨-, all⟩ := (heard_in_order (.document foyer) brokenOff).2.2 kept atRest_brokenOff
  exact ⟨kept, atRest_brokenOff, granted, all (by simp [granted])⟩

end Feed

end DocumentStore
