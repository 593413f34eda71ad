import DocumentStore.Listen.Subscription

/-! # What a step of a feed does

A step of a feed has an occasion or changes nothing. What it does where it has one is said once, step
by step, together with what holds of a feed at every point of its life. -/

namespace DocumentStore

namespace Feed

/-- The ways in which a step can change a feed, with what it does to the outside. -/
inductive Move (feed : Feed) : FeedStep → Feed → Effect → Prop where
  /-- The step has no occasion; an answer has one as long as it is waited for. -/
  | idle {step : FeedStep}
      (unasked : ∀ answer, step = .settle answer → feed.subscription.stage ≠ .requesting) :
      Move feed step feed .nothing
  | start (created : feed.subscription.phase = .created) :
      Move feed .start
        { feed with subscription :=
          { feed.subscription with phase := .registering, stage := .requesting } } .nothing
  /-- The store grants a token that is waited for. -/
  | activate {token : Token} (requesting : feed.subscription.stage = .requesting)
      (registering : feed.subscription.phase = .registering) :
      Move feed (.settle (.ok token))
        { feed with subscription :=
          { feed.subscription with
            phase := .active, token := some token, stage := .delivering, settled := true } } .nothing
  /-- The store grants a token after a disposal. -/
  | orphan {token : Token} (requesting : feed.subscription.stage = .requesting)
      (late : feed.subscription.phase ≠ .registering) :
      Move feed (.settle (.ok token))
        { feed with subscription :=
          { feed.subscription with
            observing := false, stage := .orphaned token, settled := true } } .nothing
  /-- The store refuses the registration, and the observer is taken along to be told. -/
  | refuse {e : Error} (requesting : feed.subscription.stage = .requesting)
      (registering : feed.subscription.phase = .registering) :
      Move feed (.settle (.error e))
        { feed with subscription :=
          { feed.subscription with
            phase := .disposed false
            stage := .failed e feed.subscription.observing
            observing := false
            settled := true } } .nothing
  /-- The store refuses a registration that nobody wants any more. -/
  | refuseLate {e : Error} (requesting : feed.subscription.stage = .requesting)
      (late : feed.subscription.phase ≠ .registering) :
      Move feed (.settle (.error e))
        { feed with subscription :=
          { feed.subscription with
            phase :=
              if feed.subscription.phase.isDisposed then feed.subscription.phase
              else .disposed false
            stage := .failed e false
            settled := true } } .nothing
  | report {e : Error} {observed : Bool} (failed : feed.subscription.stage = .failed e observed) :
      Move feed .report
        ⟨{ feed.subscription with stage := .finished }, feed.mailbox.close⟩
        ⟨if observed then some (.error e) else none, none⟩
  | releaseOrphan {token : Token} (orphaned : feed.subscription.stage = .orphaned token) :
      Move feed .releaseOrphan
        { feed with subscription := { feed.subscription with stage := .finished } }
        ⟨none, some token⟩
  | push (event : ListenEvent) :
      Move feed (.push event) { feed with mailbox := (feed.mailbox.offer event).2 } .nothing
  /-- An event that comes after disposal is dropped and ends the delivery. -/
  | drop {event : ListenEvent} {rest : Mailbox} (delivering : feed.subscription.stage = .delivering)
      (taken : feed.mailbox.take? = some (event, rest))
      (inactive : feed.subscription.phase ≠ .active) :
      Move feed .deliver ⟨{ feed.subscription with stage := .finished }, rest⟩ .nothing
  /-- An error ends the subscription, and its token is released. -/
  | terminate {event : ListenEvent} {rest : Mailbox}
      (delivering : feed.subscription.stage = .delivering)
      (taken : feed.mailbox.take? = some (event, rest))
      (active : feed.subscription.phase = .active) (terminal : event.isTerminal = true) :
      Move feed .deliver ⟨feed.subscription.terminate, rest.close⟩
        ⟨if feed.subscription.observing then some event else none, feed.subscription.token⟩
  | hand {event : ListenEvent} {rest : Mailbox}
      (delivering : feed.subscription.stage = .delivering)
      (taken : feed.mailbox.take? = some (event, rest))
      (active : feed.subscription.phase = .active) (goesOn : event.isTerminal = false) :
      Move feed .deliver ⟨feed.subscription, rest⟩
        ⟨if feed.subscription.observing then some event else none, none⟩
  | beginDispose :
      Move feed .beginDispose ⟨feed.subscription.beginDispose, feed.mailbox.close⟩ .nothing
  | endDispose {place : Nat} {token : Option Token}
      (waiting : feed.subscription.disposals[place]? = some token) :
      Move feed (.endDispose place)
        { feed with subscription :=
          { feed.subscription with disposals := feed.subscription.disposals.eraseIdx place } }
        ⟨none, token⟩

private theorem move_deliver (feed : Feed) : feed.Move .deliver feed.deliver.1 feed.deliver.2 := by
  unfold deliver
  split
  · rename_i event rest delivering taken
    unfold deliverEvent
    dsimp only
    split
    · rename_i inactive
      exact .drop delivering taken inactive
    · rename_i active
      rw [Decidable.not_not] at active
      split
      · rename_i terminal
        exact .terminate delivering taken active terminal
      · rename_i goesOn
        exact .hand delivering taken active (Bool.eq_false_iff.mpr goesOn)
  · exact .idle nofun

theorem move_settle {feed : Feed} (requesting : feed.subscription.stage = .requesting)
    (answer : Except Error Token) :
    feed.Move (.settle answer) { feed with subscription := feed.subscription.settle answer }
      .nothing := by
  cases answer with
  | ok token =>
    unfold Subscription.settle
    dsimp only
    split
    · rename_i registering
      exact .activate requesting registering
    · rename_i late
      exact .orphan requesting late
  | error e =>
    unfold Subscription.settle
    by_cases registering : feed.subscription.phase = .registering
    · have move := Move.refuse (e := e) requesting registering
      simpa [registering, Phase.isDisposed] using move
    · have late : (feed.subscription.phase == .registering) = false :=
        beq_eq_false_iff_ne.mpr registering
      have move := Move.refuseLate (e := e) requesting registering
      simpa [late] using move

/-- Every step is one of the moves. -/
theorem move_step (feed : Feed) (step : FeedStep) :
    feed.Move step (feed.step step).1 (feed.step step).2 := by
  cases step with
  | start =>
    unfold Feed.step Subscription.start
    by_cases created : feed.subscription.phase = .created
    · have move := Move.start created
      simpa [created] using move
    · have move : feed.Move .start feed .nothing := .idle nofun
      simpa [created] using move
  | settle answer =>
    unfold Feed.step
    dsimp only
    split
    · rename_i requesting
      exact move_settle requesting answer
    · rename_i unasked
      exact .idle fun _ _ => unasked
  | report =>
    unfold Feed.step
    dsimp only
    split
    · rename_i e observed failed
      exact .report failed
    · exact .idle nofun
  | releaseOrphan =>
    unfold Feed.step
    dsimp only
    split
    · rename_i token orphaned
      exact .releaseOrphan orphaned
    · exact .idle nofun
  | push event => exact .push event
  | deliver => exact move_deliver feed
  | beginDispose => exact .beginDispose
  | endDispose place =>
    unfold Feed.step
    dsimp only
    split
    · rename_i token waiting
      exact .endDispose waiting
    · exact .idle nofun

end Feed

/-- Tells that the store has answered the registration. -/
def Stage.isAnswered : Stage → Bool
  | .idle | .requesting => false
  | _ => true

/-- The token that came too late, as long as it is not given back. -/
def Stage.orphan? : Stage → Option Token
  | .orphaned token => some token
  | _ => none

/-- What holds of a subscription at every point of its life. -/
structure Subscription.Sound (s : Subscription) : Prop where
  /-- Background work begins when the subscription is started. -/
  created : s.phase = .created → s.stage = .idle
  /-- The store has not answered while the subscription is not active. -/
  requesting : s.stage = .requesting → s.phase ≠ .active
  /-- A token is kept for an active subscription only. -/
  token : s.phase ≠ .active → s.token = none
  orphaned : ∀ token, s.stage = .orphaned token → s.phase.isDisposed = true
  disposals : s.disposals ≠ [] → s.phase.isDisposed = true
  observing : s.phase.isDisposed = true → s.observing = false

namespace Feed

variable {feed after : Feed} {step : FeedStep} {effect : Effect}

theorem sound_new (target : ListenTarget) : (new target).subscription.Sound where
  created _ := rfl
  requesting h := nomatch h
  token _ := rfl
  orphaned _ h := nomatch h
  disposals h := absurd rfl h
  observing h := nomatch h

/-- A disposal leaves a subscription disposed of. -/
theorem isDisposed_afterDispose (phase : Phase) : phase.afterDispose.isDisposed = true := by
  cases phase <;> rfl

/-- A subscription that is disposed of stays as it was disposed of. -/
theorem Move.phase_of_isDisposed (move : feed.Move step after effect)
    (disposed : feed.subscription.phase.isDisposed = true) :
    after.subscription.phase = feed.subscription.phase := by
  cases move with
  | start created => simp [created, Phase.isDisposed] at disposed
  | activate _ registering => simp [registering, Phase.isDisposed] at disposed
  | refuse _ registering => simp [registering, Phase.isDisposed] at disposed
  | refuseLate => simp [disposed]
  | terminate _ _ active => simp [active, Phase.isDisposed] at disposed
  | beginDispose =>
    cases phase : feed.subscription.phase with
    | disposed flag => simp [Subscription.beginDispose, phase, Phase.afterDispose]
    | _ => simp [phase, Phase.isDisposed] at disposed
  | _ => rfl

/-- A subscription becomes active by the store's answer, while it registers. -/
theorem Move.phase_of_active (move : feed.Move step after effect)
    (inactive : feed.subscription.phase ≠ .active) (active : after.subscription.phase = .active) :
    feed.subscription.phase = .registering := by
  cases move with
  | activate _ registering => exact registering
  | start => cases active
  | refuse => cases active
  | terminate => cases active
  | refuseLate =>
    dsimp only at active
    split at active
    · exact absurd active inactive
    · cases active
  | beginDispose =>
    have disposed := isDisposed_afterDispose feed.subscription.phase
    rw [show feed.subscription.phase.afterDispose = .active from active] at disposed
    cases disposed
  | _ => exact absurd active inactive

end Feed

namespace Subscription.Sound

variable {s : Subscription}

/-- A subscription that does not register any more while it waits for the store is disposed of. -/
theorem isDisposed_of_late (sound : s.Sound) (requesting : s.stage = .requesting)
    (late : s.phase ≠ .registering) : s.phase.isDisposed = true := by
  cases phase : s.phase with
  | created => simp [sound.created phase] at requesting
  | registering => exact absurd phase late
  | active => exact absurd phase (sound.requesting requesting)
  | disposed flag => rfl

private theorem beginDispose (sound : s.Sound) : s.beginDispose.Sound where
  created phase := by
    have disposed := Feed.isDisposed_afterDispose s.phase
    rw [show s.phase.afterDispose = .created from phase] at disposed
    cases disposed
  requesting _ phase := by
    have disposed := Feed.isDisposed_afterDispose s.phase
    rw [show s.phase.afterDispose = .active from phase] at disposed
    cases disposed
  token _ := by
    unfold Subscription.beginDispose
    dsimp only
    split
    · rfl
    · rename_i inactive
      exact sound.token inactive
  orphaned _ _ := Feed.isDisposed_afterDispose s.phase
  disposals _ := Feed.isDisposed_afterDispose s.phase
  observing _ := rfl

theorem finish (sound : s.Sound) (begun : s.stage ≠ .idle) : Sound { s with stage := .finished } where
  created phase := absurd (sound.created phase) begun
  requesting := nofun
  token := sound.token
  orphaned := nofun
  disposals := sound.disposals
  observing := sound.observing

/-- Every step keeps what holds of a subscription. -/
theorem move {feed after : Feed} {step : FeedStep} {effect : Effect}
    (sound : feed.subscription.Sound) (move : feed.Move step after effect) :
    after.subscription.Sound := by
  -- The phases in which nobody has disposed of the subscription.
  have notWaiting {phase : Phase} (h : feed.subscription.phase = phase)
      (live : phase.isDisposed = false) (waiting : feed.subscription.disposals ≠ []) : False := by
    have disposed := sound.disposals waiting
    rw [h, live] at disposed
    cases disposed
  cases move with
  | idle => exact sound
  | push => exact sound
  | hand => exact sound
  | start created =>
    exact {
      created := nofun
      requesting := nofun
      token := fun _ => sound.token (by simp [created])
      orphaned := nofun
      disposals := fun waiting => (notWaiting created rfl waiting).elim
      observing := nofun }
  | activate requesting registering =>
    exact {
      created := nofun
      requesting := nofun
      token := fun inactive => absurd rfl inactive
      orphaned := nofun
      disposals := fun waiting => (notWaiting registering rfl waiting).elim
      observing := nofun }
  | orphan requesting late =>
    have disposed := sound.isDisposed_of_late requesting late
    exact {
      created := fun phase => by simp [sound.created phase] at requesting
      requesting := nofun
      token := sound.token
      orphaned := fun _ _ => disposed
      disposals := sound.disposals
      observing := fun _ => rfl }
  | refuse requesting registering =>
    exact {
      created := nofun
      requesting := nofun
      token := fun _ => sound.token (by simp [registering])
      orphaned := nofun
      disposals := fun _ => rfl
      observing := fun _ => rfl }
  | refuseLate requesting late =>
    have disposed := sound.isDisposed_of_late requesting late
    simp only [disposed, if_true]
    exact {
      created := fun phase => by simp [sound.created phase] at requesting
      requesting := nofun
      token := sound.token
      orphaned := nofun
      disposals := sound.disposals
      observing := sound.observing }
  | report failed => exact sound.finish (by simp [failed])
  | releaseOrphan orphaned => exact sound.finish (by simp [orphaned])
  | drop delivering => exact sound.finish (by simp [delivering])
  | terminate delivering taken active =>
    exact {
      created := nofun
      requesting := nofun
      token := fun _ => rfl
      orphaned := nofun
      disposals := fun _ => rfl
      observing := fun _ => rfl }
  | beginDispose => exact sound.beginDispose
  | endDispose waiting =>
    exact {
      created := sound.created
      requesting := sound.requesting
      token := sound.token
      orphaned := sound.orphaned
      disposals := fun _ => sound.disposals (List.ne_nil_of_mem (List.mem_of_getElem? waiting))
      observing := sound.observing }

end Subscription.Sound

end DocumentStore
