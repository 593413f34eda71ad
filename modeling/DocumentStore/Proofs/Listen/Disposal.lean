import DocumentStore.Proofs.Listen.Moves
import Mathlib.Data.List.Perm.Basic

/-! # The end of a subscription

Whatever the order in which the steps of a subscription follow each other, the token that the store
granted is given back once and not before the subscription has ended. A disposal that has returned
is followed by silence, unless the store had refused the registration and the refusal was yet to be
reported: the observer is taken out of the subscription before it is called. -/

namespace DocumentStore

/-- Tells the steps by which work that was begun goes on. The others begin something: the owner
starts the subscription or disposes of it, or the store has an event to push. -/
def FeedStep.isPending : FeedStep → Bool
  | .start | .push _ | .beginDispose => false
  | _ => true

namespace Feed

variable {feed after : Feed} {step : FeedStep} {effect : Effect}

/-- The feed after some steps. -/
def run (feed : Feed) (steps : List FeedStep) : Feed :=
  steps.foldl (fun feed step => (feed.step step).1) feed

/-- The events that the observer is called with during some steps. -/
def heard : Feed → List FeedStep → List ListenEvent
  | _, [] => []
  | feed, step :: steps => (feed.step step).2.notified.toList ++ heard (feed.step step).1 steps

/-- The tokens that are given back to the store during some steps. -/
def released : Feed → List FeedStep → List Token
  | _, [] => []
  | feed, step :: steps => (feed.step step).2.released.toList ++ released (feed.step step).1 steps

/-- The token with which the store answers a registration, if a step is such an answer and the
answer is waited for. -/
def grant? (feed : Feed) : FeedStep → Option Token
  | .settle (.ok token) =>
    match feed.subscription.stage with
    | .requesting => some token
    | _ => none
  | _ => none

/-- The tokens that the store grants during some steps. -/
def granted : Feed → List FeedStep → List Token
  | _, [] => []
  | feed, step :: steps => (feed.grant? step).toList ++ granted (feed.step step).1 steps

theorem sound_run (sound : feed.subscription.Sound) (steps : List FeedStep) :
    (feed.run steps).subscription.Sound := by
  induction steps generalizing feed with
  | nil => exact sound
  | cons step steps ih => exact ih (sound.move (feed.move_step step))

/-- The tokens that a feed has to give back: the one of an active subscription, the one that came
too late, and those of the disposals under way. -/
def owed (feed : Feed) : List Token :=
  feed.subscription.token.toList ++
    (feed.subscription.stage.orphan?.toList ++ feed.subscription.disposals.filterMap id)

theorem grant?_eq_none
    (unasked : ∀ answer, step = .settle answer → feed.subscription.stage ≠ .requesting) :
    feed.grant? step = none := by
  unfold grant?
  split
  · split
    · rename_i requesting
      exact absurd requesting (unasked _ rfl)
    · rfl
  · rfl

/-- Nothing is owed twice over when a disposal takes the token of the subscription with it. -/
theorem owed_beginDispose (feed : Feed) :
    (owed ⟨feed.subscription.beginDispose, feed.mailbox.close⟩).Perm feed.owed := by
  unfold owed Subscription.beginDispose
  dsimp only
  rw [List.filterMap_append]
  split
  · rw [Option.toList_none, List.nil_append, ← List.append_assoc]
    cases feed.subscription.token with
    | none => simp
    | some token => exact List.perm_append_comm
  · simp

theorem filterMap_eraseIdx_perm {disposals : List (Option Token)} {place : Nat}
    {token : Option Token} (waiting : disposals[place]? = some token) :
    (token.toList ++ (disposals.eraseIdx place).filterMap id).Perm (disposals.filterMap id) := by
  obtain ⟨within, rfl⟩ := List.getElem?_eq_some_iff.mp waiting
  have apart := (List.getElem_cons_eraseIdx_perm within).filterMap id
  cases owed : disposals[place] with
  | none => rwa [owed] at apart
  | some token => rwa [owed] at apart

/-- What a step gives back and what the feed owes after it is what the feed owed before and what
the store granted. -/
theorem Move.released_owed (sound : feed.subscription.Sound) (move : feed.Move step after effect) :
    (effect.released.toList ++ after.owed).Perm (feed.owed ++ (feed.grant? step).toList) := by
  cases move with
  | idle unasked => simp [grant?_eq_none unasked, Effect.nothing]
  | start created =>
    simp [owed, grant?, Stage.orphan?, sound.created created, Effect.nothing]
  | activate requesting registering =>
    have noToken := sound.token (by simp [registering])
    simp only [owed, grant?, Stage.orphan?, requesting, noToken, Effect.nothing,
      Option.toList_none, List.nil_append]
    exact List.perm_append_comm
  | orphan requesting late =>
    have noToken := sound.token (sound.requesting requesting)
    simp only [owed, grant?, Stage.orphan?, requesting, noToken, Effect.nothing,
      Option.toList_none, List.nil_append]
    exact List.perm_append_comm
  | refuse requesting => simp [owed, grant?, Stage.orphan?, requesting, Effect.nothing]
  | refuseLate requesting => simp [owed, grant?, Stage.orphan?, requesting, Effect.nothing]
  | report failed => simp [owed, grant?, Stage.orphan?, failed]
  | releaseOrphan orphaned =>
    simp only [owed, grant?, Stage.orphan?, orphaned, Option.toList_none, List.append_nil]
    exact List.perm_append_comm_assoc _ _ _
  | push => simp [owed, grant?, Effect.nothing]
  | drop delivering => simp [owed, grant?, Stage.orphan?, delivering, Effect.nothing]
  | terminate delivering =>
    simp [owed, grant?, Stage.orphan?, delivering, Subscription.terminate]
  | hand => simp [owed, grant?]
  | beginDispose => simpa [grant?, Effect.nothing] using owed_beginDispose feed
  | @endDispose place token waiting =>
    have given := filterMap_eraseIdx_perm waiting
    simp only [owed, grant?, Option.toList_none, List.append_nil]
    refine .trans ?_ ((given.append_left _).append_left _)
    exact (List.perm_append_comm_assoc _ _ _).trans
      ((List.perm_append_comm_assoc _ _ _).append_left _)

/-- Over a whole run, what is given back and what is owed in the end is what was owed at the
beginning and what the store granted. -/
theorem released_owed_run (sound : feed.subscription.Sound) (steps : List FeedStep) :
    (feed.released steps ++ (feed.run steps).owed).Perm (feed.owed ++ feed.granted steps) := by
  induction steps generalizing feed with
  | nil => simp [released, granted, run]
  | cons step steps ih =>
    have move := feed.move_step step
    have first := (move.released_owed sound).append_right ((feed.step step).1.granted steps)
    have later := ih (sound.move move)
    rw [List.append_assoc, List.append_assoc] at first
    rw [released, granted, List.append_assoc]
    exact (later.append_left _).trans first

/-- An answer that was given is not asked for again. -/
theorem Move.isAnswered (sound : feed.subscription.Sound) (move : feed.Move step after effect)
    (answered : feed.subscription.stage.isAnswered = true) :
    after.subscription.stage.isAnswered = true ∧ feed.grant? step = none := by
  have notRequesting : feed.subscription.stage ≠ .requesting := by
    intro requesting
    simp [requesting, Stage.isAnswered] at answered
  refine ⟨?_, grant?_eq_none fun _ _ => notRequesting⟩
  cases move with
  | idle => exact answered
  | push => exact answered
  | hand => exact answered
  | beginDispose => exact answered
  | endDispose => exact answered
  | start created => simp [sound.created created, Stage.isAnswered] at answered
  | _ => rfl

theorem granted_eq_nil (sound : feed.subscription.Sound)
    (answered : feed.subscription.stage.isAnswered = true) (steps : List FeedStep) :
    feed.granted steps = [] := by
  induction steps generalizing feed with
  | nil => rfl
  | cons step steps ih =>
    have move := feed.move_step step
    obtain ⟨stillAnswered, noGrant⟩ := move.isAnswered sound answered
    rw [granted, noGrant, ih (sound.move move) stillAnswered]
    rfl

theorem Move.isAnswered_of_grant {token : Token} (move : feed.Move step after effect)
    (granted : feed.grant? step = some token) : after.subscription.stage.isAnswered = true := by
  cases move with
  | idle unasked => simp [grant?_eq_none unasked] at granted
  | activate => rfl
  | orphan => rfl
  | _ => cases granted

private theorem length_granted_le (sound : feed.subscription.Sound) (steps : List FeedStep) :
    (feed.granted steps).length ≤ 1 := by
  induction steps generalizing feed with
  | nil => exact Nat.zero_le 1
  | cons step steps ih =>
    have move := feed.move_step step
    rw [granted]
    cases given : feed.grant? step with
    | none => exact ih (sound.move move)
    | some token =>
      have answered := move.isAnswered_of_grant given
      rw [granted_eq_nil (sound.move move) answered]
      exact Nat.le_refl 1

/-- A token is given back by a subscription that has ended. -/
theorem Move.ended_of_released {token : Token} (sound : feed.subscription.Sound)
    (move : feed.Move step after effect) (released : effect.released = some token) :
    after.subscription.phase.isDisposed = true := by
  cases move with
  | releaseOrphan orphaned => exact sound.orphaned _ orphaned
  | terminate => rfl
  | endDispose waiting =>
    exact sound.disposals (List.ne_nil_of_mem (List.mem_of_getElem? waiting))
  | _ => cases released

/-- No work that was begun is left to do. -/
def AtRest (feed : Feed) : Prop :=
  ∀ step : FeedStep, step.isPending = true → feed.step step = (feed, .nothing)

theorem owed_eq_nil (sound : feed.subscription.Sound)
    (disposed : feed.subscription.phase.isDisposed = true) (atRest : feed.AtRest) :
    feed.owed = [] := by
  have noToken : feed.subscription.token = none := by
    refine sound.token fun active => ?_
    rw [active] at disposed
    cases disposed
  have noOrphan : feed.subscription.stage.orphan? = none := by
    cases stage : feed.subscription.stage with
    | orphaned token =>
      have idle := atRest .releaseOrphan rfl
      simp [Feed.step, stage, Effect.nothing] at idle
    | _ => rfl
  have noDisposal : feed.subscription.disposals = [] := by
    cases waiting : feed.subscription.disposals with
    | nil => rfl
    | cons token later =>
      have idle := congrArg (fun result => result.1.subscription.disposals.length)
        (atRest (.endDispose 0) rfl)
      simp [Feed.step, waiting] at idle
  simp [owed, noToken, noOrphan, noDisposal]

/-- For every order of steps: a subscription that is disposed of stays so and only one that
registers becomes active; the store grants at most one token; a token is given back at most once and
by a subscription that is not active; and once a disposed subscription is at rest, the token has been
given back if there was one. -/
theorem tokens_released_once (target : ListenTarget) (steps : List FeedStep) :
    let feed := (new target).run steps
    let granted := (new target).granted steps
    let released := (new target).released steps
    (∀ step, feed.subscription.phase.isDisposed = true →
      (feed.step step).1.subscription.phase = feed.subscription.phase) ∧
    (∀ step, feed.subscription.phase ≠ .active →
      (feed.step step).1.subscription.phase = .active →
        feed.subscription.phase = .registering) ∧
    granted.length ≤ 1 ∧ released <+: granted ∧
    (∀ step token, (feed.step step).2.released = some token →
      (feed.step step).1.subscription.phase ≠ .active) ∧
    (feed.subscription.phase.isDisposed = true → feed.AtRest → released = granted) := by
  intro feed granted released
  have sound : feed.subscription.Sound := sound_run (sound_new target) steps
  have accounts : (released ++ feed.owed).Perm granted := released_owed_run (sound_new target) steps
  have short : granted.length ≤ 1 := length_granted_le (sound_new target) steps
  -- A list of at most one token has one arrangement.
  have balance : released ++ feed.owed = granted := by
    match granted, short, accounts with
    | [], _, accounts => exact accounts.eq_nil
    | [token], _, accounts => exact List.perm_singleton.mp accounts
  refine ⟨fun step disposed => (feed.move_step step).phase_of_isDisposed disposed,
    fun step inactive active => (feed.move_step step).phase_of_active inactive active,
    short, ⟨feed.owed, balance⟩, fun step token given active => ?_, fun disposed atRest => ?_⟩
  · have ended := (feed.move_step step).ended_of_released sound given
    rw [active] at ended
    cases ended
  · rw [← balance, owed_eq_nil sound disposed atRest, List.append_nil]

def lobby : ListenTarget := .document ⟨⟨["rooms", "lobby"]⟩, by decide, by decide⟩

/-- Two disposals while the subscription registers, before the store grants the token 7. -/
def lateGrant : List FeedStep :=
  [.start, .beginDispose, .beginDispose, .settle (.ok 7), .endDispose 1, .releaseOrphan,
    .endDispose 0]

private theorem atRest_lateGrant : ((new lobby).run lateGrant).AtRest := by
  intro step pending
  cases step with
  | start => cases pending
  | push event => cases pending
  | beginDispose => cases pending
  | _ => rfl

/-- The token that came too late has been given back once both disposals have returned. -/
theorem tokens_released_lateGrant :
    ((new lobby).run lateGrant).AtRest ∧ (new lobby).granted lateGrant = [7] ∧
      (new lobby).released lateGrant = [7] := by
  have released := (tokens_released_once lobby lateGrant).2.2.2.2.2 rfl atRest_lateGrant
  exact ⟨atRest_lateGrant, rfl, released⟩

/-- The refusal of a registration that is yet to be reported to the observer. -/
def unreported? (feed : Feed) : Option ListenEvent :=
  match feed.subscription.stage with
  | .failed e true => some (.error e)
  | _ => none

theorem Move.notified_unreported (disposed : feed.subscription.phase.isDisposed = true)
    (move : feed.Move step after effect) :
    effect.notified.toList ++ after.unreported?.toList = feed.unreported?.toList := by
  cases move with
  | start created => simp [created, Phase.isDisposed] at disposed
  | activate _ registering => simp [registering, Phase.isDisposed] at disposed
  | refuse _ registering => simp [registering, Phase.isDisposed] at disposed
  | terminate _ _ active => simp [active, Phase.isDisposed] at disposed
  | hand _ _ active => simp [active, Phase.isDisposed] at disposed
  | orphan requesting => simp [unreported?, requesting, Effect.nothing]
  | refuseLate requesting => simp [unreported?, requesting, Effect.nothing]
  | @report e observed failed => cases observed <;> simp [unreported?, failed]
  | releaseOrphan orphaned => simp [unreported?, orphaned]
  | drop delivering => simp [unreported?, delivering, Effect.nothing]
  | idle => rfl
  | push => rfl
  | beginDispose => rfl
  | endDispose => rfl

theorem heard_unreported_run (disposed : feed.subscription.phase.isDisposed = true)
    (steps : List FeedStep) :
    feed.heard steps ++ (feed.run steps).unreported?.toList = feed.unreported?.toList := by
  induction steps generalizing feed with
  | nil => rfl
  | cons step steps ih =>
    have move := feed.move_step step
    have later := ih ((move.phase_of_isDisposed disposed).symm ▸ disposed)
    rw [heard, List.append_assoc, run, List.foldl_cons, ← run, later]
    exact move.notified_unreported disposed

private theorem unreported?_eq_some {event : ListenEvent} (unreported : feed.unreported? = some event) :
    ∃ e, feed.subscription.stage = .failed e true ∧ event = .error e := by
  unfold unreported? at unreported
  split at unreported
  · rename_i e failed
    exact ⟨e, failed, (Option.some.inj unreported).symm⟩
  · cases unreported

private theorem Move.unreported_endDispose {place : Nat}
    (move : feed.Move (.endDispose place) after effect) :
    after.unreported? = feed.unreported? := by
  cases move <;> rfl

/-- Once a disposal has returned, the observer is never called with a snapshot. It is called at all
only if the store had refused the registration and the refusal was yet to be reported, and then once
and with this refusal. -/
theorem heard_after_disposal {target : ListenTarget} {before : List FeedStep} {place : Nat}
    (waiting : place < ((new target).run before).subscription.disposals.length)
    (after : List FeedStep) :
    let feed := (new target).run before
    let returned := (feed.step (.endDispose place)).1
    returned.heard after = [] ∨
      ∃ e, feed.subscription.stage = .failed e true ∧ returned.heard after = [.error e] := by
  intro feed returned
  have sound : feed.subscription.Sound := sound_run (sound_new target) before
  have disposed := sound.disposals (List.ne_nil_of_length_pos (Nat.zero_lt_of_lt waiting))
  have move := feed.move_step (.endDispose place)
  have disposed' : returned.subscription.phase.isDisposed = true :=
    (move.phase_of_isDisposed disposed).symm ▸ disposed
  have later := heard_unreported_run disposed' after
  rw [show returned.unreported? = feed.unreported? from move.unreported_endDispose] at later
  cases unreported : feed.unreported? with
  | none =>
    rw [unreported] at later
    exact .inl (List.append_eq_nil_iff.mp later).1
  | some event =>
    rw [unreported, Option.toList_some, List.append_eq_singleton_iff] at later
    obtain ⟨e, failed, rfl⟩ := unreported?_eq_some unreported
    exact later.imp And.left fun heard => ⟨e, failed, heard.1⟩

def closedStore : Error := .reported .unavailable "closed" none

/-- The store refuses the registration, and a disposal comes before the refusal is reported. -/
def unreportedRefusal : List FeedStep :=
  [.start, .settle (.error closedStore), .beginDispose]

theorem heard_lobby_after_disposal :
    0 < ((new lobby).run unreportedRefusal).subscription.disposals.length ∧
      (((((new lobby).run unreportedRefusal).step (.endDispose 0)).1.heard [.report, .deliver] = [])
        ∨ ∃ e, ((new lobby).run unreportedRefusal).subscription.stage = .failed e true ∧
          (((new lobby).run unreportedRefusal).step (.endDispose 0)).1.heard [.report, .deliver]
            = [.error e]) := by
  have waiting : 0 < ((new lobby).run unreportedRefusal).subscription.disposals.length :=
    Nat.zero_lt_one
  exact ⟨waiting, heard_after_disposal waiting [.report, .deliver]⟩

/-- A disposal that has returned does not always keep the observer from being called. -/
theorem not_silent_after_disposal :
    ¬ ∀ (target : ListenTarget) (before after : List FeedStep) (place : Nat),
      place < ((new target).run before).subscription.disposals.length →
        (((new target).run before).step (.endDispose place)).1.heard after = [] := by
  intro silent
  have nothing := silent lobby unreportedRefusal [.report] 0 Nat.zero_lt_one
  cases nothing

end Feed

end DocumentStore
