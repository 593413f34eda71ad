import DocumentStore.Proofs.Listen.Delivery
import DocumentStore.Proofs.Store.Notify

/-! # The background work of a subscription

The phase of a subscription is what its owner sees, and its stage is where its background work is. Until
a disposal separates them, the one tells the other. So a subscription that is still wanted has its token
and a mailbox that takes everything. -/

namespace DocumentStore

/-- What holds of a subscription at every point of its life, also of its background work: as long as the
subscription is not disposed of, this work is where the phase says. -/
structure Subscription.InStep (s : Subscription) : Prop extends Subscription.Sound s where
  registering : s.phase = .registering → s.stage = .requesting
  active : s.phase = .active → s.stage = .delivering
  registered : s.phase = .active → ∃ token, s.token = some token

namespace Subscription.InStep

theorem new (target : ListenTarget) : (Subscription.new target).InStep where
  toSound := Feed.sound_new target
  registering := nofun
  active := nofun
  registered := nofun

private theorem of_isDisposed {s : Subscription} (sound : s.Sound)
    (disposed : s.phase.isDisposed = true) :
    s.InStep := by
  have ended {phase : Phase} (live : phase.isDisposed = false) : s.phase ≠ phase := by
    intro same
    rw [same, live] at disposed
    cases disposed
  exact {
    toSound := sound
    registering := fun phase => absurd phase (ended rfl)
    active := fun phase => absurd phase (ended rfl)
    registered := fun phase => absurd phase (ended rfl) }

/-- A subscription that has gone beyond its registration is active or disposed of. -/
theorem isDisposed {s : Subscription} (inStep : s.InStep) (begun : s.stage ≠ .idle)
    (answered : s.stage ≠ .requesting) (inactive : s.phase ≠ .active) : s.phase.isDisposed = true := by
  cases phase : s.phase with
  | created => exact absurd (inStep.created phase) begun
  | registering => exact absurd (inStep.registering phase) answered
  | active => exact absurd phase inactive
  | disposed flag => rfl

theorem isDisposed_of_failed {s : Subscription} (inStep : s.InStep) {e : Error} {observed : Bool}
    (failed : s.stage = .failed e observed) : s.phase.isDisposed = true := by
  apply inStep.isDisposed
  · simp [failed]
  · simp [failed]
  · intro active
    simp [inStep.active active] at failed

theorem move {feed after : Feed} {step : FeedStep} {effect : Effect}
    (inStep : feed.subscription.InStep) (move : feed.Move step after effect) :
    after.subscription.InStep := by
  have sound : after.subscription.Sound := inStep.toSound.move move
  cases move with
  | idle => exact inStep
  | push => exact inStep
  | hand => exact inStep
  | endDispose => exact ⟨sound, inStep.registering, inStep.active, inStep.registered⟩
  | start => exact ⟨sound, fun _ => rfl, nofun, nofun⟩
  | @activate token => exact ⟨sound, nofun, fun _ => rfl, fun _ => ⟨token, rfl⟩⟩
  | orphan => exact of_isDisposed sound (sound.orphaned _ rfl)
  | refuse => exact of_isDisposed sound rfl
  | refuseLate requesting late =>
    have disposed := inStep.isDisposed_of_late requesting late
    refine of_isDisposed sound ?_
    rw [if_pos disposed]
    exact disposed
  | report failed => exact of_isDisposed sound (inStep.isDisposed_of_failed failed)
  | releaseOrphan orphaned => exact of_isDisposed sound (inStep.orphaned _ orphaned)
  | drop delivering _ inactive =>
    refine of_isDisposed sound (inStep.isDisposed ?_ ?_ inactive)
    · simp [delivering]
    · simp [delivering]
  | terminate => exact of_isDisposed sound rfl
  | beginDispose => exact of_isDisposed sound (Feed.isDisposed_afterDispose _)

end Subscription.InStep

namespace Feed

variable {feed after : Feed} {step : FeedStep} {effect : Effect}

/-- A subscription that is not disposed of after a step was not disposed of before, and its mailbox still
takes every event. -/
theorem Move.live (move : feed.Move step after effect) (inStep : feed.subscription.InStep)
    (live : after.subscription.phase.isDisposed = false) :
    feed.subscription.phase.isDisposed = false ∧ (feed.Accepts → after.Accepts) := by
  have before : feed.subscription.phase.isDisposed = false := by
    apply Bool.eq_false_iff.mpr
    intro disposed
    have same := move.phase_of_isDisposed disposed
    rw [same, disposed] at live
    cases live
  refine ⟨before, fun accepts => ?_⟩
  cases move with
  | report failed =>
    rw [inStep.isDisposed_of_failed failed] at before
    cases before
  | push event => exact (accepts_push accepts event).1
  | drop _ taken =>
    obtain ⟨-, isOpen, capacity⟩ := items_of_take? taken
    exact ⟨isOpen.trans accepts.1, capacity.trans accepts.2⟩
  | hand _ taken =>
    obtain ⟨-, isOpen, capacity⟩ := items_of_take? taken
    exact ⟨isOpen.trans accepts.1, capacity.trans accepts.2⟩
  | terminate => cases live
  | beginDispose =>
    have disposed := isDisposed_afterDispose feed.subscription.phase
    rw [show feed.subscription.phase.afterDispose.isDisposed = false from live] at disposed
    cases disposed
  | _ => exact accepts

/-- A subscription that is active after a step that grants nothing was active before, with the same
token, and an error that waited in its mailbox waits there still. -/
theorem Move.active (move : feed.Move step after effect) (ungranted : feed.grant? step = none)
    (active : after.subscription.phase = .active) :
    feed.subscription.phase = .active ∧ after.subscription.token = feed.subscription.token ∧
      ∀ event ∈ feed.mailbox.items, event.isTerminal = true → event ∈ after.mailbox.items := by
  cases move with
  | start => cases active
  | activate requesting => simp [grant?, requesting] at ungranted
  | orphan requesting => simp [grant?, requesting] at ungranted
  | refuse => cases active
  | refuseLate =>
    dsimp only at active
    split at active
    · rename_i disposed
      rw [active] at disposed
      cases disposed
    · cases active
  | push event =>
    refine ⟨active, rfl, fun other mem _ => ?_⟩
    dsimp only
    rw [Channel.offer_items]
    exact List.mem_append_left _ mem
  | drop _ _ inactive => exact absurd active inactive
  | terminate => cases active
  | @hand event rest _ taken _ goesOn =>
    obtain ⟨items, -, -⟩ := items_of_take? taken
    refine ⟨active, rfl, fun other mem terminal => ?_⟩
    rw [items] at mem
    rcases List.mem_cons.mp mem with rfl | mem
    · rw [goesOn] at terminal
      cases terminal
    · exact mem
  | beginDispose =>
    have disposed := isDisposed_afterDispose feed.subscription.phase
    rw [show feed.subscription.phase.afterDispose = .active from active] at disposed
    cases disposed
  | _ => exact ⟨active, rfl, fun _ mem _ => mem⟩

/-- A disposal is under way only once it has begun. -/
theorem Move.disposals_eq_nil (move : feed.Move step after effect) (kept : step ≠ .beginDispose)
    (returned : feed.subscription.disposals = []) : after.subscription.disposals = [] := by
  cases move with
  | beginDispose => exact absurd rfl kept
  | endDispose waiting => simp [returned] at waiting
  | _ => exact returned

/-- No step changes what is listened to. -/
theorem Move.target (move : feed.Move step after effect) :
    after.subscription.target = feed.subscription.target := by
  cases move <;> rfl

/-- A feed is at rest when its background work is not begun, or done, or waits for events. -/
theorem atRest_of_idle (returned : feed.subscription.disposals = [])
    (idle : feed.subscription.stage = .idle ∨ feed.subscription.stage = .finished ∨
      feed.subscription.stage = .delivering ∧ feed.mailbox.items = []) : feed.AtRest := by
  intro step pending
  rcases idle with stage | stage | ⟨stage, items⟩
  all_goals
    cases step with
    | start => cases pending
    | push event => cases pending
    | beginDispose => cases pending
    | endDispose place => simp [Feed.step, returned]
    | settle answer => simp [Feed.step, stage]
    | report => simp [Feed.step, stage]
    | releaseOrphan => simp [Feed.step, stage]
    | deliver => simp [Feed.step, deliver, Channel.take?, *]

end Feed

end DocumentStore
