import DocumentStore.Proofs.Remote.Relay

/-! # The work that is left to do

Background work comes to an end: from every state a subscription at a remote store reaches one in which
nothing waits for its registration or for its observer. What is left to do is counted, an event the more
steps it has still to take. -/

namespace DocumentStore

open Mailboxes RemoteStore

/-- The number of steps that a stage of the background work may take. -/
def Stage.work : Stage → Nat
  | .idle | .finished => 0
  | .requesting => 2
  | .failed .. | .orphaned _ | .delivering => 1

namespace Feed

variable {feed : Feed}

def work (feed : Feed) : Nat :=
  feed.subscription.stage.work + feed.subscription.disposals.length + feed.mailbox.items.length

private theorem work_settle (requesting : feed.subscription.stage = .requesting)
    (answer : Except Error Token) : (feed.step (.settle answer)).1.work < feed.work := by
  have settled : (feed.subscription.settle answer).stage.work = 1 ∧
      (feed.subscription.settle answer).disposals = feed.subscription.disposals := by
    unfold Subscription.settle
    cases answer with
    | ok token =>
      dsimp only
      split <;> exact ⟨rfl, rfl⟩
    | error e => exact ⟨rfl, rfl⟩
  have before : feed.subscription.stage.work = 2 := by rw [requesting]; rfl
  have stepped : (feed.step (.settle answer)).1
      = { feed with subscription := feed.subscription.settle answer } := by
    simp only [Feed.step, requesting]
  rw [stepped, work, work, before, settled.1, settled.2]
  dsimp only
  omega

private theorem work_deliver (delivering : feed.subscription.stage = .delivering) {event : ListenEvent}
    {rest : List ListenEvent} (items : feed.mailbox.items = event :: rest) :
    (feed.step .deliver).1.work < feed.work := by
  have taken : feed.mailbox.take? = some (event, { feed.mailbox with items := rest }) := by
    simp [Channel.take?, items]
  simp only [Feed.step, deliver, delivering, taken, deliverEvent]
  repeat' split
  all_goals
    simp only [work, Subscription.terminate, Channel.close, items, delivering, Stage.work,
      List.length_cons]
    omega

/-- When a feed is not at rest it waits for an answer, or there is a step that it can take by itself
so that less work is left to do. -/
theorem exists_work_lt (unrest : ¬ feed.AtRest) :
    feed.subscription.stage = .requesting ∨
      ∃ step : FeedStep, step.isPending = true ∧ step.isOwn = true ∧
        (feed.step step).1.work < feed.work := by
  cases waiting : feed.subscription.disposals with
  | cons token later =>
    refine .inr ⟨.endDispose 0, rfl, rfl, ?_⟩
    simp [Feed.step, work, waiting]
  | nil =>
    cases stage : feed.subscription.stage with
    | idle => exact absurd (atRest_of_idle waiting (.inl stage)) unrest
    | finished => exact absurd (atRest_of_idle waiting (.inr (.inl stage))) unrest
    | requesting => exact .inl rfl
    | failed e observed =>
      refine .inr ⟨.report, rfl, rfl, ?_⟩
      simp [Feed.step, work, stage, Stage.work, Channel.close]
    | orphaned token =>
      refine .inr ⟨.releaseOrphan, rfl, rfl, ?_⟩
      simp [Feed.step, work, stage, Stage.work]
    | delivering =>
      cases items : feed.mailbox.items with
      | nil => exact absurd (atRest_of_idle waiting (.inr (.inr ⟨stage, items⟩))) unrest
      | cons event rest => exact .inr ⟨.deliver, rfl, rfl, work_deliver stage items⟩

end Feed

/-- The number of steps that the events of a registration may still take, up to the observer. -/
def RemoteListener.work (listener : RemoteListener) : Nat :=
  if listener.forwarding then 3 * listener.raw.items.length + 2 * listener.pending.toList.length
  else 0

/-- An event that is put into a mailbox may take one step there, but more before. -/
theorem RemoteStore.work_forwardOne {listener : RemoteListener} {boxes : Mailboxes} (box : Mailbox)
    (enabled : canForward boxes listener = true) :
    (forwardOne listener boxes).1.work
        + (listener.pending.elim box fun event => (box.offer event).2).items.length
      < listener.work + box.items.length := by
  have forwarding := forwarding_of_canForward enabled
  cases pending : listener.pending with
  | none =>
    obtain ⟨event, rest, items⟩ := exists_item_of_canForward enabled pending
    simp only [forwardOne, pending, Channel.take?, items, RemoteListener.work, forwarding, if_true,
      Option.elim, Option.toList_some, Option.toList_none, List.length_cons, List.length_nil]
    omega
  | some event =>
    have before : listener.work = 3 * listener.raw.items.length + 2 := by
      rw [RemoteListener.work, if_pos forwarding, pending]
      rfl
    have after : (forwardOne listener boxes).1.work ≤ 3 * listener.raw.items.length := by
      have room := (Bool.and_eq_true_iff.mp enabled).2
      rw [pending] at room
      simp only [forwardOne, pending, Mailboxes.post, Channel.offer]
      cases isOpen : (Mailboxes.box listener.mailbox boxes).isOpen with
      | false => exact Nat.zero_le _
      | true =>
        have roomy : (Mailboxes.box listener.mailbox boxes).isFull = false := by
          simpa [isOpen] using room
        simp only [roomy, Bool.not_true, Bool.false_eq_true, if_false]
        split
        · exact Nat.zero_le _
        · rw [RemoteListener.work, if_pos forwarding]
          exact Nat.le_refl _
    have grown : (box.offer event).2.items.length ≤ box.items.length + 1 := by
      rw [Channel.offer_items, List.length_append]
      split
      · exact Nat.le_refl _
      · exact Nat.le_succ _
    rw [before, Option.elim]
    omega

/-- Tells the steps by which work goes on that was begun. -/
def RelayStep.isBackground : RelayStep → Bool
  | .own step => step.isPending
  | .ask | .settle | .other (.forward _) => true
  | .other _ => false

namespace Relay

variable {relay : Relay} {origin : Bridge} {ended : List Token} {listener : RemoteListener}

def work (relay : Relay) : Nat :=
  relay.answer.elim 1 (fun _ => 0) + relay.feed.work
    + relay.registration?.elim 0 RemoteListener.work

/-- No work of the subscription or of its registration is left to do. -/
structure AtRest (relay : Relay) : Prop where
  feed : relay.feed.AtRest
  forwarded : ∀ listener, relay.registration? = some listener →
    canForward relay.store.mailboxes listener = false

namespace Coherent

theorem work_take (coherent : relay.Coherent origin ended) (step : FeedStep) :
    (relay.take step).1.work
      = relay.answer.elim 1 (fun _ => 0) + (relay.feed.step step).1.work
        + relay.registration?.elim 0 RemoteListener.work := by
  obtain ⟨f, alike, same, -⟩ := coherent.registration?_take step
  rw [work, feed_take coherent.serves.inside, same]
  congr 1
  cases relay.registration? with
  | none => rfl
  | some listener =>
    obtain ⟨-, items, pending, forwarding⟩ := alike listener
    rw [Option.map_some, Option.elim, Option.elim, RemoteListener.work, items, pending, forwarding]
    rfl

private theorem work_ask (coherent : relay.Coherent origin ended) (canAsk : relay.canAsk = true) :
    relay.ask.work < relay.work := by
  have unasked := (requesting_of_canAsk canAsk).2
  obtain ⟨nobody, here⟩ := coherent.registration?_ask canAsk
  have idle : relay.ask.registration?.elim 0 RemoteListener.work = 0 := by
    obtain refused | granted := here
    · rw [refused]
      rfl
    · rw [granted]
      rfl
  have answered : relay.ask.answer.elim 1 (fun _ => 0) = 0 := rfl
  rw [work, work, idle, answered, feed_ask, unasked, nobody, Option.elim, Option.elim]
  omega

theorem work_forward (coherent : relay.Coherent origin ended)
    (found : relay.registration? = some listener)
    (enabled : canForward relay.store.mailboxes listener = true) :
    (relay.step (.other (.forward listener.token))).1.work < relay.work := by
  have numbered := coherent.account.numbered
  obtain ⟨mem, own⟩ := coherent.registration?_eq_some.mp found
  have found' : relay.store.listener? listener.token = some listener :=
    numbered.listener?_eq_some.mpr ⟨mem, rfl⟩
  have numbered' := (coherent.account.move (.forward found' enabled)).numbered
  have here := coherent.registration?_continued (continued_forward numbered found').1 numbered'
    relay.subscription
  rw [found, Option.map_some, atToken, if_pos (beq_self_eq_true _)] at here
  have boxes := box_forward found'
  rw [inbound?, if_pos own.symm] at boxes
  have stepped : (relay.step (.other (.forward listener.token))).1
      = { relay with store := relay.store.forward listener.token } := by
    rw [Relay.step, RemoteStore.step, movable?_eq_some.mpr ⟨found', enabled⟩]
    rfl
  have less := work_forwardOne (box 0 relay.store.mailboxes) enabled
  rw [← boxes] at less
  rw [stepped, work, work, found, here]
  simp only [Feed.work, feed, Option.elim] at less ⊢
  omega

theorem exists_step (coherent : relay.Coherent origin ended) (unrest : ¬ relay.AtRest) :
    ∃ step : RelayStep, step.isBackground = true ∧ (relay.step step).1.work < relay.work := by
  by_cases resting : relay.feed.AtRest
  · have waiting : ¬ ∀ listener, relay.registration? = some listener →
        canForward relay.store.mailboxes listener = false :=
      fun forwarded => unrest ⟨resting, forwarded⟩
    simp only [not_forall, Bool.not_eq_false] at waiting
    obtain ⟨listener, found, enabled⟩ := waiting
    exact ⟨.other (.forward listener.token), rfl, coherent.work_forward found enabled⟩
  · obtain requesting | ⟨step, pending, own, less⟩ := Feed.exists_work_lt resting
    · cases answered : relay.answer with
      | none =>
        have canAsk : relay.canAsk = true := by
          have stage : relay.subscription.stage = .requesting := requesting
          simp [canAsk, stage, answered]
        refine ⟨.ask, rfl, ?_⟩
        rw [Relay.step, if_pos canAsk]
        exact coherent.work_ask canAsk
      | some answer =>
        refine ⟨.settle, rfl, ?_⟩
        have less := Feed.work_settle requesting answer
        rw [Relay.step, answered]
        dsimp only
        rw [coherent.work_take, work]
        omega
    · refine ⟨.own step, pending, ?_⟩
      rw [Relay.step, if_pos own, coherent.work_take, work]
      omega

theorem atRest_of_work_eq_zero (coherent : relay.Coherent origin ended) (done : relay.work = 0) :
    relay.AtRest := by
  by_contra unrest
  obtain ⟨step, -, less⟩ := coherent.exists_step unrest
  rw [done] at less
  exact Nat.not_lt_zero _ less

/-- Background work comes to rest. -/
theorem exists_rest (coherent : relay.Coherent origin ended) :
    ∃ later : List RelayStep, (∀ step ∈ later, step.isBackground = true) ∧
      (relay.run later).AtRest := by
  induction bound : relay.work using Nat.strong_induction_on generalizing relay ended with
  | _ n ih =>
    by_cases resting : relay.AtRest
    · exact ⟨[], List.forall_mem_nil _, resting⟩
    · obtain ⟨step, background, less⟩ := coherent.exists_step resting
      obtain ⟨later, all, rest⟩ := ih _ (bound ▸ less) (coherent.step step) rfl
      exact ⟨step :: later, List.forall_mem_cons.mpr ⟨background, all⟩, rest⟩

end Coherent

end Relay

end DocumentStore
