import DocumentStore.Proofs.Listen.Stages

/-! # The end of a delivery

A registration that was not refused leaves two ways for a subscription to end: the observer is called
with an error, or somebody disposes of the subscription. After an error nothing is owed to the store
any more. Without a disposal the mailbox stays open until an error has been pushed. -/

namespace DocumentStore

namespace ListenEvent

variable {events more : List ListenEvent}

theorem upToError_mono (first : events <+: more) : upToError events <+: upToError more := by
  induction events generalizing more with
  | nil => exact List.nil_prefix
  | cons event events ih =>
    obtain ⟨rest, rfl⟩ := first
    rw [List.cons_append, upToError, upToError]
    split
    · exact List.prefix_refl _
    · exact (List.prefix_cons_inj event).mpr (ih (List.prefix_append _ _))

/-- What comes after an error does not count. -/
theorem upToError_of_terminal (first : events <+: more)
    (failed : ∃ event ∈ events, event.isTerminal = true) : upToError events = upToError more := by
  induction events generalizing more with
  | nil => simp at failed
  | cons event events ih =>
    obtain ⟨rest, rfl⟩ := first
    rw [List.cons_append, upToError, upToError]
    split
    · rfl
    · rename_i goesOn
      rw [List.exists_mem_cons_iff, or_iff_right goesOn] at failed
      rw [ih (List.prefix_append _ _) failed]

/-- Among the first of some events up to an error, an error is the last one. -/
theorem eq_concat_of_terminal {event : ListenEvent} (first : events <+: upToError more)
    (mem : event ∈ events) (terminal : event.isTerminal = true) :
    ∃ earlier, events = earlier ++ [event] ∧ ∀ other ∈ earlier, other.isTerminal = false := by
  induction more generalizing events with
  | nil =>
    rw [List.prefix_nil.mp first] at mem
    cases mem
  | cons next more ih =>
    cases events with
    | nil => cases mem
    | cons head events =>
      rw [upToError] at first
      split at first
      · obtain ⟨rfl, nothing⟩ := List.cons_prefix_cons.mp first
        obtain rfl := List.prefix_nil.mp nothing
        obtain rfl := List.mem_singleton.mp mem
        exact ⟨[], rfl, List.forall_mem_nil _⟩
      · rename_i goesOn
        obtain ⟨rfl, rest⟩ := List.cons_prefix_cons.mp first
        rcases List.mem_cons.mp mem with rfl | mem
        · exact absurd terminal goesOn
        · obtain ⟨earlier, rfl, snapshots⟩ := ih rest mem
          exact ⟨head :: earlier, rfl,
            List.forall_mem_cons.mpr ⟨Bool.eq_false_iff.mpr goesOn, snapshots⟩⟩

end ListenEvent

namespace Feed

open ListenEvent

variable {feed after : Feed} {step : FeedStep} {steps : List FeedStep} {effect : Effect}
  {event : ListenEvent}

theorem eq_settle_of_grant {token : Token} (granted : feed.grant? step = some token) :
    step = .settle (.ok token) := by
  unfold grant? at granted
  split at granted
  · split at granted
    · rw [Option.some.inj granted]
    · cases granted
  · cases granted

private theorem eq_settle_of_refusal {e : Error} (refused : feed.refusal? step = some e) :
    step = .settle (.error e) := by
  unfold refusal? at refused
  split at refused
  · split at refused
    · rw [Option.some.inj refused]
    · cases refused
  · cases refused

/-- Background work that was begun does not go back to its beginning. -/
theorem Move.begun (move : feed.Move step after effect) (begun : feed.subscription.stage ≠ .idle) :
    after.subscription.stage ≠ .idle := by
  cases move with
  | idle => exact begun
  | push => exact begun
  | hand => exact begun
  | beginDispose => exact begun
  | endDispose => exact begun
  | _ => exact nofun

/-- Background work that has come further than to wait for an answer does not go back there. -/
theorem Move.waiting (move : feed.Move step after effect) (sound : feed.subscription.Sound)
    (waiting : after.subscription.stage = .idle ∨ after.subscription.stage = .requesting) :
    feed.subscription.stage = .idle ∨ feed.subscription.stage = .requesting := by
  cases move with
  | idle => exact waiting
  | start created => exact .inl (sound.created created)
  | push => exact waiting
  | hand => exact waiting
  | beginDispose => exact waiting
  | endDispose => exact waiting
  | _ => simp [Subscription.terminate] at waiting

/-- An answer that was waited for is not waited for any more. -/
theorem Move.not_waiting {answer : Except Error Token} (move : feed.Move (.settle answer) after effect)
    (requesting : feed.subscription.stage = .requesting) :
    ¬ (after.subscription.stage = .idle ∨ after.subscription.stage = .requesting) := by
  cases move with
  | idle unasked => exact absurd requesting (unasked answer rfl)
  | _ => simp

/-- A token is granted by an answer. -/
theorem settle_mem_of_granted {token : Token} (mem : token ∈ feed.granted steps) :
    .settle (.ok token) ∈ steps := by
  induction steps generalizing feed with
  | nil => cases mem
  | cons step steps ih =>
    rcases List.mem_append.mp mem with mem | mem
    · rw [eq_settle_of_grant (Option.mem_toList.mp mem)]
      exact List.mem_cons_self
    · exact List.mem_cons_of_mem _ (ih mem)

/-- A refusal is an answer. -/
theorem settle_mem_of_refused {e : Error} (mem : e ∈ feed.refused steps) :
    .settle (.error e) ∈ steps := by
  induction steps generalizing feed with
  | nil => cases mem
  | cons step steps ih =>
    rcases List.mem_append.mp mem with mem | mem
    · rw [eq_settle_of_refusal (Option.mem_toList.mp mem)]
      exact List.mem_cons_self
    · exact List.mem_cons_of_mem _ (ih mem)

/-- Without an answer and without a disposal a feed goes on waiting. -/
theorem Waiting.waiting_run (waiting : feed.Waiting) (kept : .beginDispose ∉ steps)
    (ungranted : feed.granted steps = []) (unrefused : feed.refused steps = []) :
    (feed.run steps).Waiting := by
  induction steps generalizing feed with
  | nil => exact waiting
  | cons step steps ih =>
    rw [List.mem_cons, not_or] at kept
    rw [Feed.granted, List.append_eq_nil_iff] at ungranted
    rw [Feed.refused, List.append_eq_nil_iff] at unrefused
    cases waiting.answered step with
    | waits waiting => exact ih waiting kept.2 ungranted.2 unrefused.2
    | granted delivering =>
      have active := (feed.move_step step).active (by simpa using ungranted.1) delivering.active
      exact absurd active.1 waiting.pending.2.1
    | refused e refused => simp [refused] at unrefused
    | disposed stopped => exact absurd stopped.symm kept.1

/-- An answer is not waited for when no work is left to do. -/
theorem AtRest.not_requesting (atRest : feed.AtRest) : feed.subscription.stage ≠ .requesting := by
  intro requesting
  have answered := congrArg (fun result => result.1.subscription.stage)
    (atRest (.settle (.ok 0)) rfl)
  simp only [Feed.step, requesting, Subscription.settle] at answered
  split at answered <;> cases answered

/-- No step changes what is listened to. -/
theorem target_run (feed : Feed) (steps : List FeedStep) :
    (feed.run steps).subscription.target = feed.subscription.target := by
  induction steps generalizing feed with
  | nil => rfl
  | cons step steps ih => exact (ih _).trans (feed.move_step step).target

/-- No step gives a mailbox more room or opens it again. -/
theorem Move.mailbox (move : feed.Move step after effect) :
    after.mailbox.capacity = feed.mailbox.capacity ∧
      (feed.mailbox.isOpen = false → after.mailbox.isOpen = false) := by
  cases move with
  | push event =>
    rw [Channel.offer_capacity, Channel.offer_isOpen]
    exact ⟨rfl, id⟩
  | report => exact ⟨rfl, fun _ => rfl⟩
  | beginDispose => exact ⟨rfl, fun _ => rfl⟩
  | drop _ taken =>
    obtain ⟨-, isOpen, capacity⟩ := items_of_take? taken
    exact ⟨capacity, isOpen.trans⟩
  | hand _ taken =>
    obtain ⟨-, isOpen, capacity⟩ := items_of_take? taken
    exact ⟨capacity, isOpen.trans⟩
  | terminate _ taken =>
    obtain ⟨-, -, capacity⟩ := items_of_take? taken
    exact ⟨capacity, fun _ => rfl⟩
  | _ => exact ⟨rfl, id⟩

theorem Delivering.isOpen_or_failed (delivering : feed.Delivering) (kept : .beginDispose ∉ steps) :
    (feed.run steps).mailbox.isOpen = true ∨
      ∃ event ∈ feed.mailbox.items ++ pushed steps, event.isTerminal = true := by
  induction steps generalizing feed with
  | nil => exact .inl delivering.accepts.1
  | cons step steps ih =>
    rw [List.mem_cons, not_or] at kept
    rw [pushed_cons, ← List.append_assoc]
    cases delivering.progress step with
    | goesOn delivering snapshots order =>
      rw [order, List.append_assoc]
      exact (ih delivering kept.2).imp_right fun ⟨event, mem, terminal⟩ =>
        ⟨event, List.mem_append_right _ mem, terminal⟩
    | disposed stopped => exact absurd stopped.symm kept.1
    | failed event rest first terminal =>
      exact .inr ⟨event, by simp [first], terminal⟩

theorem Waiting.isOpen_or_failed (waiting : feed.Waiting) (kept : .beginDispose ∉ steps)
    (unrefused : feed.refused steps = []) :
    (feed.run steps).mailbox.isOpen = true ∨
      ∃ event ∈ feed.mailbox.items ++ pushed steps, event.isTerminal = true := by
  induction steps generalizing feed with
  | nil => exact .inl waiting.accepts.1
  | cons step steps ih =>
    rw [List.mem_cons, not_or] at kept
    rw [Feed.refused, List.append_eq_nil_iff] at unrefused
    rw [pushed_cons, ← List.append_assoc]
    cases waiting.answered step with
    | waits waiting _ _ order =>
      rw [order]
      exact ih waiting kept.2 unrefused.2
    | granted delivering _ order =>
      rw [order]
      exact delivering.isOpen_or_failed kept.2
    | refused e refused => simp [refused] at unrefused
    | disposed stopped => exact absurd stopped.symm kept.1

private theorem owed_run_eq_nil (sound : feed.subscription.Sound)
    (answered : feed.subscription.stage.isAnswered = true) (nothing : feed.owed = [])
    (steps : List FeedStep) : (feed.run steps).owed = [] := by
  have accounts := released_owed_run sound steps
  rw [nothing, granted_eq_nil sound answered] at accounts
  exact (List.append_eq_nil_iff.mp accounts.eq_nil).2

theorem Delivering.owed_of_terminal (delivering : feed.Delivering)
    (move : feed.Move step after effect) (told : effect.notified = some event)
    (terminal : event.isTerminal = true) :
    after.owed = [] ∧ after.subscription.stage.isAnswered = true := by
  have returned : feed.subscription.disposals = [] := delivering.undisposed
  cases move with
  | report failed => simp [delivering.stage] at failed
  | terminate =>
    simp [owed, Subscription.terminate, Stage.orphan?, returned, Stage.isAnswered]
  | hand _ _ _ goesOn =>
    rw [if_pos delivering.observing] at told
    rw [Option.some.inj told, terminal] at goesOn
    cases goesOn
  | _ => cases told

private theorem Delivering.owed_of_heard (delivering : feed.Delivering) (mem : event ∈ feed.heard steps)
    (terminal : event.isTerminal = true) : (feed.run steps).owed = [] := by
  induction steps generalizing feed with
  | nil => cases mem
  | cons step steps ih =>
    have move := feed.move_step step
    rcases List.mem_append.mp mem with now | later
    · have told := Option.mem_toList.mp now
      obtain ⟨nothing, answered⟩ := delivering.owed_of_terminal move told terminal
      exact owed_run_eq_nil (delivering.sound.move move) answered nothing steps
    · cases delivering.progress step with
      | goesOn delivering => exact ih delivering later
      | disposed _ _ silent => simp [silent.heard] at later
      | failed _ _ _ _ _ silent => simp [silent.heard] at later

/-- An observer that is told of an error was told of no refusal: a token had been granted, and it has
been given back. -/
theorem Waiting.owed_of_heard (waiting : feed.Waiting) (unrefused : feed.refused steps = [])
    (mem : event ∈ feed.heard steps) (terminal : event.isTerminal = true) :
    (feed.run steps).owed = [] ∧ feed.granted steps ≠ [] := by
  induction steps generalizing feed with
  | nil => cases mem
  | cons step steps ih =>
    rw [Feed.refused, List.append_eq_nil_iff] at unrefused
    have move := feed.move_step step
    cases waiting.answered step with
    | waits waiting _ _ _ untold =>
      rw [Feed.heard, untold] at mem
      obtain ⟨nothing, granted⟩ := ih waiting unrefused.2 mem
      rw [Feed.granted]
      exact ⟨nothing, fun none => granted (List.append_eq_nil_iff.mp none).2⟩
    | granted delivering _ _ untold =>
      rw [Feed.heard, untold] at mem
      refine ⟨delivering.owed_of_heard mem terminal, fun none => ?_⟩
      have ungranted := (List.append_eq_nil_iff.mp none).1
      have active := move.active (by simpa using ungranted) delivering.active
      exact waiting.pending.2.1 active.1
    | refused e refused => simp [refused] at unrefused
    | disposed _ untold silent =>
      rw [Feed.heard, untold, silent.heard] at mem
      cases mem

end Feed

end DocumentStore
