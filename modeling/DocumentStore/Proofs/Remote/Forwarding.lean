import DocumentStore.Proofs.Listen.Ending
import DocumentStore.Proofs.Remote.Registrations

/-! # From the bridge to the mailbox

An event that the bridge pushes waits in the channel of its registration, is decoded, and is put into
the mailbox of the listener. What was put into the mailbox and what is under way is what the channel
took, in this order, until an error was put there or the mailbox turns out to be closed. -/

namespace DocumentStore

open ListenEvent

namespace RemoteListener

variable {listener after : RemoteListener} {isOpen : Bool} {accepted : List Json}
  {posted : List ListenEvent} {event : Json} {handle : Option String}

/-- The events of a registration on their way into the mailbox. -/
def underway (listener : RemoteListener) : List ListenEvent :=
  listener.pending.toList ++ listener.raw.items.map (Wire.decodeListenEvent listener.target)

/-- Tells whether an event that the bridge pushes is for a registration. -/
def hears (handle : Option String) (listener : RemoteListener) : Bool :=
  listener.attached && handle.all (· == listener.handle)

/-- The registration after the bridge has pushed an event. -/
def offered (event : Json) (handle : Option String) (listener : RemoteListener) : RemoteListener :=
  if listener.hears handle then { listener with raw := (listener.raw.offer event).2 } else listener

/-- The event, if the channel of the registration takes it. -/
def taken? (event : Json) (handle : Option String) (listener : RemoteListener) : Option Json :=
  if listener.hears handle ∧ (listener.raw.offer event).1 = .sent then some event else none

theorem same_offered (event : Json) (handle : Option String) (listener : RemoteListener) :
    listener.Same (listener.offered event handle) ∧
      (listener.offered event handle).registered = listener.registered := by
  unfold offered
  split <;> exact ⟨⟨rfl, rfl, rfl, rfl⟩, rfl⟩

@[simp] theorem target_offered : (listener.offered event handle).target = listener.target :=
  (same_offered event handle listener).1.target

@[simp] theorem forwarding_offered :
    (listener.offered event handle).forwarding = listener.forwarding := by
  unfold offered
  split <;> rfl

theorem underway_offered (event : Json) (handle : Option String) (listener : RemoteListener) :
    (listener.offered event handle).underway
      = listener.underway
        ++ (listener.taken? event handle).toList.map (Wire.decodeListenEvent listener.target) := by
  unfold offered taken?
  by_cases hears : listener.hears handle = true
  · have items := listener.raw.offer_items event
    simp only [underway, hears, if_true, true_and, items, List.map_append, List.append_assoc]
    split <;> rfl
  · simp [hears]

/-- What has become of the events that the channel of a registration took: some were put into the
mailbox, and as long as events are forwarded the others are under way. Forwarding has ended if an error
was put into the mailbox, or if this was found closed. -/
inductive Forwarded (listener : RemoteListener) (isOpen : Bool) (accepted : List Json)
    (posted : List ListenEvent) : Prop
  | running (forwarding : listener.forwarding = true)
      (order : posted ++ listener.underway = accepted.map (Wire.decodeListenEvent listener.target))
      (snapshots : ∀ event ∈ posted, event.isTerminal = false)
  | failed (stopped : listener.forwarding = false)
      (first : posted <+: accepted.map (Wire.decodeListenEvent listener.target))
      (terminal : ∃ event ∈ posted, event.isTerminal = true)
  | cut (stopped : listener.forwarding = false)
      (first : posted <+: accepted.map (Wire.decodeListenEvent listener.target))
      (closed : isOpen = false)

namespace Forwarded

theorem fresh (target : ListenTarget) (mailbox : Nat) (store : RemoteStore) (isOpen : Bool) :
    (RemoteListener.fresh target mailbox store).Forwarded isOpen [] [] :=
  .running rfl rfl (List.forall_mem_nil _)

/-- What was put into the mailbox comes first of what the channel took. -/
theorem first (forwarded : listener.Forwarded isOpen accepted posted) :
    posted <+: accepted.map (Wire.decodeListenEvent listener.target) := by
  cases forwarded with
  | running _ order => exact ⟨_, order⟩
  | failed _ first => exact first
  | cut _ first => exact first

theorem alike (forwarded : listener.Forwarded isOpen accepted posted) (alike : listener.Alike after) :
    after.Forwarded isOpen accepted posted := by
  obtain ⟨⟨-, -, target, -⟩, items, pending, forwarding⟩ := alike
  cases forwarded with
  | running running order snapshots =>
    refine .running (forwarding.trans running) ?_ snapshots
    rw [underway, target, items, pending]
    exact order
  | failed stopped first terminal =>
    exact .failed (forwarding.trans stopped) (target ▸ first) terminal
  | cut stopped first closed => exact .cut (forwarding.trans stopped) (target ▸ first) closed

/-- A mailbox that is closed later makes no difference. -/
theorem mono (forwarded : listener.Forwarded isOpen accepted posted) {isOpen' : Bool}
    (closed : isOpen = false → isOpen' = false) : listener.Forwarded isOpen' accepted posted := by
  cases forwarded with
  | running running order snapshots => exact .running running order snapshots
  | failed stopped first terminal => exact .failed stopped first terminal
  | cut stopped first shut => exact .cut stopped first (closed shut)

theorem offered (forwarded : listener.Forwarded isOpen accepted posted) (event : Json)
    (handle : Option String) :
    (listener.offered event handle).Forwarded isOpen
      (accepted ++ (listener.taken? event handle).toList) posted := by
  have longer : accepted.map (Wire.decodeListenEvent listener.target)
      <+: (accepted ++ (listener.taken? event handle).toList).map
        (Wire.decodeListenEvent listener.target) := by
    rw [List.map_append]
    exact List.prefix_append _ _
  cases forwarded with
  | running running order snapshots =>
    refine .running (by rw [forwarding_offered, running]) ?_ snapshots
    rw [underway_offered, target_offered, ← List.append_assoc, order, List.map_append]
  | failed stopped first terminal =>
    refine .failed (by rw [forwarding_offered, stopped]) ?_ terminal
    rw [target_offered]
    exact first.trans longer
  | cut stopped first closed =>
    refine .cut (by rw [forwarding_offered, stopped]) ?_ closed
    rw [target_offered]
    exact first.trans longer

/-- Events are still forwarded when none of them was an error, provided that the mailbox is closed only
after an error. -/
theorem forwarding_eq_true (forwarded : listener.Forwarded isOpen accepted posted)
    (failed : isOpen = false → ∃ event ∈ posted, event.isTerminal = true)
    (snapshots : ∀ event ∈ accepted.map (Wire.decodeListenEvent listener.target),
      event.isTerminal = false) : listener.forwarding = true := by
  have goesOn : ¬ ∃ event ∈ posted, event.isTerminal = true := by
    rintro ⟨event, mem, terminal⟩
    rw [snapshots event (forwarded.first.subset mem)] at terminal
    cases terminal
  cases forwarded with
  | running running => exact running
  | failed _ _ terminal => exact absurd terminal goesOn
  | cut _ _ closed => exact absurd (failed closed) goesOn

end Forwarded

end RemoteListener

namespace RemoteStore

variable {store : RemoteStore} {listener : RemoteListener} {boxes : Mailboxes} {accepted : List Json}
  {posted : List ListenEvent}

theorem emit_eq (event : Json) (handle : Option String) (store : RemoteStore) :
    (store.emit handle [event]).2 = store.changeAll (.offered event handle) := by
  have pushed : (push event handle store.listeners).2
      = store.listeners.map (.offered event handle) := by
    induction store.listeners with
    | nil => rfl
    | cons listener rest ih =>
      rw [List.map_cons, ← ih, RemoteListener.offered, RemoteListener.hears, push]
      dsimp only
      split <;> rfl
  rw [changeAll, ← pushed]
  rfl

theorem forwarding_of_canForward (enabled : canForward boxes listener = true) :
    listener.forwarding = true :=
  (Bool.and_eq_true_iff.mp enabled).1

/-- Without an event on its way into the mailbox there is one in the channel to be decoded. -/
theorem exists_item_of_canForward (enabled : canForward boxes listener = true)
    (none : listener.pending = none) : ∃ event rest, listener.raw.items = event :: rest := by
  have waiting := (Bool.and_eq_true_iff.mp enabled).2
  rw [none] at waiting
  exact List.exists_cons_of_ne_nil (by simpa using waiting)

/-- The mailboxes are offered an event that was decoded before, and nothing else. -/
theorem mailboxes_forwardOne (listener : RemoteListener) (boxes : Mailboxes) :
    (forwardOne listener boxes).2
      = listener.pending.elim boxes fun event => (Mailboxes.post listener.mailbox event boxes).2 := by
  unfold forwardOne
  cases pending : listener.pending with
  | none =>
    dsimp only [Option.elim]
    split <;> rfl
  | some event =>
    dsimp only [Option.elim]
    split
    · rename_i posted
      rw [posted]
    · rename_i posted
      rw [posted]
    · rename_i posted
      rw [posted]

private theorem same_forwardOne (listener : RemoteListener) (boxes : Mailboxes) :
    listener.Same (forwardOne listener boxes).1 ∧
      (forwardOne listener boxes).1.registered = listener.registered := by
  unfold forwardOne
  repeat' split
  all_goals exact ⟨⟨rfl, rfl, rfl, rfl⟩, rfl⟩

theorem forward_eq {token : Token} (found : store.listener? token = some listener) :
    store.forward token =
      { store.changeAll (atToken token fun _ => (forwardOne listener store.mailboxes).1) with
        mailboxes := (forwardOne listener store.mailboxes).2 } := by
  rw [forward, found]
  rfl

theorem same_atToken {token : Token} (numbered : store.Numbered)
    (found : store.listener? token = some listener) (boxes : Mailboxes) :
    ∀ other ∈ store.listeners,
      other.Same (atToken token (fun _ => (forwardOne listener boxes).1) other) ∧
        (atToken token (fun _ => (forwardOne listener boxes).1) other).registered
          = other.registered := by
  intro other mem
  unfold atToken
  split
  · rename_i same
    have this : store.listener? token = some other :=
      numbered.listener?_eq_some.mpr ⟨mem, eq_of_beq same⟩
    obtain rfl : listener = other := Option.some.inj (found.symm.trans this)
    exact same_forwardOne listener boxes
  · exact ⟨.refl other, rfl⟩

/-- Moving on an event ends no registration. -/
theorem continued_forward {token : Token} (numbered : store.Numbered)
    (found : store.listener? token = some listener) :
    let f := atToken token fun _ => (forwardOne listener store.mailboxes).1
    store.Continued f [] (store.forward token) ∧
      ∀ other ∈ store.listeners, (f other).registered = other.registered := by
  have same := same_atToken numbered found store.mailboxes
  have continued := Continued.changeAll fun other mem => (same other mem).1
  rw [forward_eq found]
  exact ⟨⟨continued.listeners, continued.same⟩, fun other mem => (same other mem).2⟩

/-- An event that is moved on is put into the mailbox or is decoded. -/
theorem forwarded_forwardOne
    (forwarded : listener.Forwarded (Mailboxes.box listener.mailbox boxes).isOpen accepted posted)
    (unlimited : (Mailboxes.box listener.mailbox boxes).capacity = none)
    (enabled : canForward boxes listener = true) :
    (forwardOne listener boxes).1.Forwarded
      (Mailboxes.box listener.mailbox (forwardOne listener boxes).2).isOpen accepted
      (posted ++ listener.pending.toList) := by
  have running := forwarding_of_canForward enabled
  rw [mailboxes_forwardOne]
  cases forwarded with
  | failed stopped => simp [running] at stopped
  | cut stopped => simp [running] at stopped
  | running _ order snapshots =>
    cases pending : listener.pending with
    | none =>
      obtain ⟨event, rest, items⟩ := exists_item_of_canForward enabled pending
      simp only [RemoteListener.underway, pending, items] at order
      simp only [forwardOne, pending, Channel.take?, items, Option.toList_none, List.append_nil]
      exact .running running order snapshots
    | some event =>
      simp only [RemoteListener.underway, pending, Option.toList_some, ← List.append_assoc] at order
      have first : posted ++ [event] <+: accepted.map (Wire.decodeListenEvent listener.target) :=
        ⟨_, order⟩
      simp only [forwardOne, Mailboxes.post, pending, Option.toList_some, Option.elim]
      cases isOpen : (Mailboxes.box listener.mailbox boxes).isOpen with
      | false =>
        have closed : (Mailboxes.box listener.mailbox boxes).offer event
            = (.closed, Mailboxes.box listener.mailbox boxes) := by
          simp [Channel.offer, isOpen]
        simp only [closed]
        refine .cut rfl first ?_
        rw [Mailboxes.box_set]
        split
        · exact isOpen
        · exact isOpen
      | true =>
        have sent := Channel.offer_unbounded_open isOpen unlimited event
        simp only [sent]
        by_cases terminal : event.isTerminal = true
        · rw [if_pos terminal]
          exact .failed rfl first ⟨event, by simp, terminal⟩
        · rw [if_neg terminal]
          refine .running running order ?_
          rw [List.forall_mem_append, List.forall_mem_singleton]
          exact ⟨snapshots, Bool.eq_false_iff.mpr terminal⟩

/-- As long as events are forwarded, nothing is under way when nothing can be moved on. -/
theorem underway_eq_nil (running : listener.forwarding = true)
    (unlimited : (Mailboxes.box listener.mailbox boxes).capacity = none)
    (done : canForward boxes listener = false) : listener.underway = [] := by
  unfold canForward at done
  rw [running, Bool.true_and] at done
  cases pending : listener.pending with
  | none =>
    rw [pending] at done
    have empty : listener.raw.items = [] := by simpa using done
    simp [RemoteListener.underway, pending, empty]
  | some event => simp [pending, Channel.isFull, unlimited] at done

/-- When nothing can be moved on, everything that the channel took up to an error has been put into the
mailbox, provided that this is closed only after an error. -/
theorem upToError_eq_of_forwarded
    (forwarded : listener.Forwarded (Mailboxes.box listener.mailbox boxes).isOpen accepted posted)
    (unlimited : (Mailboxes.box listener.mailbox boxes).capacity = none)
    (done : canForward boxes listener = false)
    (failed : (Mailboxes.box listener.mailbox boxes).isOpen = false →
      ∃ event ∈ posted, event.isTerminal = true) :
    upToError posted = upToError (accepted.map (Wire.decodeListenEvent listener.target)) := by
  cases forwarded with
  | failed _ first terminal => exact upToError_of_terminal first terminal
  | cut _ first closed => exact upToError_of_terminal first (failed closed)
  | running running order =>
    rw [← order, underway_eq_nil running unlimited done, List.append_nil]

end RemoteStore

end DocumentStore
