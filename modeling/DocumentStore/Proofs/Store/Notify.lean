import DocumentStore.Proofs.Store.Commit

/-! # What listeners are sent

Which events a store puts into mailboxes is told listener by listener. A listener whose mailbox takes
everything is sent one event when the writes concern its target, and it stays registered. -/

namespace DocumentStore

namespace Channel

variable {α : Type}

@[simp] theorem offer_isOpen (a : α) (c : Channel α) : (c.offer a).2.isOpen = c.isOpen := by
  unfold offer
  split
  · rfl
  · split <;> rfl

@[simp] theorem offer_capacity (a : α) (c : Channel α) :
    (c.offer a).2.capacity = c.capacity := by
  unfold offer
  split
  · rfl
  · split <;> rfl

/-- A channel grows by the items that it was sent. -/
theorem offer_items (a : α) (c : Channel α) :
    (c.offer a).2.items = c.items ++ if (c.offer a).1 = .sent then [a] else [] := by
  unfold offer
  split
  · simp
  · split <;> simp

end Channel

namespace Mailboxes

variable {boxes : Mailboxes} {id other : Nat}

/-- The mailbox with a number is open and has room for any number of events. -/
def Unlimited (id : Nat) (boxes : Mailboxes) : Prop :=
  (box id boxes).isOpen = true ∧ (box id boxes).capacity = none

theorem box_set (box' : Mailbox) (boxes : Mailboxes) :
    box other (boxes.set id box') = if other = id ∧ id < boxes.length then box' else box other boxes := by
  unfold box
  rw [List.getD_eq_getElem?_getD, List.getD_eq_getElem?_getD, List.getElem?_set]
  by_cases same : id = other
  · subst same
    by_cases inside : id < boxes.length <;> simp [inside]
  · simp [same, Ne.symm same]

/-- An offer reaches the mailbox with its number and no other. -/
theorem box_post (event : ListenEvent) (boxes : Mailboxes) :
    box other (post id event boxes).2
      = if other = id then ((box id boxes).offer event).2 else box other boxes := by
  show box other (boxes.set id ((box id boxes).offer event).2) = _
  rw [box_set]
  by_cases inside : id < boxes.length
  · simp [inside]
  · -- A mailbox that was never set up is closed and stays as it is.
    have closed : box id boxes = ⟨none, false, []⟩ := by
      rw [box, List.getD_eq_getElem?_getD, List.getElem?_eq_none (Nat.le_of_not_lt inside)]
      rfl
    simp only [inside, and_false, if_false, closed]
    split
    · rename_i same
      rw [same, closed]
      rfl
    · rfl

theorem Unlimited.post (h : Unlimited other boxes) (id : Nat) (event : ListenEvent) :
    Unlimited other (post id event boxes).2 := by
  unfold Unlimited
  rw [box_post]
  split
  · rename_i same
    subst same
    rw [Channel.offer_isOpen, Channel.offer_capacity]
    exact h
  · exact h

theorem length_post (id : Nat) (event : ListenEvent) (boxes : Mailboxes) :
    (post id event boxes).2.length = boxes.length :=
  List.length_set

/-- A mailbox that takes everything is sent what it is offered. -/
theorem Unlimited.sent (h : Unlimited id boxes) (event : ListenEvent) :
    (Mailboxes.post id event boxes).1 = .sent := by
  show ((box id boxes).offer event).1 = .sent
  rw [Channel.offer_unbounded_open h.1 h.2]

end Mailboxes

/-- An event that was put into the mailbox of a registration. -/
structure Sending where
  token : Token
  mailbox : Nat
  event : ListenEvent

namespace Sending

def eventsFor (token : Token) (sendings : List Sending) : List ListenEvent :=
  (sendings.filter fun sending => sending.token == token).map event

/-- The events that went into one mailbox. -/
def eventsInto (id : Nat) (sendings : List Sending) : List ListenEvent :=
  (sendings.filter fun sending => sending.mailbox == id).map event

@[simp] theorem eventsInto_nil (id : Nat) : eventsInto id [] = [] := rfl

@[simp] theorem eventsFor_append (token : Token) (earlier later : List Sending) :
    eventsFor token (earlier ++ later) = eventsFor token earlier ++ eventsFor token later := by
  simp [eventsFor]

@[simp] theorem eventsInto_append (id : Nat) (earlier later : List Sending) :
    eventsInto id (earlier ++ later) = eventsInto id earlier ++ eventsInto id later := by
  simp [eventsInto]

end Sending

namespace Listener

variable {listener : Listener} {boxes : Mailboxes} {event : ListenEvent}

open Sending

/-- What an event offered to a listener adds to the events sent. -/
def sending (listener : Listener) (event : ListenEvent) (boxes : Mailboxes) : List Sending :=
  if (Mailboxes.post listener.mailbox event boxes).1 = .sent then
    [⟨listener.token, listener.mailbox, event⟩]
  else []

/-- An event is sent when, and only when, it is put into the mailbox. -/
theorem items_post (listener : Listener) (event : ListenEvent) (boxes : Mailboxes) (id : Nat) :
    (Mailboxes.box id (Mailboxes.post listener.mailbox event boxes).2).items
      = (Mailboxes.box id boxes).items ++ eventsInto id (listener.sending event boxes) := by
  rw [Mailboxes.box_post, sending]
  by_cases same : id = listener.mailbox
  · subst same
    rw [if_pos rfl, Channel.offer_items]
    show _ = _ ++ eventsInto _
      (if ((Mailboxes.box listener.mailbox boxes).offer event).1 = .sent then _ else _)
    split <;> simp [eventsInto]
  · rw [if_neg same]
    split <;> simp [eventsInto, Ne.symm same]

theorem eventsFor_sending_of_ne {token : Token} (ne : listener.token ≠ token) :
    eventsFor token (listener.sending event boxes) = [] := by
  rw [sending]
  split <;> simp [eventsFor, ne]

theorem eventsFor_sending (unlimited : Mailboxes.Unlimited listener.mailbox boxes) :
    eventsFor listener.token (listener.sending event boxes) = [event] := by
  rw [sending, if_pos (unlimited.sent event)]
  simp [eventsFor]

end Listener

namespace Store

variable {documents : Documents} {writes : List WriteOperation} {listeners : List Listener}
  {boxes : Mailboxes} {listener : Listener}

open Sending

/-- Tells whether one of the writes concerns a target. -/
def concerned (target : ListenTarget) (writes : List WriteOperation) : Bool :=
  writes.any fun write => target.concerns write.key

/-- The events that a notification sends. -/
def notifications (documents : Documents) (writes : List WriteOperation) :
    List Listener → Mailboxes → List Sending
  | [], _ => []
  | listener :: rest, boxes =>
    if concerned listener.target writes then
      let event := documents.eventFor listener.target
      listener.sending event boxes ++
        notifications documents writes rest (Mailboxes.post listener.mailbox event boxes).2
    else notifications documents writes rest boxes

/-- A notification changes the mailboxes by the events that it sends. -/
theorem items_notify (id : Nat) :
    (Mailboxes.box id (notify documents writes listeners boxes).2).items
      = (Mailboxes.box id boxes).items
        ++ eventsInto id (notifications documents writes listeners boxes) := by
  induction listeners generalizing boxes with
  | nil => simp [notify, notifications]
  | cons listener rest ih =>
    unfold notify notifications concerned
    split
    · simp only [ih, Listener.items_post, eventsInto_append, List.append_assoc]
    · exact ih

theorem unlimited_notify {id : Nat} (unlimited : Mailboxes.Unlimited id boxes) :
    Mailboxes.Unlimited id (notify documents writes listeners boxes).2 := by
  induction listeners generalizing boxes with
  | nil => exact unlimited
  | cons listener rest ih =>
    unfold notify
    split
    · exact ih (unlimited.post listener.mailbox _)
    · exact ih unlimited

theorem notify_sublist : (notify documents writes listeners boxes).1.Sublist listeners := by
  induction listeners generalizing boxes with
  | nil => exact List.Sublist.refl []
  | cons listener rest ih =>
    unfold notify
    split
    · dsimp only
      split
      · exact ih.cons_cons listener
      · exact ih.cons listener
    · exact ih.cons_cons listener

theorem mem_notify (mem : listener ∈ listeners)
    (unlimited : Mailboxes.Unlimited listener.mailbox boxes)
    (goesOn : (documents.eventFor listener.target).isTerminal = false) :
    listener ∈ (notify documents writes listeners boxes).1 := by
  induction listeners generalizing boxes with
  | nil => cases mem
  | cons first rest ih =>
    unfold notify
    rcases List.mem_cons.mp mem with rfl | mem
    · split
      · simp only [unlimited.sent, continues, goesOn]
        exact List.mem_cons_self
      · exact List.mem_cons_self
    · split
      · have tail := ih mem (unlimited.post first.mailbox (documents.eventFor first.target))
        dsimp only
        split
        · exact List.mem_cons_of_mem _ tail
        · exact tail
      · exact List.mem_cons_of_mem _ (ih mem unlimited)

theorem length_notify : (notify documents writes listeners boxes).2.length = boxes.length := by
  induction listeners generalizing boxes with
  | nil => rfl
  | cons first rest ih =>
    unfold notify
    split
    · exact ih.trans (Mailboxes.length_post first.mailbox _ boxes)
    · exact ih

theorem items_subset_notify (id : Nat) :
    (Mailboxes.box id boxes).items ⊆ (Mailboxes.box id (notify documents writes listeners boxes).2).items := by
  rw [items_notify]
  exact List.subset_append_left _ _

/-- A listener that is told of an error finds it in its mailbox, and every other one stays. -/
theorem mem_notify_or_terminal (mem : listener ∈ listeners)
    (unlimited : Mailboxes.Unlimited listener.mailbox boxes) :
    listener ∈ (notify documents writes listeners boxes).1 ∨
      ∃ event ∈ (Mailboxes.box listener.mailbox (notify documents writes listeners boxes).2).items,
        event.isTerminal = true := by
  cases terminal : (documents.eventFor listener.target).isTerminal with
  | false => exact .inl (mem_notify mem unlimited terminal)
  | true =>
    induction listeners generalizing boxes with
    | nil => cases mem
    | cons first rest ih =>
      unfold notify
      rcases List.mem_cons.mp mem with rfl | mem
      · split
        · right
          refine ⟨_, ?_, terminal⟩
          apply items_subset_notify
          rw [Mailboxes.box_post, if_pos rfl, Channel.offer_unbounded_open unlimited.1 unlimited.2]
          exact List.mem_append_right _ List.mem_cons_self
        · exact .inl List.mem_cons_self
      · split
        · refine (ih mem (unlimited.post first.mailbox _)).imp ?_ id
          intro kept
          dsimp only
          split
          · exact List.mem_cons_of_mem _ kept
          · exact kept
        · exact (ih mem unlimited).imp (List.mem_cons_of_mem _) id

private theorem eventsFor_notifications_of_ne {token : Token}
    (ne : ∀ listener ∈ listeners, listener.token ≠ token) :
    eventsFor token (notifications documents writes listeners boxes) = [] := by
  induction listeners generalizing boxes with
  | nil => rfl
  | cons listener rest ih =>
    rw [List.forall_mem_cons] at ne
    unfold notifications
    split
    · rw [eventsFor_append, Listener.eventsFor_sending_of_ne ne.1, ih ne.2]
      rfl
    · exact ih ne.2

/-- A listener is sent one snapshot when the writes concern its target, and nothing otherwise. -/
theorem eventsFor_notifications (mem : listener ∈ listeners)
    (distinct : (listeners.map Listener.token).Nodup)
    (unlimited : Mailboxes.Unlimited listener.mailbox boxes) :
    eventsFor listener.token (notifications documents writes listeners boxes)
      = if concerned listener.target writes then [documents.eventFor listener.target] else [] := by
  induction listeners generalizing boxes with
  | nil => cases mem
  | cons first rest ih =>
    rw [List.map_cons, List.nodup_cons, List.mem_map] at distinct
    unfold notifications
    rcases List.mem_cons.mp mem with rfl | mem
    · have others : ∀ other ∈ rest, other.token ≠ listener.token :=
        fun other hother same => distinct.1 ⟨other, hother, same⟩
      split
      · rw [eventsFor_append, Listener.eventsFor_sending unlimited,
          eventsFor_notifications_of_ne others]
        rfl
      · exact eventsFor_notifications_of_ne others
    · have ne : first.token ≠ listener.token := fun same =>
        distinct.1 ⟨listener, mem, same.symm⟩
      split
      · rw [eventsFor_append, Listener.eventsFor_sending_of_ne ne, List.nil_append,
          ih mem distinct.2 (unlimited.post first.mailbox _)]
      · exact ih mem distinct.2 unlimited

end Store

end DocumentStore
