import DocumentStore.Proofs.Remote.Moves

/-! # What the bridge can push

The bridge gets rid of its events as long as a registration goes on: until it is ended or events are no
longer forwarded, the bridge has the sending end of its channel, and this is open. It may have no room for
the moment, but there is no channel without any room. -/

namespace DocumentStore

open Mailboxes

namespace RemoteListener

variable {listener : RemoteListener}

/-- What is needed of a registration for the bridge to get rid of its events. -/
structure Receptive (listener : RemoteListener) : Prop where
  takes : listener.registered = true → listener.forwarding = true →
    listener.attached = true ∧ listener.raw.isOpen = true
  roomy : listener.raw.capacity ≠ some 0

namespace Receptive

private theorem fresh (target : ListenTarget) (mailbox : Nat) {store : RemoteStore}
    (roomy : 0 < store.capacity) : (RemoteListener.fresh target mailbox store).Receptive where
  takes _ _ := ⟨rfl, rfl⟩
  roomy none := roomy.ne' (Option.some.inj none)

private theorem offered (receptive : listener.Receptive) (event : Json) (handle : Option String) :
    (listener.offered event handle).Receptive := by
  unfold RemoteListener.offered
  split
  · exact ⟨fun registered forwarding => by simpa using receptive.takes registered forwarding,
      by simpa using receptive.roomy⟩
  · exact receptive

private theorem ended (receptive : listener.Receptive) (failed : Bool) :
    (RemoteListener.ended failed listener).Receptive := by
  have unregistered := registered_ended failed listener
  refine ⟨fun registered => ?_, ?_⟩
  · rw [unregistered] at registered
    cases registered
  · cases failed <;> exact receptive.roomy

theorem forwardOne (receptive : listener.Receptive) (boxes : Mailboxes) :
    (RemoteStore.forwardOne listener boxes).1.Receptive := by
  have stop : (RemoteStore.RemoteListener.stop listener).Receptive := ⟨nofun, receptive.roomy⟩
  unfold RemoteStore.forwardOne
  split
  · split
    · split
      · exact stop
      · exact ⟨receptive.takes, receptive.roomy⟩
    · exact receptive
    · exact stop
  · split
    · rename_i event raw taken
      have same : raw.isOpen = listener.raw.isOpen ∧ raw.capacity = listener.raw.capacity := by
        unfold Channel.take? at taken
        split at taken
        · cases taken
        · obtain ⟨-, rfl⟩ := Option.some.inj taken
          exact ⟨rfl, rfl⟩
      exact ⟨by rw [same.1]; exact receptive.takes, by rw [same.2]; exact receptive.roomy⟩
    · exact receptive

end Receptive

/-- The channel of a registration that goes on takes an event that the bridge pushes when it has room. -/
theorem Receptive.taken?_eq_some (receptive : listener.Receptive)
    (registered : listener.registered = true) (forwarding : listener.forwarding = true)
    (room : listener.raw.isFull = false) (event : Json) :
    listener.taken? event (some listener.handle) = some event := by
  obtain ⟨attached, isOpen⟩ := receptive.takes registered forwarding
  simp [taken?, hears, Channel.offer, attached, isOpen, room]

/-- An empty channel has room. -/
theorem Receptive.isFull_eq_false (receptive : listener.Receptive) (empty : listener.raw.items = []) :
    listener.raw.isFull = false := by
  have roomy := receptive.roomy
  unfold Channel.isFull
  split
  · rfl
  · rename_i n capacity
    rw [capacity] at roomy
    simpa [empty, Nat.pos_iff_ne_zero] using roomy

end RemoteListener

namespace RemoteStore

variable {store after : RemoteStore} {f : RemoteListener → RemoteListener}

/-- What is needed of all registrations. -/
structure Receptive (store : RemoteStore) : Prop where
  roomy : 0 < store.capacity
  each : ∀ listener ∈ store.listeners, listener.Receptive

namespace Receptive

theorem of_listeners_eq (receptive : store.Receptive) (listeners : after.listeners = store.listeners)
    (capacity : after.capacity = store.capacity) : after.Receptive where
  roomy := capacity ▸ receptive.roomy
  each := listeners ▸ receptive.each

theorem changeAll (receptive : store.Receptive)
    (kept : ∀ listener : RemoteListener, listener.Receptive → (f listener).Receptive) :
    (store.changeAll f).Receptive where
  roomy := receptive.roomy
  each := List.forall_mem_map.mpr fun listener mem => kept listener (receptive.each listener mem)

/-- A change of the registration with a token. -/
theorem atToken (receptive : store.Receptive) (token : Token)
    (kept : ∀ listener : RemoteListener, listener.Receptive → (f listener).Receptive) :
    (store.changeAll (RemoteStore.atToken token f)).Receptive := by
  refine receptive.changeAll fun listener one => ?_
  unfold RemoteStore.atToken
  split
  · exact kept listener one
  · exact one

theorem unlistened (receptive : store.Receptive) {token : Token}
    (unlistened : store.Unlistened token after) : after.Receptive := by
  cases unlistened with
  | idle => exact receptive
  | ended failed =>
    have changed := receptive.atToken token fun listener one => one.ended failed
    exact changed.of_listeners_eq rfl rfl

theorem listened (receptive : store.Receptive) {target : ListenTarget} {mailbox : Nat}
    {answer : Except Error Token} (listened : store.Listened target mailbox answer after) :
    after.Receptive := by
  cases listened with
  | refused => exact receptive.of_listeners_eq rfl rfl
  | granted =>
    exact {
      roomy := receptive.roomy
      each := List.forall_mem_append.mpr
        ⟨receptive.each, List.forall_mem_singleton.mpr (.fresh target mailbox receptive.roomy)⟩ }

theorem settle (receptive : store.Receptive) (number : Nat) (mailbox : Mailbox)
    (released : Option Token) : (store.settle number mailbox released).Receptive := by
  have changed : { store with mailboxes := store.mailboxes.set number mailbox }.Receptive :=
    receptive.of_listeners_eq rfl rfl
  cases released with
  | none => exact changed
  | some token => exact changed.unlistened (unlistened_unlisten token _)

theorem move (receptive : store.Receptive) {step : RemoteStep} (move : store.Move step after) :
    after.Receptive := by
  cases move with
  | emit event handle => exact receptive.changeAll fun listener one => one.offered event handle
  | @forward token listener found enabled =>
    have one := receptive.each listener (List.mem_of_find?_eq_some found)
    have changed := receptive.atToken token fun _ _ => one.forwardOne store.mailboxes
    rw [forward_eq found]
    exact changed.of_listeners_eq rfl rfl
  | listen target place => exact receptive.listened (listened_listen target (place + 1) store)
  | unlisten token => exact receptive.unlistened (unlistened_unlisten token store)
  | replace others => exact receptive.of_listeners_eq rfl rfl
  | invoke => exact receptive.of_listeners_eq rfl rfl
  | respond => exact receptive.of_listeners_eq rfl rfl
  | stuck => exact receptive
  | ignored => exact receptive

end Receptive

end RemoteStore

end DocumentStore
