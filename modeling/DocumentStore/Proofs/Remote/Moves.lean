import DocumentStore.Proofs.Remote.Forwarding

/-! # What happens in a remote store

The first mailbox of a remote store is the one that is looked at; the others belong to listeners of which
nothing is known. Whatever happens, the account of the registrations is kept, and the first mailbox gets
the events of its own registration only. -/

namespace DocumentStore

open Mailboxes

/-- What happens in a remote store, apart from what the owner of the first mailbox does. -/
inductive RemoteStep where
  /-- The bridge pushes an event to all registrations, or to the one with a name. -/
  | emit (event : Json) (handle : Option String)
  /-- An event of the registration with a token is moved on. -/
  | forward (token : Token)
  /-- A listener is registered, with a mailbox that has a number among the others. -/
  | listen (target : ListenTarget) (place : Nat)
  /-- Somebody gives a token back. -/
  | unlisten (token : Token)
  /-- Something happens to the other mailboxes. -/
  | replace (others : Mailboxes)
  /-- The bridge is called for an operation that is not about listeners. -/
  | invoke (method : String) (request : Json)
  /-- An answer of the bridge is laid down. -/
  | respond (method : String) (reply : Reply)

/-- The token that somebody gives back in a step. -/
def RemoteStep.givenBack? : RemoteStep → Option Token
  | .unlisten token => some token
  | _ => none

namespace RemoteStore

/-- The registration with a token if one of its events can be moved on. -/
def movable? (token : Token) (store : RemoteStore) : Option RemoteListener :=
  (store.listener? token).filter (canForward store.mailboxes)

def step (store : RemoteStore) : RemoteStep → RemoteStore
  | .emit event handle => (store.emit handle [event]).2
  | .forward token => if (movable? token store).isSome then store.forward token else store
  | .listen target place => (store.listen target (place + 1)).2
  | .unlisten token => (store.unlisten token).2
  | .replace others => { store with mailboxes := box 0 store.mailboxes :: others }
  | .invoke method request =>
    if method = "unlisten" then store else (store.invoke method request).2
  | .respond method reply => { store with bridge := store.bridge.respond method reply }

/-- The store after the mailbox with a number has been changed by its owner, who may also give a token
back. -/
def settle (number : Nat) (mailbox : Mailbox) (released : Option Token) (store : RemoteStore) :
    RemoteStore :=
  let store := { store with mailboxes := store.mailboxes.set number mailbox }
  match released with
  | some token => (store.unlisten token).2
  | none => store

/-- The event of a registration that goes into the first mailbox next. -/
def inbound? (listener : RemoteListener) : Option ListenEvent :=
  if 0 = listener.mailbox then listener.pending else none

variable {store : RemoteStore} {listener : RemoteListener} {token : Token}

theorem movable?_eq_some : movable? token store = some listener ↔
    store.listener? token = some listener ∧ canForward store.mailboxes listener = true :=
  Option.filter_eq_some_iff

theorem mailboxes_unlisten (token : Token) (store : RemoteStore) :
    (store.unlisten token).2.mailboxes = store.mailboxes := by
  obtain ⟨-, -, -, same⟩ := (unlistened_unlisten token store).continued
  exact same

theorem mailboxes_listen (target : ListenTarget) (mailbox : Nat) (store : RemoteStore) :
    (store.listen target mailbox).2.mailboxes = store.mailboxes := by
  obtain ⟨-, -, -, -, same⟩ := (listened_listen target mailbox store).continued
  exact same

theorem mailboxes_settle (number : Nat) (mailbox : Mailbox) (released : Option Token)
    (store : RemoteStore) :
    (store.settle number mailbox released).mailboxes = store.mailboxes.set number mailbox := by
  cases released with
  | none => rfl
  | some token => exact mailboxes_unlisten token _

/-- An event that is moved on goes into the mailbox that its registration has. -/
theorem box_forward (found : store.listener? token = some listener) :
    box 0 (store.forward token).mailboxes
      = (inbound? listener).elim (box 0 store.mailboxes)
        fun event => ((box 0 store.mailboxes).offer event).2 := by
  rw [forward_eq found, inbound?]
  dsimp only
  rw [mailboxes_forwardOne]
  cases listener.pending with
  | none => simp
  | some event =>
    rw [Option.elim, box_post]
    split
    · rename_i own
      rw [own]
      rfl
    · rfl

private theorem inside_forward (found : store.listener? token = some listener)
    (inside : 0 < store.mailboxes.length) : 0 < (store.forward token).mailboxes.length := by
  rw [forward_eq found]
  dsimp only
  rw [mailboxes_forwardOne]
  cases listener.pending with
  | none => exact inside
  | some event => exact inside.trans_eq (length_post _ event _).symm

private theorem undisturbed_forward (found : store.listener? token = some listener) :
    store.bridge.Undisturbed (store.forward token).bridge := by
  rw [forward_eq found]
  exact .refl _

/-- The event that a step puts into the first mailbox. -/
def posted? (store : RemoteStore) : RemoteStep → Option ListenEvent
  | .forward token => (movable? token store).bind inbound?
  | _ => none

/-- The token of the registration that a step adds. -/
def issued? (store : RemoteStore) : RemoteStep → Option Token
  | .listen target place => (store.listen target (place + 1)).1.toOption
  | _ => none

/-- The ways in which a step can change a store. -/
inductive Move (store : RemoteStore) : RemoteStep → RemoteStore → Prop where
  | emit (event : Json) (handle : Option String) :
      Move store (.emit event handle) (store.changeAll (.offered event handle))
  | forward {token : Token} {listener : RemoteListener}
      (found : store.listener? token = some listener)
      (enabled : canForward store.mailboxes listener = true) :
      Move store (.forward token) (store.forward token)
  | listen (target : ListenTarget) (place : Nat) :
      Move store (.listen target place) (store.listen target (place + 1)).2
  | unlisten (token : Token) : Move store (.unlisten token) (store.unlisten token).2
  | replace (others : Mailboxes) :
      Move store (.replace others) { store with mailboxes := box 0 store.mailboxes :: others }
  | invoke {method : String} {request : Json} (other : method ≠ "unlisten") :
      Move store (.invoke method request) (store.invoke method request).2
  | respond (method : String) (reply : Reply) :
      Move store (.respond method reply) { store with bridge := store.bridge.respond method reply }
  /-- Nothing can be moved on. -/
  | stuck {token : Token} (nothing : movable? token store = none) : Move store (.forward token) store
  /-- This is not how the bridge is told of the end of a registration. -/
  | ignored (method : String) (request : Json) : Move store (.invoke method request) store

variable {step : RemoteStep} {after : RemoteStore} {origin : Bridge} {ended : List Token}

/-- Every step is one of the moves. -/
theorem move_step (store : RemoteStore) (step : RemoteStep) : store.Move step (store.step step) := by
  cases step with
  | emit event handle =>
    rw [RemoteStore.step, emit_eq]
    exact .emit event handle
  | forward token =>
    rw [RemoteStore.step]
    cases movable : movable? token store with
    | none => exact .stuck movable
    | some listener =>
      obtain ⟨found, enabled⟩ := movable?_eq_some.mp movable
      exact .forward found enabled
  | listen target place => exact .listen target place
  | unlisten token => exact .unlisten token
  | replace others => exact .replace others
  | invoke method request =>
    rw [RemoteStore.step]
    split
    · exact .ignored method request
    · rename_i other
      exact .invoke other
  | respond method reply => exact .respond method reply

namespace Move

/-- The first mailbox is offered the event that is put there, and it does not go away. -/
theorem mailboxes (move : store.Move step after) :
    box 0 after.mailboxes
        = (store.posted? step).elim (box 0 store.mailboxes)
          (fun event => ((box 0 store.mailboxes).offer event).2) ∧
      (0 < store.mailboxes.length → 0 < after.mailboxes.length) := by
  cases move with
  | forward found enabled =>
    rw [posted?, movable?_eq_some.mpr ⟨found, enabled⟩, Option.bind_some]
    exact ⟨box_forward found, inside_forward found⟩
  | listen target place =>
    rw [mailboxes_listen]
    exact ⟨rfl, id⟩
  | unlisten token =>
    rw [mailboxes_unlisten]
    exact ⟨rfl, id⟩
  | replace others => exact ⟨rfl, fun _ => Nat.zero_lt_succ _⟩
  | stuck nothing =>
    rw [posted?, nothing]
    exact ⟨rfl, id⟩
  | _ => exact ⟨rfl, id⟩

/-- Every registration stays what it is, and a new one is not for the first mailbox. -/
theorem continued (numbered : store.Numbered) (move : store.Move step after) :
    ∃ f more, store.Continued f more after ∧
      more.map RemoteListener.token = (store.issued? step).toList ∧
      ∀ listener ∈ more, listener.mailbox ≠ 0 := by
  cases move with
  | emit event handle =>
    exact ⟨_, [], .changeAll fun l _ => (RemoteListener.same_offered event handle l).1, rfl,
      List.forall_mem_nil _⟩
  | forward found => exact ⟨_, [], (continued_forward numbered found).1, rfl, List.forall_mem_nil _⟩
  | listen target place =>
    obtain ⟨more, continued, tokens, mailbox, -⟩ :=
      (listened_listen target (place + 1) store).continued
    exact ⟨id, more, continued, tokens, fun l mem => by simp [mailbox l mem]⟩
  | unlisten token =>
    obtain ⟨f, continued, -⟩ := (unlistened_unlisten token store).continued
    exact ⟨f, [], continued, rfl, List.forall_mem_nil _⟩
  | _ => exact ⟨id, [], .of_listeners_eq rfl, rfl, List.forall_mem_nil _⟩

end Move

/-- Each step keeps the account of the registrations. -/
theorem Accounted.move (account : store.Accounted origin ended) (move : store.Move step after) :
    after.Accounted origin (ended ++ (step.givenBack?.bind store.ends?).toList) := by
  have kept (account : after.Accounted origin ended) (kept : step.givenBack? = none) :
      after.Accounted origin (ended ++ (step.givenBack?.bind store.ends?).toList) := by
    rw [kept, Option.bind_none, Option.toList_none, List.append_nil]
    exact account
  cases move with
  | emit event handle =>
    have same := RemoteListener.same_offered event handle
    exact kept (account.kept (.refl _) (.changeAll fun l _ => (same l).1) fun l _ => (same l).2) rfl
  | forward found =>
    obtain ⟨continued, registered⟩ := continued_forward account.numbered found
    exact kept (account.kept (undisturbed_forward found) continued registered) rfl
  | listen target place =>
    exact kept (account.listened (listened_listen target (place + 1) store)) rfl
  | unlisten token => exact account.unlistened (unlistened_unlisten token store)
  | replace others =>
    exact kept (account.kept (.refl _) (.of_listeners_eq rfl) fun _ _ => rfl) rfl
  | invoke other =>
    exact kept (account.kept (Bridge.undisturbed_call other) (.of_listeners_eq rfl) fun _ _ => rfl) rfl
  | respond => exact kept (account.kept ⟨rfl, rfl⟩ (.of_listeners_eq rfl) fun _ _ => rfl) rfl
  | stuck => exact kept account rfl
  | ignored => exact kept account rfl

theorem Accounted.settle (account : store.Accounted origin ended) (number : Nat) (mailbox : Mailbox)
    (released : Option Token) :
    (store.settle number mailbox released).Accounted origin
      (ended ++ (released.bind store.ends?).toList) := by
  have changed : { store with mailboxes := store.mailboxes.set number mailbox }.Accounted origin ended :=
    account.kept (.refl _) (.of_listeners_eq rfl) fun _ _ => rfl
  cases released with
  | none =>
    rw [Option.bind_none, Option.toList_none, List.append_nil]
    exact changed
  | some token => exact changed.unlistened (unlistened_unlisten token _)

theorem continued_settle (number : Nat) (mailbox : Mailbox) (released : Option Token)
    (store : RemoteStore) :
    ∃ f, store.Continued f [] (store.settle number mailbox released) ∧
      ∀ listener, RemoteListener.Alike listener (f listener) := by
  cases released with
  | none => exact ⟨id, .of_listeners_eq rfl, .refl⟩
  | some token =>
    obtain ⟨f, continued, alike, -⟩ := (unlistened_unlisten token
      { store with mailboxes := store.mailboxes.set number mailbox }).continued
    exact ⟨f, ⟨continued.listeners, continued.same⟩, alike⟩

/-- What holds of a store which the owner of the first mailbox has asked for one registration at
most. -/
structure Serves (store : RemoteStore) (answer : Option (Except Error Token))
    (target : ListenTarget) : Prop where
  inside : 0 < store.mailboxes.length
  unlimited : (box 0 store.mailboxes).capacity = none
  registered : ∀ token, answer = some (.ok token) → ∃ listener ∈ store.listeners,
    listener.token = token ∧ listener.mailbox = 0 ∧ listener.target = target
  own : ∀ listener ∈ store.listeners, listener.mailbox = 0 → answer = some (.ok listener.token)

namespace Serves

variable {answer : Option (Except Error Token)} {target : ListenTarget}
  {f : RemoteListener → RemoteListener} {more : List RemoteListener}

theorem continued (serves : store.Serves answer target) (continued : store.Continued f more after)
    (others : ∀ listener ∈ more, listener.mailbox ≠ 0) (inside : 0 < after.mailboxes.length)
    (unlimited : (box 0 after.mailboxes).capacity = none) : after.Serves answer target where
  inside := inside
  unlimited := unlimited
  registered token answered := by
    obtain ⟨listener, mem, has, mailbox, what⟩ := serves.registered token answered
    have same := continued.same listener mem
    refine ⟨f listener, ?_, same.token.trans has, same.mailbox.trans mailbox, same.target.trans what⟩
    rw [continued.listeners]
    exact List.mem_append_left _ (List.mem_map_of_mem mem)
  own listener mem first := by
    rw [continued.listeners, List.mem_append, List.mem_map] at mem
    obtain ⟨before, mem, rfl⟩ | mem := mem
    · have same := continued.same before mem
      rw [same.token]
      exact serves.own before mem (same.mailbox.symm.trans first)
    · exact absurd first (others listener mem)

theorem move (serves : store.Serves answer target) (numbered : store.Numbered)
    (move : store.Move step after) : after.Serves answer target := by
  obtain ⟨f, more, continued, -, others⟩ := move.continued numbered
  obtain ⟨box, inside⟩ := move.mailboxes
  refine serves.continued continued others (inside serves.inside) ?_
  rw [box]
  cases store.posted? step with
  | none => exact serves.unlimited
  | some event => exact (Channel.offer_capacity _ _).trans serves.unlimited

theorem settle (serves : store.Serves answer target) {mailbox : Mailbox}
    (unlimited : mailbox.capacity = none) (released : Option Token) :
    (store.settle 0 mailbox released).Serves answer target := by
  obtain ⟨f, continued, -⟩ := continued_settle 0 mailbox released store
  refine serves.continued continued (List.forall_mem_nil _) ?_ ?_
  · rw [mailboxes_settle, List.length_set]
    exact serves.inside
  · rw [mailboxes_settle, box_set, if_pos ⟨rfl, serves.inside⟩]
    exact unlimited

/-- The owner of the first mailbox asks for a registration. -/
theorem listened (serves : store.Serves answer target) (unasked : answer = none)
    {given : Except Error Token} (listened : store.Listened target 0 given after) :
    after.Serves (some given) target := by
  have nobody : ∀ listener ∈ store.listeners, listener.mailbox ≠ 0 := by
    intro listener mem first
    have answered := serves.own listener mem first
    rw [unasked] at answered
    cases answered
  cases listened with
  | refused e =>
    exact {
      inside := serves.inside
      unlimited := serves.unlimited
      registered := nofun
      own := fun listener mem first => absurd first (nobody listener mem) }
  | granted =>
    exact {
      inside := serves.inside
      unlimited := serves.unlimited
      registered := by
        rintro _ ⟨rfl⟩
        exact ⟨_, List.mem_append_right _ (List.mem_singleton_self _), rfl, rfl, rfl⟩
      own := List.forall_mem_append.mpr ⟨fun listener mem first => absurd first (nobody listener mem),
        List.forall_mem_singleton.mpr fun _ => rfl⟩ }

end Serves

end RemoteStore

end DocumentStore
