import DocumentStore.Proofs.Remote.Transaction
import Mathlib.Data.List.Nodup
import Mathlib.Data.List.Range

/-! # The registrations of a remote store

A remote store numbers its registrations from one and forgets none of them, so a token stands for one
registration for good. The bridge is told of the end of a registration once, by the name that it gave
it, when the token is given back for the first time. -/

namespace DocumentStore

namespace Bridge

/-- The name of the registration that a call ends. -/
def endedBy? (call : Call) : Option String :=
  if call.method = "unlisten" then
    match call.request with
    | .string handle => some handle
    | _ => none
  else none

/-- The names of the registrations that the bridge was told to end, in order. -/
def ended (bridge : Bridge) : List String := bridge.calls.filterMap endedBy?

variable {bridge after : Bridge} {method : String} {request : Json}

/-- Another state of the same bridge, which was told of no end in between. -/
structure Undisturbed (bridge after : Bridge) : Prop where
  names : after.names = bridge.names
  ended : after.ended = bridge.ended

theorem Undisturbed.refl (bridge : Bridge) : bridge.Undisturbed bridge := ⟨rfl, rfl⟩

theorem undisturbed_call (other : method ≠ "unlisten") :
    bridge.Undisturbed (bridge.call method request).2 where
  names := rfl
  ended := by simp [ended, call, endedBy?, other]

private theorem ended_call_unlisten (bridge : Bridge) (handle : String) :
    (bridge.call "unlisten" (.string handle)).2.ended = bridge.ended ++ [handle] := by
  simp [ended, call, endedBy?]

end Bridge

namespace RemoteListener

/-- Two states of one registration. -/
structure Same (listener after : RemoteListener) : Prop where
  token : after.token = listener.token
  handle : after.handle = listener.handle
  target : after.target = listener.target
  mailbox : after.mailbox = listener.mailbox

theorem Same.refl (listener : RemoteListener) : listener.Same listener := ⟨rfl, rfl, rfl, rfl⟩

/-- Two states of one registration between which none of its events was moved on. -/
structure Alike (listener after : RemoteListener) : Prop extends Same listener after where
  items : after.raw.items = listener.raw.items
  pending : after.pending = listener.pending
  forwarding : after.forwarding = listener.forwarding

theorem Alike.refl (listener : RemoteListener) : listener.Alike listener :=
  ⟨.refl listener, rfl, rfl, rfl⟩

/-- The registration after the store has ended it. -/
def withdrawn (listener : RemoteListener) : RemoteListener :=
  { listener with registered := false, raw := listener.raw.close }

/-- The registration after the bridge has let go of it. -/
def detached (listener : RemoteListener) : RemoteListener := { listener with attached := false }

/-- The registration after its end, which the bridge may have failed to bring about. -/
def ended (failed : Bool) : RemoteListener → RemoteListener :=
  if failed then withdrawn else detached ∘ withdrawn

private theorem alike_ended (failed : Bool) (listener : RemoteListener) :
    listener.Alike (ended failed listener) := by
  cases failed <;> exact ⟨⟨rfl, rfl, rfl, rfl⟩, rfl, rfl, rfl⟩

theorem registered_ended (failed : Bool) (listener : RemoteListener) :
    (ended failed listener).registered = false := by
  cases failed <;> rfl

/-- The registration of a listener with a new number. -/
def fresh (target : ListenTarget) (mailbox : Nat) (store : RemoteStore) : RemoteListener :=
  { token := store.listeners.length + 1
    handle := store.bridge.names (store.listeners.length + 1)
    target, mailbox
    raw := .bounded store.capacity
    attached := true, registered := true, pending := none, forwarding := true }

end RemoteListener

namespace RemoteStore

variable {store after : RemoteStore} {listener : RemoteListener} {token other : Token}
  {target : ListenTarget} {mailbox : Nat} {f : RemoteListener → RemoteListener}
  {ended : List Token}

/-- The tokens of the registrations count from one. -/
def Numbered (store : RemoteStore) : Prop :=
  store.listeners.map RemoteListener.token = List.range' 1 store.listeners.length

theorem Numbered.nodup (numbered : store.Numbered) :
    (store.listeners.map RemoteListener.token).Nodup := by
  rw [numbered]
  exact List.nodup_range'

private theorem Numbered.token_le (numbered : store.Numbered) (mem : listener ∈ store.listeners) :
    listener.token ≤ store.listeners.length := by
  have counted : listener.token ∈ List.range' 1 store.listeners.length := by
    rw [← numbered]
    exact List.mem_map_of_mem mem
  exact Nat.lt_one_add_iff.mp (List.mem_range'_1.mp counted).2

/-- The registration that is found for a token is the one that has it. -/
theorem Numbered.listener?_eq_some (numbered : store.Numbered) :
    store.listener? token = some listener ↔ listener ∈ store.listeners ∧ listener.token = token := by
  unfold listener?
  constructor
  · intro found
    exact ⟨List.mem_of_find?_eq_some found, by simpa using List.find?_some found⟩
  · rintro ⟨mem, rfl⟩
    cases found : store.listeners.find? fun other => other.token == listener.token with
    | none => simpa using List.find?_eq_none.mp found listener mem
    | some first =>
      have same : first.token = listener.token := by simpa using List.find?_some found
      rw [List.inj_on_of_nodup_map numbered.nodup (List.mem_of_find?_eq_some found) mem same]

/-- The store with every registration changed. -/
def changeAll (f : RemoteListener → RemoteListener) (store : RemoteStore) : RemoteStore :=
  { store with listeners := store.listeners.map f }

/-- A change of the registrations with a token, as a change of all of them. -/
def atToken (token : Token) (f : RemoteListener → RemoteListener) (listener : RemoteListener) :
    RemoteListener :=
  if listener.token == token then f listener else listener

private theorem change_eq (token : Token) (f : RemoteListener → RemoteListener) (store : RemoteStore) :
    store.change token f = store.changeAll (atToken token f) := rfl

theorem change_change (token : Token) (f g : RemoteListener → RemoteListener) (store : RemoteStore)
    (keeps : ∀ listener, (f listener).token = listener.token) :
    (store.change token f).change token g = store.change token (g ∘ f) := by
  unfold change
  dsimp only
  rw [List.map_map]
  congr 1
  refine List.map_congr_left fun listener _ => ?_
  rw [Function.comp_apply]
  split
  · rename_i same
    rw [keeps, if_pos same, Function.comp_apply]
  · rfl

theorem Numbered.changeAll (numbered : store.Numbered)
    (keeps : ∀ listener ∈ store.listeners, (f listener).token = listener.token) :
    (store.changeAll f).Numbered := by
  unfold Numbered RemoteStore.changeAll
  rw [List.map_map, List.length_map, ← numbered]
  exact List.map_congr_left keeps

/-- A later state of a store: every registration is still there, changed in some way, and new ones may
have come. -/
structure Continued (store : RemoteStore) (f : RemoteListener → RemoteListener)
    (more : List RemoteListener) (after : RemoteStore) : Prop where
  listeners : after.listeners = store.listeners.map f ++ more
  same : ∀ listener ∈ store.listeners, listener.Same (f listener)

namespace Continued

variable {more : List RemoteListener}

theorem of_listeners_eq (kept : after.listeners = store.listeners) : store.Continued id [] after where
  listeners := by rw [kept, List.map_id, List.append_nil]
  same listener _ := .refl listener

theorem changeAll (same : ∀ listener ∈ store.listeners, listener.Same (f listener)) :
    store.Continued f [] (store.changeAll f) where
  listeners := (List.append_nil _).symm
  same := same

theorem tokens (continued : store.Continued f more after) :
    after.listeners.map RemoteListener.token
      = store.listeners.map RemoteListener.token ++ more.map RemoteListener.token := by
  rw [continued.listeners, List.map_append, List.map_map]
  congr 1
  exact List.map_congr_left fun listener mem => (continued.same listener mem).token

/-- The registration with a token is still the one with that token. -/
theorem listener?_eq_some (continued : store.Continued f more after) (numbered : store.Numbered)
    (numbered' : after.Numbered) (found : store.listener? token = some listener) :
    after.listener? token = some (f listener) := by
  obtain ⟨mem, has⟩ := numbered.listener?_eq_some.mp found
  rw [numbered'.listener?_eq_some, continued.listeners]
  refine ⟨List.mem_append_left _ (List.mem_map_of_mem mem), ?_⟩
  rw [(continued.same listener mem).token, has]

end Continued

/-- Tells whether there is a registration with a token that was not ended. -/
def isRegistered (token : Token) (store : RemoteStore) : Bool :=
  (store.listener? token).any RemoteListener.registered

theorem alike_atToken (token : Token) (failed : Bool) (listener : RemoteListener) :
    listener.Alike (atToken token (.ended failed) listener) := by
  unfold atToken
  split
  · exact RemoteListener.alike_ended failed listener
  · exact .refl listener

theorem registered_atToken (token : Token) (failed : Bool) (listener : RemoteListener) :
    (atToken token (.ended failed) listener).registered
      = (listener.registered && listener.token != token) := by
  unfold atToken
  split
  · rename_i same
    rw [RemoteListener.registered_ended, eq_of_beq same, bne_self_eq_false, Bool.and_false]
  · rename_i differs
    simp_all

/-- The call that ends the registration with a name. -/
def endCall (handle : String) : Call := ⟨"unlisten", .string handle⟩

/-- What becomes of a store when a token is given back: nothing, unless it is that of a registration
that was not ended before. Then this is ended, and the bridge is told. -/
inductive Unlistened (store : RemoteStore) (token : Token) : RemoteStore → Prop
  | idle (unregistered : store.isRegistered token = false) : Unlistened store token store
  | ended {listener : RemoteListener} (failed : Bool) (found : store.listener? token = some listener)
      (registered : listener.registered = true) :
      Unlistened store token
        ((store.changeAll (atToken token (.ended failed))).called (endCall listener.handle))

theorem unlistened_unlisten (token : Token) (store : RemoteStore) :
    store.Unlistened token (store.unlisten token).2 := by
  unfold unlisten
  split
  · rename_i missing
    exact .idle (by simp [isRegistered, missing])
  · rename_i listener found
    split
    · rename_i registered
      dsimp only
      rw [show ∀ store : RemoteStore, store.invoke "unlisten" (.string listener.handle) = _ from
        invoke_eq (endCall listener.handle)]
      dsimp only
      split
      · exact .ended true found registered
      · have gone := Unlistened.ended false found registered
        have twice := change_change token RemoteListener.withdrawn RemoteListener.detached store
          fun _ => rfl
        rw [RemoteListener.ended, if_neg Bool.false_ne_true, ← change_eq, ← twice] at gone
        exact gone
    · rename_i released
      exact .idle (by simp [isRegistered, found, released])

/-- The events of all registrations stay where they are. -/
theorem Unlistened.continued (unlistened : store.Unlistened token after) :
    ∃ f, store.Continued f [] after ∧ (∀ listener, RemoteListener.Alike listener (f listener)) ∧
      after.mailboxes = store.mailboxes := by
  cases unlistened with
  | idle => exact ⟨id, .of_listeners_eq rfl, .refl, rfl⟩
  | ended failed =>
    have alike := alike_atToken token failed
    have continued := Continued.changeAll fun l (_ : l ∈ store.listeners) => (alike l).toSame
    exact ⟨_, ⟨continued.listeners, continued.same⟩, alike, rfl⟩

/-- The token, if giving it back ends a registration. -/
def ends? (store : RemoteStore) (token : Token) : Option Token :=
  if store.isRegistered token then some token else none

/-- What becomes of a store when a listener is to be registered. -/
inductive Listened (store : RemoteStore) (target : ListenTarget) (mailbox : Nat) :
    Except Error Token → RemoteStore → Prop
  | refused {bridge : Bridge} (e : Error) (undisturbed : store.bridge.Undisturbed bridge) :
      Listened store target mailbox (.error e) { store with bridge }
  | granted {bridge : Bridge} (undisturbed : store.bridge.Undisturbed bridge) :
      Listened store target mailbox (.ok (store.listeners.length + 1))
        { store with
          bridge
          listeners := store.listeners ++ [.fresh target mailbox store] }

/-- Every registration stays as it is, and a new one has the mailbox that it was asked for with. -/
theorem Listened.continued {answer : Except Error Token}
    (listened : store.Listened target mailbox answer after) :
    ∃ more, store.Continued id more after ∧
      more.map RemoteListener.token = answer.toOption.toList ∧
      (∀ listener ∈ more, listener.mailbox = mailbox) ∧ after.mailboxes = store.mailboxes := by
  cases listened with
  | refused => exact ⟨[], .of_listeners_eq rfl, rfl, List.forall_mem_nil _, rfl⟩
  | granted =>
    refine ⟨[.fresh target mailbox store], ⟨?_, fun listener _ => .refl listener⟩, rfl,
      List.forall_mem_singleton.mpr rfl, rfl⟩
    rw [List.map_id]

theorem listened_listen (target : ListenTarget) (mailbox : Nat) (store : RemoteStore) :
    store.Listened target mailbox (store.listen target mailbox).1 (store.listen target mailbox).2 := by
  unfold listen exchange
  cases (Wire.encodeListenRequest target).mapError Error.ofRequest with
  | error e => exact .refused e (.refl _)
  | ok request =>
    have undisturbed : store.bridge.Undisturbed (store.bridge.call "listen" request).2 :=
      Bridge.undisturbed_call (by decide)
    have asked : store.invoke "listen" request = _ := invoke_eq ⟨"listen", request⟩ store
    simp only [asked]
    cases store.bridge.reply "listen" 0 with
    | error e => exact .refused e undisturbed
    | ok response => exact .granted undisturbed

/-- What holds of a store that was set up with a bridge and whose registrations with some tokens were
ended, in this order. -/
structure Accounted (store : RemoteStore) (origin : Bridge) (ended : List Token) : Prop where
  named : store.bridge.names = origin.names
  numbered : store.Numbered
  handles : ∀ listener ∈ store.listeners, listener.handle = origin.names listener.token
  /-- The bridge was told of these ends and of no others. -/
  told : store.bridge.ended = origin.ended ++ ended.map origin.names
  distinct : ended.Nodup
  registered : ∀ listener ∈ store.listeners, listener.registered = true ↔ listener.token ∉ ended
  known : ∀ token ∈ ended, ∃ listener ∈ store.listeners, listener.token = token

variable {origin : Bridge}

theorem accounted_new (bridge : Bridge) (capacity : Nat) :
    (new bridge capacity).Accounted bridge [] where
  named := rfl
  numbered := rfl
  handles := List.forall_mem_nil _
  told := (List.append_nil _).symm
  distinct := List.nodup_nil
  registered := List.forall_mem_nil _
  known := List.forall_mem_nil _

/-- Nothing is ended by changes that leave the registrations registered. -/
theorem Accounted.kept (account : store.Accounted origin ended)
    (undisturbed : store.bridge.Undisturbed after.bridge) (continued : store.Continued f [] after)
    (kept : ∀ listener ∈ store.listeners, (f listener).registered = listener.registered) :
    after.Accounted origin ended := by
  obtain ⟨changed, same⟩ := continued
  rw [List.append_nil] at changed
  exact {
    named := undisturbed.names.trans account.named
    numbered := by
      have numbered := account.numbered.changeAll fun listener mem => (same listener mem).token
      rw [Numbered, changeAll, ← changed] at numbered
      exact numbered
    handles := by
      rw [changed, List.forall_mem_map]
      intro listener mem
      rw [(same listener mem).token, (same listener mem).handle, account.handles listener mem]
    told := undisturbed.ended.trans account.told
    distinct := account.distinct
    registered := by
      rw [changed, List.forall_mem_map]
      intro listener mem
      rw [(same listener mem).token, kept listener mem, account.registered listener mem]
    known := fun token mem => by
      obtain ⟨listener, inside, has⟩ := account.known token mem
      rw [changed]
      exact ⟨f listener, List.mem_map_of_mem inside, (same listener inside).token.trans has⟩ }

/-- A new registration has a token that no other had before. -/
theorem Accounted.listened (account : store.Accounted origin ended) {answer : Except Error Token}
    (listened : store.Listened target mailbox answer after) : after.Accounted origin ended := by
  cases listened with
  | refused e undisturbed =>
    exact account.kept undisturbed (.of_listeners_eq rfl) fun _ _ => rfl
  | granted undisturbed =>
    have unused : store.listeners.length + 1 ∉ ended := by
      intro mem
      obtain ⟨listener, inside, same⟩ := account.known _ mem
      have le := account.numbered.token_le inside
      rw [same] at le
      exact Nat.not_succ_le_self _ le
    exact {
      named := undisturbed.names.trans account.named
      numbered := by
        rw [Numbered, List.map_append, account.numbered, List.length_append, List.length_singleton,
          List.range'_concat, Nat.one_mul, Nat.add_comm 1]
        rfl
      handles := by
        rw [List.forall_mem_append, List.forall_mem_singleton]
        exact ⟨account.handles, congrFun account.named _⟩
      told := undisturbed.ended.trans account.told
      distinct := account.distinct
      registered := by
        rw [List.forall_mem_append, List.forall_mem_singleton]
        exact ⟨account.registered, iff_of_true rfl unused⟩
      known := fun token mem => by
        obtain ⟨listener, inside, same⟩ := account.known token mem
        exact ⟨listener, List.mem_append_left _ inside, same⟩ }

/-- Giving back a token ends a registration once. -/
theorem Accounted.unlistened (account : store.Accounted origin ended)
    (unlistened : store.Unlistened token after) :
    after.Accounted origin (ended ++ (store.ends? token).toList) := by
  cases unlistened with
  | idle unregistered =>
    rw [ends?, unregistered, if_neg Bool.false_ne_true, Option.toList_none, List.append_nil]
    exact account
  | @ended listener failed found registered =>
    have present : store.isRegistered token = true := by simp [isRegistered, found, registered]
    rw [ends?, if_pos present, Option.toList_some]
    obtain ⟨inside, rfl⟩ := account.numbered.listener?_eq_some.mp found
    have fresh : listener.token ∉ ended := (account.registered listener inside).mp registered
    have alike := alike_atToken listener.token failed
    have released := registered_atToken listener.token failed
    exact {
      named := account.named
      numbered := account.numbered.changeAll fun l _ => (alike l).token
      handles := by
        refine List.forall_mem_map.mpr fun l mem => ?_
        rw [(alike l).token, (alike l).handle, account.handles l mem]
      told := by
        show (store.bridge.call "unlisten" (.string listener.handle)).2.ended = _
        rw [Bridge.ended_call_unlisten, account.told, account.handles listener inside,
          List.map_append, List.map_singleton, List.append_assoc]
      distinct := by
        rw [← List.concat_eq_append]
        exact account.distinct.concat fresh
      registered := by
        refine List.forall_mem_map.mpr fun l mem => ?_
        rw [(alike l).token, released l, Bool.and_eq_true, account.registered l mem]
        simp [not_or]
      known := fun token mem => by
        have present : ∃ l ∈ store.listeners, l.token = token := by
          rcases List.mem_append.mp mem with mem | mem
          · exact account.known token mem
          · exact ⟨listener, inside, (List.mem_singleton.mp mem).symm⟩
        obtain ⟨l, inside, same⟩ := present
        exact ⟨_, List.mem_map_of_mem inside, (alike l).token.trans same⟩ }

/-- A token that is given back has ended its registration, now or before. -/
theorem Accounted.mem_of_givenBack (account : store.Accounted origin ended)
    (inside : listener ∈ store.listeners) :
    listener.token ∈ ended ++ (store.ends? listener.token).toList := by
  by_cases registered : listener.registered = true
  · have found := account.numbered.listener?_eq_some.mpr ⟨inside, rfl⟩
    have present : store.isRegistered listener.token = true := by
      simp [isRegistered, found, registered]
    rw [ends?, if_pos present]
    exact List.mem_append_right _ (List.mem_singleton_self _)
  · rw [account.registered listener inside, Decidable.not_not] at registered
    exact List.mem_append_left _ registered

end RemoteStore

end DocumentStore
