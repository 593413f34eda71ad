import DocumentStore.Proofs.Store.Documents
import DocumentStore.Proofs.Store.Turn
import Mathlib.Data.List.Forall2

/-! # Listeners miss no change

A listener whose mailbox takes everything is shown its target when it registers and after every
successful commit that concerns the target. No other commit changes what the target shows, so the last
event is always up to date. -/

namespace DocumentStore

open Mailboxes Sending

/-- A query that is listened to has a plan that executors accept. -/
def ListenTarget.Valid : ListenTarget → Prop
  | .document _ => True
  | .query q => q.plan.validate = .ok ()

namespace Documents

variable {documents : Documents} {target : ListenTarget}

/-- A query over readable documents succeeds. -/
theorem exists_query (readable : Readable documents) {query : Query}
    (valid : query.plan.validate = .ok ()) : ∃ found, documents.query query = .ok found := by
  unfold Documents.query Query.run
  rw [snapshots_eq readable, valid]
  exact ⟨_, rfl⟩

theorem eventFor_not_terminal (readable : Readable documents) (valid : target.Valid) :
    (documents.eventFor target).isTerminal = false := by
  cases target with
  | document key => rfl
  | query query =>
    obtain ⟨found, hfound⟩ := exists_query readable valid
    rw [eventFor, hfound]
    rfl

end Documents

namespace StoreCall

variable {store : Store} {call : StoreCall} {target : ListenTarget} {mailbox : Nat} {token : Token}

theorem readable_writes (readable : ∀ key ∈ call.keys store, key.Readable) :
    ∀ write ∈ call.writes store, write.key.Readable := by
  intro write mem
  cases call with
  | listen target mailbox => cases mem
  | _ => exact readable _ (List.mem_map_of_mem mem)

/-- Tells the successful calls with a write that concerns a target. -/
def touches (store : Store) (target : ListenTarget) (call : StoreCall) : Bool :=
  call.succeeds store && Store.concerned target (call.writes store)

theorem token_of_answer (answer : (Datastore.listen target mailbox store).1 = .ok token) :
    token = store.nextToken := by
  obtain granted | ⟨⟨e, refused⟩, -⟩ := listen_answer target mailbox store
  · rw [granted] at answer
    exact (Except.ok.inj answer).symm
  · rw [refused] at answer
    cases answer

private theorem valid_of_answer (answer : (Datastore.listen target mailbox store).1 = .ok token) :
    target.Valid := by
  cases target with
  | document key => trivial
  | query query =>
    simp only [Datastore.listen, Store.listen] at answer
    split at answer
    · cases answer
    · assumption

end StoreCall

namespace Store

open StoreCall

variable {store : Store} {call : StoreCall} {calls : List StoreCall} {listener : Listener}
  {target : ListenTarget}

/-- What holds of a store at every point of a run with readable keys. -/
structure Sound (store : Store) : Prop where
  documents : store.documents.Readable
  distinct : (store.listeners.map Listener.token).Nodup
  fresh : ∀ listener ∈ store.listeners, listener.token < store.nextToken

private theorem sound_empty (clock : Clock) : (empty clock).Sound :=
  ⟨nofun, List.nodup_nil, nofun⟩

private theorem Sound.shows (sound : store.Sound) (valid : target.Valid) :
    Shows target (store.documents.eventFor target) store := by
  cases target with
  | document key => exact ⟨_, rfl, rfl⟩
  | query query =>
    obtain ⟨found, hfound⟩ := Documents.exists_query sound.documents valid
    refine ⟨found, hfound, ?_⟩
    rw [Documents.eventFor, hfound]

private theorem Sound.of_sublist {after : Store} (sound : store.Sound)
    (documents : after.documents.Readable) (fewer : after.listeners.Sublist store.listeners)
    (nextToken : after.nextToken = store.nextToken) : after.Sound where
  documents := documents
  distinct := sound.distinct.sublist (fewer.map _)
  fresh listener mem := nextToken ▸ sound.fresh listener (fewer.subset mem)

theorem Sound.step (sound : store.Sound) (readable : ∀ key ∈ call.keys store, key.Readable) :
    (call.step store).Sound := by
  cases turn store call with
  | committed applied succeeds step sendings received =>
    rw [step]
    exact sound.of_sublist (sound.documents.applyAll (readable_writes readable) applied)
      notify_sublist rfl
  | idle clock fails step sendings received =>
    rw [step]
    exact sound.of_sublist sound.documents (List.Sublist.refl _) rfl
  | registered target mailbox answer =>
    rw [step_listen answer]
    have old (l : Listener) (mem : l ∈ store.listeners) : l.token < store.nextToken + 1 :=
      Nat.lt_succ_of_lt (sound.fresh l mem)
    refine ⟨sound.documents, ?_, ?_⟩
    · dsimp only
      split
      · rw [List.map_append, List.nodup_append]
        refine ⟨sound.distinct, List.pairwise_singleton _ _, ?_⟩
        intro a mem b hb same
        obtain ⟨l, hl, rfl⟩ := List.mem_map.mp mem
        obtain rfl := List.mem_singleton.mp hb
        exact Nat.ne_of_lt (sound.fresh l hl) same
      · exact sound.distinct
    · intro l mem
      dsimp only at mem
      split at mem
      · rcases List.mem_append.mp mem with mem | mem
        · exact old l mem
        · obtain rfl := List.mem_singleton.mp mem
          exact Nat.lt_succ_self _
      · exact old l mem
  | unlisten token => exact sound.of_sublist sound.documents List.filter_sublist rfl
  | mailboxes boxes fails step sendings received kept =>
    rw [step]
    exact sound.of_sublist sound.documents (List.Sublist.refl _) rfl

private theorem Sound.run (sound : store.Sound) (readable : ReadableRun store calls) :
    (store.run calls).Sound := by
  induction calls generalizing store with
  | nil => exact sound
  | cons call calls ih => exact ih (sound.step readable.1) readable.2

private theorem readableRun_append {earlier later : List StoreCall} :
    ReadableRun store (earlier ++ later) ↔
      ReadableRun store earlier ∧ ReadableRun (store.run earlier) later := by
  induction earlier generalizing store with
  | nil => exact (iff_of_eq (true_and _)).symm
  | cons call earlier ih => simp only [List.cons_append, ReadableRun, ih, and_assoc]; rfl

/-- A registered listener with an unlimited mailbox and a target that can be shown. -/
structure Watched (listener : Listener) (store : Store) : Prop where
  sound : store.Sound
  mem : listener ∈ store.listeners
  unlimited : Unlimited listener.mailbox store.mailboxes
  valid : listener.target.Valid
  readable : listener.target.Readable

/-- A call that is neither the end of the registration nor of the mailbox keeps the listener. -/
theorem Watched.step (watched : Watched listener store)
    (readable : ∀ key ∈ call.keys store, key.Readable) (kept : .unlisten listener.token ≠ call)
    (opened : .closeMailbox listener.mailbox ≠ call) : Watched listener (call.step store) where
  sound := watched.sound.step readable
  unlimited := unlimited_step watched.unlimited opened
  valid := watched.valid
  readable := watched.readable
  mem := by
    cases turn store call with
    | committed applied succeeds step sendings received =>
      rw [step]
      refine mem_notify watched.mem watched.unlimited (Documents.eventFor_not_terminal ?_ watched.valid)
      exact watched.sound.documents.applyAll (readable_writes readable) applied
    | idle clock fails step sendings received =>
      rw [step]
      exact watched.mem
    | registered target mailbox answer =>
      rw [step_listen answer]
      dsimp only
      split
      · exact List.mem_append_left _ watched.mem
      · exact watched.mem
    | unlisten token =>
      have ne : listener.token ≠ token := fun same => kept (congrArg StoreCall.unlisten same)
      exact List.mem_filter.mpr ⟨watched.mem, by simpa using ne⟩
    | mailboxes boxes fails step sendings received kept =>
      rw [step]
      exact watched.mem

theorem Watched.eventsFor_sendings (watched : Watched listener store) (call : StoreCall) :
    eventsFor listener.token (call.sendings store)
      = if call.touches store listener.target then
          [(call.step store).documents.eventFor listener.target]
        else [] := by
  cases turn store call with
  | committed applied succeeds step sendings received =>
    rw [sendings, step, touches, succeeds, Bool.true_and,
      eventsFor_notifications watched.mem watched.sound.distinct watched.unlimited]
    rfl
  | idle clock fails step sendings received =>
    rw [sendings, touches, fails]
    rfl
  | registered target mailbox answer =>
    rw [sendings_listen answer]
    exact Listener.eventsFor_sending_of_ne (Nat.ne_of_gt (watched.sound.fresh _ watched.mem))
  | unlisten token => rfl
  | mailboxes boxes fails step sendings received kept =>
    rw [sendings, touches, fails]
    rfl

theorem eventFor_step (sound : store.Sound) (htarget : target.Readable)
    (readable : ∀ key ∈ call.keys store, key.Readable) (untouched : call.touches store target = false) :
    (call.step store).documents.eventFor target = store.documents.eventFor target := by
  cases turn store call with
  | committed applied succeeds step sendings received =>
    rw [touches, succeeds, Bool.true_and, concerned, List.any_eq_false] at untouched
    rw [step]
    refine Documents.eventFor_applyAll sound.documents htarget (readable_writes readable) ?_ applied
    simpa using untouched
  | idle clock fails step sendings received => rw [step]
  | registered target mailbox answer => rw [step_listen answer]
  | unlisten token => rfl
  | mailboxes boxes fails step sendings received kept => rw [step]

theorem changes_cons (target : ListenTarget) (store : Store) (call : StoreCall)
    (calls : List StoreCall) :
    changes target store (call :: calls)
      = (if call.touches store target then [call.step store] else [])
        ++ changes target (call.step store) calls := by
  rw [changes, touches]
  split <;> rfl

/-- Over a run a listener is sent what its target shows after every call that touches it. -/
theorem Watched.eventsFor_run (watched : Watched listener store)
    (readable : ReadableRun store calls) (kept : .unlisten listener.token ∉ calls)
    (opened : .closeMailbox listener.mailbox ∉ calls) :
    eventsFor listener.token (store.sendings calls)
      = (changes listener.target store calls).map fun s => s.documents.eventFor listener.target := by
  induction calls generalizing store with
  | nil => rfl
  | cons call calls ih =>
    rw [List.mem_cons, not_or] at kept opened
    have later := ih (watched.step readable.1 kept.1 opened.1) readable.2 kept.2 opened.2
    rw [sendings, eventsFor_append, watched.eventsFor_sendings, later, changes_cons, List.map_append]
    split <;> rfl

theorem getLast?_changes (sound : store.Sound) (htarget : target.Readable)
    (readable : ReadableRun store calls) :
    ((store :: changes target store calls).map fun s => s.documents.eventFor target).getLast?
      = some ((store.run calls).documents.eventFor target) := by
  induction calls generalizing store with
  | nil => rfl
  | cons call calls ih =>
    have later := ih (sound.step readable.1) readable.2
    rw [changes_cons]
    cases touched : call.touches store target with
    | true =>
      rw [if_pos rfl, List.singleton_append, List.map_cons, List.map_cons, List.getLast?_cons_cons]
      exact later
    | false =>
      rw [List.map_cons, eventFor_step sound htarget readable.1 touched] at later
      exact later

private theorem sound_of_mem_changes {s : Store} (sound : store.Sound)
    (readable : ReadableRun store calls) (mem : s ∈ changes target store calls) : s.Sound := by
  induction calls generalizing store with
  | nil => cases mem
  | cons call calls ih =>
    have next := sound.step readable.1
    rw [changes_cons] at mem
    rcases List.mem_append.mp mem with mem | mem
    · split at mem
      · obtain rfl := List.mem_singleton.mp mem
        exact next
      · cases mem
    · exact ih next readable.2 mem

theorem items_run (id : Nat) (store : Store) (calls : List StoreCall) :
    received id store calls ++ (box id (store.run calls).mailboxes).items
      = (box id store.mailboxes).items ++ eventsInto id (store.sendings calls) := by
  induction calls generalizing store with
  | nil => simp [received, sendings, run]
  | cons call calls ih =>
    have later := ih (call.step store)
    rw [received, sendings, eventsInto_append, ← List.append_assoc, ← items_step, List.append_assoc,
      List.append_assoc, ← later]
    rfl

private theorem readable_target {mailbox : Nat}
    (readable : ∀ key ∈ (StoreCall.listen target mailbox).keys store, key.Readable) :
    target.Readable := by
  cases target with
  | document key => exact readable key (List.mem_singleton.mpr rfl)
  | query query => trivial

theorem watched_of_listen {mailbox : Nat} {token : Token} (sound : store.Sound)
    (answer : (Datastore.listen target mailbox store).1 = .ok token)
    (unlimited : Unlimited mailbox store.mailboxes)
    (readable : ∀ key ∈ (StoreCall.listen target mailbox).keys store, key.Readable) :
    Watched ⟨token, target, mailbox⟩ ((StoreCall.listen target mailbox).step store) ∧
      eventsFor token ((StoreCall.listen target mailbox).sendings store)
        = [((StoreCall.listen target mailbox).step store).documents.eventFor target] := by
  have valid := valid_of_answer answer
  obtain rfl := token_of_answer answer
  refine ⟨⟨sound.step readable, ?_, unlimited_step unlimited nofun, valid, readable_target readable⟩, ?_⟩
  · rw [step_listen answer]
    simp only [unlimited.sent, continues, Documents.eventFor_not_terminal sound.documents valid]
    exact List.mem_append_right _ List.mem_cons_self
  · let listener : Listener := ⟨store.nextToken, target, mailbox⟩
    have alone : Unlimited listener.mailbox store.mailboxes := unlimited
    rw [sendings_listen answer, step_listen answer]
    exact Listener.eventsFor_sending alone

/-- A listener with an unlimited mailbox is sent exactly what its target shows when it registers and
right after every later success that touches the target, and the last of it is what the store returns
now. What is sent is what the owner of the mailbox finds in it. The listener is told from others by its
token, in up to `2 ^ 64` registrations. -/
theorem listener_misses_no_change {clock : Clock} {before after : List StoreCall}
    {target : ListenTarget} {mailbox : Nat} {token : Token}
    (answer : (Datastore.listen target mailbox ((empty clock).run before)).1 = .ok token)
    (unlimited : Unlimited mailbox ((empty clock).run before).mailboxes)
    (kept : .unlisten token ∉ after) (opened : .closeMailbox mailbox ∉ after)
    (readable : (empty clock).ReadableRun (before ++ .listen target mailbox :: after)) :
    let start := (empty clock).run before
    let registered := (StoreCall.listen target mailbox).step start
    let sent := start.sendings (.listen target mailbox :: after)
    List.Forall₂ (Shows target) (eventsFor token sent)
        (registered :: changes target registered after) ∧
      (∃ last, (eventsFor token sent).getLast? = some last ∧
        Shows target last (registered.run after)) ∧
      received mailbox start (.listen target mailbox :: after)
          ++ (box mailbox (registered.run after).mailboxes).items
        = (box mailbox start.mailboxes).items ++ eventsInto mailbox sent := by
  intro start registered sent
  obtain ⟨readableBefore, readableListen, readableAfter⟩ := readableRun_append.mp readable
  have sound : start.Sound := (sound_empty clock).run readableBefore
  obtain ⟨watched, first⟩ := watched_of_listen sound answer unlimited readableListen
  have events : eventsFor token sent
      = (registered :: changes target registered after).map fun s => s.documents.eventFor target := by
    have later := watched.eventsFor_run readableAfter kept opened
    show eventsFor token (_ ++ _) = _
    rw [eventsFor_append, first, later]
    rfl
  refine ⟨?_, ?_, items_run mailbox start (.listen target mailbox :: after)⟩
  · rw [events, List.forall₂_map_left_iff, List.forall₂_same, List.forall_mem_cons]
    exact ⟨watched.sound.shows watched.valid, fun s mem =>
      (sound_of_mem_changes watched.sound readableAfter mem).shows watched.valid⟩
  · refine ⟨_, ?_, (watched.sound.run readableAfter).shows watched.valid⟩
    rw [events]
    exact getLast?_changes watched.sound watched.readable readableAfter

def northHall : DocumentKey := ⟨⟨["halls", "north"]⟩, by decide, by decide⟩
def southHall : DocumentKey := ⟨⟨["halls", "south"]⟩, by decide, by decide⟩

def hallQuery : Query := ⟨⟨["halls"]⟩, QueryPlan.empty⟩

def allHalls : ListenTarget := .query hallQuery

/-- A hall is added, another one that does not exist is updated in vain, and the first is removed
again. -/
def hallCalls : List StoreCall :=
  [.write (.set northHall [("size", .integer 2)] false),
    .write (.update southHall [] []), .commit [.delete northHall]]

theorem listener_misses_no_hall :
    let clock : Clock := ⟨.new 0 0, 1⟩
    let start := (empty clock).run [.addMailbox none]
    let registered := (StoreCall.listen allHalls 0).step start
    let sent := start.sendings (.listen allHalls 0 :: hallCalls)
    let shown (halls : List Snapshot) : ListenEvent := .query ⟨hallQuery, halls⟩
    List.Forall₂ (Shows allHalls) (eventsFor 1 sent)
        (registered :: changes allHalls registered hallCalls) ∧
      eventsFor 1 sent = [shown [], shown [⟨northHall, some [("size", .integer 2)]⟩], shown []] ∧
      (∃ last, (eventsFor 1 sent).getLast? = some last ∧
        Shows allHalls last (registered.run hallCalls)) ∧
      received 0 start (.listen allHalls 0 :: hallCalls)
          ++ (box 0 (registered.run hallCalls).mailboxes).items
        = (box 0 start.mailboxes).items ++ eventsInto 0 sent := by
  intro clock start registered sent shown
  have north : northHall.Readable := by unfold DocumentKey.Readable; cbv
  have south : southHall.Readable := by unfold DocumentKey.Readable; cbv
  have readable : (empty clock).ReadableRun
      ([.addMailbox none] ++ .listen allHalls 0 :: hallCalls) := by
    simp [ReadableRun, hallCalls, keys, writes, WriteOperation.key, allHalls, north, south]
  have unlimited : Unlimited 0 start.mailboxes := ⟨rfl, rfl⟩
  obtain ⟨shows, current, received⟩ :=
    listener_misses_no_change rfl unlimited (by simp [hallCalls]) (by simp [hallCalls]) readable
  refine ⟨shows, ?_, current, received⟩
  let added := (StoreCall.write (.set northHall [("size", .integer 2)] false)).step registered
  have states : registered :: changes allHalls registered hallCalls
      = [registered, added, registered.run hallCalls] := by rfl
  have nothing : Documents.query [] hallQuery = .ok [] := by cbv
  have one : Documents.query [("halls/north", [("size", .integer 2)])] hallQuery
      = .ok [⟨northHall, some [("size", .integer 2)]⟩] := by cbv
  have inOrder : List.Forall₂ (Shows allHalls) (eventsFor 1 sent)
      [registered, added, registered.run hallCalls] := states ▸ shows
  generalize eventsFor 1 sent = events at inOrder ⊢
  obtain _ | ⟨⟨first, atFirst, rfl⟩, _ | ⟨⟨second, atSecond, rfl⟩, _ | ⟨⟨third, atThird, rfl⟩, _ | _⟩⟩⟩ :=
    inOrder
  obtain rfl : first = [] := Except.ok.inj (atFirst.symm.trans nothing)
  obtain rfl : second = [⟨northHall, some [("size", .integer 2)]⟩] :=
    Except.ok.inj (atSecond.symm.trans one)
  obtain rfl : third = [] := Except.ok.inj (atThird.symm.trans nothing)
  rfl

end Store

end DocumentStore
