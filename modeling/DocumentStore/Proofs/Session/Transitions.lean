import DocumentStore.Proofs.Client.Keeping
import DocumentStore.Proofs.Session.Registry
import DocumentStore.Session.Command

/-! # What happens in a session

In a session over a store in memory, every command of the owner and every piece of background work keeps
the accounts of the store with the subscriptions of the session. -/

namespace DocumentStore

open Mailboxes

private theorem Mailboxes.set_box (id : Nat) (boxes : Mailboxes) :
    boxes.set id (box id boxes) = boxes := by
  by_cases known : id < boxes.length
  · rw [box, List.getD_eq_getElem?_getD, List.getElem?_eq_getElem known]
    exact List.set_getElem_self known
  · exact List.set_eq_of_length_le (Nat.le_of_not_lt known)

/-- A member without what only its owner knows of it. -/
def Member.party (member : Member) : Party := ⟨member.subscription, member.mailbox⟩

namespace Session

variable {session : Session} {store : Store} {place : Nat} {member : Member}

def parties (session : Session) : List Party := session.members.map Member.party

theorem mailbox_memory (backend : session.backend = .memory store) (number : Nat) :
    session.mailbox number = box number store.mailboxes := by
  rw [mailbox, backend, Backend.mailboxes]

private theorem withMailbox_memory (backend : session.backend = .memory store) (number : Nat)
    (mailbox : Mailbox) :
    session.withMailbox number mailbox
      = session.withBackend (.memory { store with mailboxes := store.mailboxes.set number mailbox }) := by
  rw [withMailbox, backend]
  rfl

private theorem release_memory (backend : session.backend = .memory store) (token : Token) :
    session.release token = session.withBackend (.memory (store.unlisten token)) := by
  rw [release, actOnStore, backend]
  rfl

/-- A step of a member in terms of its party and of the store. -/
theorem step_memory (backend : session.backend = .memory store)
    (present : session.members[place]? = some member) (feedStep : FeedStep) :
    let moved := (member.party.feed store.mailboxes).step feedStep
    (session.step place feedStep).backend
        = .memory (store.after member.mailbox moved.1.mailbox moved.2.released) ∧
      (session.step place feedStep).members
        = session.members.set place { member with subscription := moved.1.subscription } ∧
      (session.step place feedStep).listeners = session.listeners := by
  intro moved
  have feed : (⟨member.subscription, session.mailbox member.mailbox⟩ : Feed)
      = member.party.feed store.mailboxes := by
    rw [mailbox_memory backend]
    rfl
  have stepped : session.step place feedStep =
      let members := session.members.set place { member with subscription := moved.1.subscription }
      (({ session with members }).withMailbox member.mailbox moved.1.mailbox).carryOut member.name
        moved.2 := by
    simp only [step, present, feed]
    rfl
  have opened (members : List Member) : ({ session with members }).backend = .memory store := backend
  rw [stepped]
  dsimp only
  rw [withMailbox_memory (opened _), carryOut]
  unfold Store.after
  cases moved.2.released with
  | none => exact ⟨rfl, rfl, rfl⟩
  | some token =>
    dsimp only
    rw [release_memory rfl]
    exact ⟨rfl, rfl, rfl⟩

/-- The store is one in memory and keeps accounts of some parties. -/
def Holds (parties : List Party) (backend : Backend) : Prop :=
  ∃ store, backend = .memory store ∧ Accounts parties store

/-- Reads, writes and transactions leave the accounts in order. -/
theorem keeps_holds (parties : List Party) : Datastore.Keeps (Holds parties) where
  get := by
    rintro key _ ⟨store, rfl, accounts⟩
    exact ⟨store, rfl, accounts⟩
  query := by
    rintro query _ ⟨store, rfl, accounts⟩
    exact ⟨store, rfl, accounts⟩
  write := by
    rintro write _ ⟨store, rfl, accounts⟩
    exact ⟨_, rfl, accounts.commit [write]⟩
  commit := by
    rintro writes _ ⟨store, rfl, accounts⟩
    exact ⟨_, rfl, accounts.commit writes⟩
  transact := by
    rintro ρ keys body _ ⟨store, rfl, accounts⟩
    simp only [Datastore.transact, Backend.dispatch, Store.transact]
    split
    · exact ⟨_, rfl, accounts⟩
    · exact ⟨_, rfl, accounts.commit _⟩

/-- A session over a store in memory, with its accounts in order and without listeners of the owner's
own. -/
structure Tidy (session : Session) : Prop where
  holds : Holds session.parties session.backend
  direct : session.listeners = []

/-- No disposal is under way. -/
def Returned (session : Session) : Prop :=
  ∀ member ∈ session.members, member.subscription.disposals = []

/-- The parties after a step of the one at a place. -/
theorem parties_perm (present : session.members[place]? = some member) :
    session.parties.Perm (member.party :: session.parties.eraseIdx place) ∧
      ∀ s : Subscription,
        ((session.members.set place { member with subscription := s }).map Member.party).Perm
          (⟨s, member.mailbox⟩ :: session.parties.eraseIdx place) := by
  obtain ⟨within, found⟩ := List.getElem?_eq_some_iff.mp present
  have within' : place < session.parties.length := by rwa [parties, List.length_map]
  have found' : session.parties[place] = member.party := by simp [parties, found]
  constructor
  · have split := List.getElem_cons_eraseIdx_perm within'
    rw [found'] at split
    exact split.symm
  · intro s
    rw [List.map_set]
    exact List.set_perm_cons_eraseIdx within' _

theorem Tidy.step (tidy : session.Tidy) (place : Nat) {feedStep : FeedStep}
    (ungranted : ∀ token, feedStep ≠ .settle (.ok token)) : (session.step place feedStep).Tidy := by
  obtain ⟨⟨store, backend, accounts⟩, direct⟩ := tidy
  cases present : session.members[place]? with
  | none =>
    have same : session.step place feedStep = session := by rw [Session.step, present]
    rw [same]
    exact ⟨⟨store, backend, accounts⟩, direct⟩
  | some member =>
    obtain ⟨before, after⟩ := parties_perm present
    obtain ⟨backend', members', listeners'⟩ := step_memory backend present feedStep
    have move := (member.party.feed store.mailboxes).move_step feedStep
    have nothing : (member.party.feed store.mailboxes).grant? feedStep = none := by
      cases feedStep with
      | settle answer =>
        cases answer with
        | ok token => exact absurd rfl (ungranted token)
        | error e => rfl
      | _ => rfl
    refine ⟨⟨_, backend', ?_⟩, listeners'.trans direct⟩
    rw [parties, members']
    exact ((accounts.perm before).step move nothing).perm (after _).symm

/-- A registration asks the store and hands its answer on. -/
theorem register_memory (backend : session.backend = .memory store) (place : Nat) (member : Member) :
    let answered := Datastore.listen member.subscription.target member.mailbox store
    session.register place member
      = (session.withBackend (.memory answered.2)).step place (.settle answered.1) := by
  rw [register, actOnStore, backend]
  rfl

private theorem Tidy.register (tidy : session.Tidy) (present : session.members[place]? = some member)
    (requesting : member.subscription.stage = .requesting) : (session.register place member).Tidy := by
  obtain ⟨⟨store, backend, accounts⟩, direct⟩ := tidy
  let answered := Datastore.listen member.subscription.target member.mailbox store
  rw [register_memory backend]
  obtain granted | ⟨⟨e, refused⟩, same⟩ :=
    StoreCall.listen_answer member.subscription.target member.mailbox store
  · have registers := Store.registers_of_answer granted
    obtain ⟨before, after⟩ := parties_perm present
    have settled := (accounts.perm before).register requesting registers
    have backend' : (session.withBackend (.memory answered.2)).backend = .memory answered.2 := rfl
    obtain ⟨backend', members', listeners'⟩ :=
      step_memory backend' present (.settle (.ok store.nextToken))
    have moved : (member.party.feed answered.2.mailboxes).step (.settle (.ok store.nextToken))
        = (⟨member.subscription.settle (.ok store.nextToken),
            box member.mailbox answered.2.mailboxes⟩, .nothing) := by
      simp [Feed.step, Party.feed, Member.party, requesting]
    have unchanged : answered.2.after member.mailbox (box member.mailbox answered.2.mailboxes) none
        = answered.2 := by
      unfold Store.after
      rw [set_box]
    rw [moved, Effect.nothing, unchanged] at backend'
    rw [moved] at members'
    rw [show answered.1 = .ok store.nextToken from granted]
    refine ⟨⟨_, backend', ?_⟩, listeners'.trans direct⟩
    rw [parties, members']
    exact settled.perm (after _).symm
  · rw [show answered.1 = .error e from refused, show answered.2 = store from same]
    apply Tidy.step
    · exact ⟨⟨store, rfl, accounts⟩, direct⟩
    · intro token granted
      cases granted

/-- Only the backend, the parties and the owner's listeners matter. -/
theorem Tidy.of_same {other : Session} (tidy : session.Tidy)
    (backend : other.backend = session.backend) (parties : other.parties = session.parties)
    (listeners : other.listeners = session.listeners) : other.Tidy := by
  refine ⟨?_, listeners.trans tidy.direct⟩
  rw [parties, backend]
  exact tidy.holds

/-- The session is tidy and no disposal is under way. -/
structure Clean (session : Session) : Prop extends Tidy session where
  returned : session.Returned

theorem Clean.of_same {other : Session} (clean : session.Clean)
    (backend : other.backend = session.backend) (members : other.members = session.members)
    (listeners : other.listeners = session.listeners) : other.Clean where
  toTidy := clean.toTidy.of_same backend (by rw [parties, members, parties]) listeners
  returned := by
    rw [Returned, members]
    exact clean.returned

/-- A step that begins no disposal leaves none under way. -/
theorem returned_step (backend : session.backend = .memory store)
    (returned : session.Returned) (place : Nat) {feedStep : FeedStep}
    (kept : feedStep ≠ .beginDispose) : (session.step place feedStep).Returned := by
  cases present : session.members[place]? with
  | none =>
    rw [step, present]
    exact returned
  | some member =>
    obtain ⟨-, members, -⟩ := step_memory backend present feedStep
    have before := returned member (List.mem_of_getElem? present)
    have move := (member.party.feed store.mailboxes).move_step feedStep
    intro other among
    rw [members] at among
    rcases List.mem_or_eq_of_mem_set among with among | rfl
    · exact returned other among
    · exact move.disposals_eq_nil kept before

theorem Clean.step (clean : session.Clean) (place : Nat) {feedStep : FeedStep}
    (ungranted : ∀ token, feedStep ≠ .settle (.ok token)) (kept : feedStep ≠ .beginDispose) :
    (session.step place feedStep).Clean where
  toTidy := clean.toTidy.step place ungranted
  returned := by
    obtain ⟨store, backend, -⟩ := clean.holds
    exact returned_step backend clean.returned place kept

private theorem Clean.register (clean : session.Clean) (present : session.members[place]? = some member)
    (requesting : member.subscription.stage = .requesting) :
    (session.register place member).Clean where
  toTidy := clean.toTidy.register present requesting
  returned := by
    obtain ⟨store, backend, -⟩ := clean.holds
    let answered := Datastore.listen member.subscription.target member.mailbox store
    have asked : (session.withBackend (.memory answered.2)).backend = .memory answered.2 := rfl
    rw [register_memory backend]
    exact returned_step asked clean.returned place (by simp)

/-- A disposal that has begun comes to its end. -/
theorem Clean.disposeAt (clean : session.Clean) (place : Nat) : (session.disposeAt place).Clean where
  toTidy := by
    have begun : (session.step place .beginDispose).Tidy := clean.toTidy.step place (by simp)
    exact begun.step place (by simp)
  returned := by
    obtain ⟨store, backend, -⟩ := clean.holds
    cases present : session.members[place]? with
    | none =>
      have same : session.step place .beginDispose = session := by rw [Session.step, present]
      rw [Session.disposeAt, same, Session.step, present]
      exact clean.returned
    | some member =>
      have before := clean.returned member (List.mem_of_getElem? present)
      have within : place < session.members.length := (List.getElem?_eq_some_iff.mp present).1
      obtain ⟨backend', begun, -⟩ := step_memory backend present .beginDispose
      have present' : (session.step place .beginDispose).members[place]? = some
          { member with subscription := member.subscription.beginDispose } := by
        rw [begun, List.getElem?_set_self within]
        rfl
      obtain ⟨-, ended, -⟩ := step_memory backend' present' (.endDispose 0)
      intro other among
      rw [Session.disposeAt, ended, begun, List.set_set] at among
      rcases List.mem_or_eq_of_mem_set among with among | rfl
      · exact clean.returned other among
      · simp [Feed.step, Party.feed, Member.party, Subscription.beginDispose, before]

private theorem parties_modify {f : Member → Member} (kept : ∀ member, (f member).party = member.party)
    (members : List Member) (place : Nat) :
    (members.modify place f).map Member.party = members.map Member.party := by
  apply List.ext_getElem?
  intro other
  rw [List.getElem?_map, List.getElem?_modify, List.getElem?_map]
  split
  · cases members[other]? with
    | none => rfl
    | some member => exact congrArg some (kept member)
  · rw [id_map']

/-- What the owner remembers of a member, or what is to be done with it, does not matter. -/
theorem Clean.modify (clean : session.Clean) (f : Member → Member)
    (kept : ∀ member, (f member).party = member.party) (place : Nat) :
    ({ session with members := session.members.modify place f }).Clean where
  toTidy := clean.toTidy.of_same rfl (parties_modify kept session.members place) rfl
  returned := by
    intro member among
    have among : member.party ∈ session.parties := by
      rw [parties, ← parties_modify kept session.members place]
      exact List.mem_map_of_mem among
    obtain ⟨other, among, same⟩ := List.mem_map.mp among
    have subscription : member.subscription = other.subscription :=
      congrArg Party.subscription same.symm
    rw [subscription]
    exact clean.returned other among

private theorem Clean.advance (clean : session.Clean)
    (present : session.members[place]? = some member) :
    (session.advance place member).Clean := by
  unfold Session.advance
  split
  · exact clean
  · exact clean
  · rename_i requesting
    exact clean.register present requesting
  · exact clean.step place (by simp) (by simp)
  · exact clean.step place (by simp) (by simp)
  · exact clean.step place (by simp) (by simp)

theorem Clean.runTask (clean : session.Clean) (task : Task) : (session.runTask task).Clean := by
  cases task with
  | subscription place =>
    unfold Session.runTask
    dsimp only
    split
    · rename_i member present
      exact clean.advance present
    · exact clean
  | forwarding token =>
    obtain ⟨store, backend, -⟩ := clean.holds
    refine clean.of_same ?_ rfl rfl
    rw [Session.runTask, backend]
    rfl
  | disposal place =>
    have marked := clean.modify (fun member => { member with leaving := false }) (fun _ => rfl) place
    exact marked.disposeAt place

theorem Clean.act {α : Type} (clean : session.Clean) {action : Action Backend α}
    (keeping : Client.Keeping (Holds session.parties) action) : (session.act action).2.Clean where
  holds := keeping session.client clean.holds
  direct := clean.direct
  returned := clean.returned

theorem Clean.letGo (clean : session.Clean) (name : String) : (session.letGo name).Clean := by
  unfold Session.letGo
  split
  · exact clean
  · apply clean.modify
    intro member
    rfl

theorem keeping_targetFor {P : Backend → Prop} (target : TargetRequest) :
    Client.Keeping P (targetFor target) := by
  cases target with
  | document path => exact Client.keeping_documentTarget path
  | query request => exact (Client.keeping_except _).bind fun _ => Client.keeping_queryTarget _

theorem Clean.arrive (clean : session.Clean) (name : String) (target : ListenTarget) :
    let added := session.addMailbox .unbounded
    let member : Member := ⟨name, .new target, added.1, true, false⟩
    ({ added.2 with members := added.2.members ++ [member] }).Clean := by
  obtain ⟨⟨⟨store, backend, accounts⟩, direct⟩, returned⟩ := clean
  have arrived := accounts.arrive target
  rw [addMailbox, backend]
  refine ⟨⟨⟨_, rfl, ?_⟩, direct⟩, ?_⟩
  · rw [parties, List.map_append]
    exact arrived.perm (List.perm_append_singleton _ _).symm
  · intro member among
    rcases List.mem_append.mp among with among | new
    · exact returned member among
    · rw [List.mem_singleton.mp new]
      rfl

theorem Clean.start (clean : session.Clean) (place : Nat) : (session.step place .start).Clean :=
  clean.step place (by simp) (by simp)

private theorem Clean.subscribe (clean : session.Clean) (name : String) (target : TargetRequest) :
    (session.subscribe name target).2.Clean := by
  have acted := clean.act (keeping_targetFor target)
  unfold Session.subscribe
  split
  · rename_i e after answered
    rw [answered] at acted
    exact acted
  · rename_i target after answered
    rw [answered] at acted
    exact ((acted.letGo name).arrive name target).start _

private theorem Clean.answer {α : Type} (clean : session.Clean) {wording : α → Answer}
    {action : Action Backend α} (keeping : Client.Keeping (Holds session.parties) action) :
    (session.answer wording action).2.Clean :=
  clean.act keeping

private theorem Clean.runBatch (clean : session.Clean) (entries : List BatchEntry) (discard : Bool) :
    (session.runBatch entries discard).2.Clean := by
  unfold Session.runBatch
  generalize Batch.addEntries entries Batch.empty = filled
  obtain ⟨lengths, batch⟩ := filled
  dsimp only
  split
  · exact clean
  · have committed := clean.act (Client.keeping_commit (keeps_holds session.parties) batch)
    exact committed

private theorem Clean.runScript (clean : session.Clean) (ops : List ScriptOp) :
    (session.runScript ops).2.Clean where
  holds := Client.kept_runTransaction (keeps_holds session.parties) (ScriptOp.body ops) clean.holds
  direct := clean.direct
  returned := clean.returned

private theorem Clean.disposeNow (clean : session.Clean) (place : Nat) :
    (session.disposeNow place).2.Clean := by
  have disposed := clean.disposeAt place
  unfold Session.disposeNow
  dsimp only
  split <;> exact disposed

theorem Clean.onMember (clean : session.Clean) (name : String)
    {f : Nat → Member → Except Error Answer × Session}
    (kept : ∀ place member, (f place member).2.Clean) : (session.onMember name f).2.Clean := by
  unfold Session.onMember
  split
  · exact kept _ _
  · exact clean

theorem Clean.onListener (clean : session.Clean) (name : String)
    (f : DirectListener → Except Error Answer × Session) : (session.onListener name f).2.Clean := by
  have nobody : session.listener? name = none := by
    rw [Session.listener?, clean.direct]
    rfl
  rw [Session.onListener, nobody]
  exact clean

theorem Clean.execute (clean : session.Clean) (command : Command)
    (subscribing : ∀ name target mailbox, command ≠ .listenDirectly name target mailbox) :
    (session.execute command).2.Clean := by
  have keeps := keeps_holds session.parties
  cases command with
  | get path =>
    rw [Session.execute]
    exact clean.answer (Client.keeping_getDoc keeps path)
  | getJson path =>
    rw [Session.execute]
    exact clean.answer (Client.keeping_getJson keeps path)
  | write request =>
    rw [Session.execute]
    exact clean.answer (Client.keeping_write keeps request)
  | setJson path json merge =>
    rw [Session.execute]
    exact clean.answer (Client.keeping_setJson keeps path json merge)
  | add collection data =>
    rw [Session.execute]
    exact clean.answer (Client.keeping_addDoc keeps collection data)
  | addJson collection json =>
    rw [Session.execute]
    exact clean.answer (Client.keeping_addJson keeps collection json)
  | query request =>
    rw [Session.execute]
    refine clean.answer ((Client.keeping_except _).bind fun query => ?_)
    exact Client.keeping_getDocs keeps query
  | queryJson request =>
    rw [Session.execute]
    refine clean.answer ((Client.keeping_except _).bind fun query => ?_)
    exact Client.keeping_getDocsJson keeps query
  | batch entries discard => exact clean.runBatch entries discard
  | transaction ops => exact clean.runScript ops
  | subscribe name target => exact clean.subscribe name target
  | phase name => exact clean.onMember name fun _ _ => clean
  | ready name => exact clean.onMember name fun _ _ => clean
  | start name => exact clean.onMember name fun place _ => clean.start place
  | dispose name => exact clean.onMember name fun place _ => clean.disposeNow place
  | drop name => exact clean.letGo name
  | release failure =>
    obtain ⟨store, backend, -⟩ := clean.holds
    refine clean.of_same ?_ rfl rfl
    rw [Session.execute, backend]
    rfl
  | cancel => exact clean.of_same rfl rfl rfl
  | count => exact clean
  | emit events handle =>
    obtain ⟨store, backend, -⟩ := clean.holds
    rw [Session.execute, backend]
    exact clean
  | respond method reply =>
    obtain ⟨store, backend, -⟩ := clean.holds
    refine clean.of_same ?_ rfl rfl
    rw [Session.execute, backend]
    rfl
  | listenDirectly name target mailbox => exact absurd rfl (subscribing name target mailbox)
  | drain name => exact clean.onListener name _
  | close name => exact clean.onListener name _
  | unlisten name => exact clean.onListener name _

end Session

end DocumentStore
