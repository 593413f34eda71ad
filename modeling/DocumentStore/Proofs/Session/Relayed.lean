import DocumentStore.Proofs.Session.Hosting
import DocumentStore.Proofs.Session.Transitions

/-! # The first subscription of a session over a remote store

In a session over a remote store, background work is done in the order in which it became possible, and
commands come in between. For the first subscription this is one of the orders in which a relay takes its
steps: whatever happens in the session, the relay takes some steps in which its observer is called with
the same events. -/

namespace DocumentStore

namespace Session

variable {session : Session} {place : Nat} {name : String} {relay : Relay}

namespace Hosts

theorem act {α : Type} (hosts : Hosts place name session relay) {action : Action Backend α}
    (keeping : Client.Keeping (Serving relay.store) action) :
    Follows place name relay [] (session.act action).2 := by
  obtain ⟨store, backend, reaches⟩ :=
    keeping session.client ⟨relay.store, hosts.backend, .refl relay.store⟩
  exact hosts.aside reaches backend hosts.roster

private theorem answer {α : Type} (hosts : Hosts place name session relay) {wording : α → Answer}
    {action : Action Backend α} (keeping : Client.Keeping (Serving relay.store) action) :
    Follows place name relay [] (session.answer wording action).2 :=
  hosts.act keeping

private theorem runScript (hosts : Hosts place name session relay) (ops : List ScriptOp) :
    Follows place name relay [] (session.runScript ops).2 := by
  obtain ⟨store, backend, reaches⟩ :=
    Client.kept_runTransaction (keeps_serving relay.store) (ScriptOp.body ops)
      ⟨relay.store, hosts.backend, .refl relay.store⟩
  exact hosts.aside reaches backend hosts.roster

private theorem runBatch (hosts : Hosts place name session relay) (entries : List BatchEntry)
    (discard : Bool) : Follows place name relay [] (session.runBatch entries discard).2 := by
  unfold Session.runBatch
  generalize Batch.addEntries entries Batch.empty = filled
  obtain ⟨lengths, batch⟩ := filled
  dsimp only
  split
  · exact hosts.follows
  · have committed := hosts.act (Client.keeping_commit (keeps_serving relay.store) batch)
    exact committed

theorem letGo (hosts : Hosts place name session relay) (other : String) :
    Hosts place name (session.letGo other) relay := by
  unfold Session.letGo
  split
  · exact hosts
  · exact hosts.modify (fun member => ⟨false, _, rfl⟩) _

/-- A mailbox is added, which is not the first one. -/
theorem addMailbox (hosts : Hosts place name session relay) (mailbox : Mailbox) :
    (session.addMailbox mailbox).1 ≠ 0 ∧
      Follows place name relay [] (session.addMailbox mailbox).2 := by
  have number : (session.addMailbox mailbox).1 = relay.store.mailboxes.length := by
    rw [Session.addMailbox, hosts.backend]
    rfl
  have backend : (session.addMailbox mailbox).2.backend
      = .remote { relay.store with mailboxes := relay.store.mailboxes.add mailbox } := by
    rw [Session.addMailbox, hosts.backend]
    rfl
  have same : (session.addMailbox mailbox).2.members = session.members ∧
      (session.addMailbox mailbox).2.listeners = session.listeners := ⟨rfl, rfl⟩
  refine ⟨?_, hosts.aside (.add hosts.inside mailbox) backend ?_⟩
  · rw [number]
    exact hosts.inside.ne'
  · rw [same.1, same.2]
    exact hosts.roster

private theorem subscribe (hosts : Hosts place name session relay) (other : String)
    (target : TargetRequest) :
    Follows place name relay [] (session.subscribe other target).2 := by
  have acted := hosts.act (keeping_targetFor target)
  unfold Session.subscribe
  split
  · rename_i e after answered
    rw [answered] at acted
    exact acted
  · rename_i target after answered
    rw [answered] at acted
    refine acted.bind fun relay hosts => ?_
    obtain ⟨number, added⟩ := (hosts.letGo other).addMailbox .unbounded
    refine added.bind fun relay hosts => Hosts.start ?_ _
    exact ⟨hosts.backend, hosts.inside, hosts.roster.append number, hosts.sound, hosts.unasked⟩

private theorem disposeNow (hosts : Hosts place name session relay) (other : Nat) :
    Follows place name relay [] (session.disposeNow other).2 := by
  have disposed := hosts.disposeAt other
  unfold Session.disposeNow
  dsimp only
  split <;> exact disposed

private theorem onMember (hosts : Hosts place name session relay) (other : String)
    {f : Nat → Member → Except Error Answer × Session}
    (follows : ∀ other member, Follows place name relay [] (f other member).2) :
    Follows place name relay [] (session.onMember other f).2 := by
  unfold Session.onMember
  split
  · exact follows _ _
  · exact hosts.follows

/-- Listeners of the owner's own have other mailboxes. -/
private theorem withMailbox (hosts : Hosts place name session relay) {number : Nat} (other : number ≠ 0)
    (mailbox : Mailbox) : Follows place name relay [] (session.withMailbox number mailbox) := by
  rw [withMailbox_remote hosts.backend]
  exact hosts.aside (.settle hosts.inside other mailbox none) rfl hosts.roster

private theorem onListener (hosts : Hosts place name session relay) (other : String)
    {f : DirectListener → Except Error Answer × Session}
    (follows : ∀ listener : DirectListener, listener.mailbox ≠ 0 →
      Follows place name relay [] (f listener).2) :
    Follows place name relay [] (session.onListener other f).2 := by
  unfold Session.onListener
  split
  · rename_i listener found
    exact follows listener (hosts.roster.direct listener (List.mem_of_find?_eq_some found))
  · exact hosts.follows

private theorem forget (hosts : Hosts place name session relay) (other : String) :
    Follows place name relay [] (session.forget other) := by
  unfold Session.forget
  split
  · exact hosts.follows
  · rename_i listener found
    have mailbox := hosts.roster.direct listener (List.mem_of_find?_eq_some found)
    have closed : (session.closeListener listener) = _ := withMailbox_remote hosts.backend _ _
    have roster : Roster place name relay.subscription session.members
        (session.listeners.filter fun other' => other'.name != other) :=
      ⟨hosts.roster.present, hosts.roster.others,
        fun one mem => hosts.roster.direct one (List.mem_filter.mp mem).1⟩
    rw [closed]
    exact hosts.aside (.settle hosts.inside mailbox _ none) rfl roster

/-- The owner has the store register another mailbox or end a registration. -/
theorem actOnStore {α : Type} (hosts : Hosts place name session relay)
    (operation : Backend → Except Error α × Backend) {answered : Except Error α × RemoteStore}
    (same : operation (.remote relay.store) = (answered.1, .remote answered.2))
    (reaches : relay.store.Reaches answered.2) :
    Follows place name relay [] (session.actOnStore operation).2 := by
  rw [Session.actOnStore, hosts.backend, same]
  exact hosts.aside reaches rfl hosts.roster

private theorem listenDirectly (hosts : Hosts place name session relay) (other : String)
    (target : TargetRequest) (mailbox : Mailbox) :
    Follows place name relay [] (session.listenDirectly other target mailbox).2 := by
  unfold Session.listenDirectly
  split
  · exact hosts.follows
  · rename_i target _
    obtain ⟨number, added⟩ := hosts.addMailbox mailbox
    generalize session.addMailbox mailbox = given at number added ⊢
    obtain ⟨place', session⟩ := given
    refine Follows.bind added fun relay hosts => ?_
    have listened := hosts.actOnStore (Datastore.listen target place') rfl
      (.listen target number relay.store)
    dsimp only at listened ⊢
    generalize session.actOnStore (Datastore.listen target place') = answered at listened ⊢
    obtain ⟨answer, session⟩ := answered
    cases answer with
    | error e => exact listened
    | ok token =>
      refine Follows.bind listened fun relay hosts => (hosts.forget other).bind fun relay hosts => ?_
      have roster : Roster place name relay.subscription (session.forget other).members
          (⟨other, token, place'⟩ :: (session.forget other).listeners) :=
        ⟨hosts.roster.present, hosts.roster.others, List.forall_mem_cons.mpr ⟨number, hosts.roster.direct⟩⟩
      exact Hosts.follows ⟨hosts.backend, hosts.inside, roster, hosts.sound, hosts.unasked⟩

/-- A command is some steps of the relay in which no observer is called. -/
theorem execute (hosts : Hosts place name session relay) (command : Command) :
    Follows place name relay [] (session.execute command).2 := by
  have keeps := keeps_serving relay.store
  cases command with
  | get path =>
    rw [Session.execute]
    exact hosts.answer (Client.keeping_getDoc keeps path)
  | getJson path =>
    rw [Session.execute]
    exact hosts.answer (Client.keeping_getJson keeps path)
  | write request =>
    rw [Session.execute]
    exact hosts.answer (Client.keeping_write keeps request)
  | setJson path json merge =>
    rw [Session.execute]
    exact hosts.answer (Client.keeping_setJson keeps path json merge)
  | add collection data =>
    rw [Session.execute]
    exact hosts.answer (Client.keeping_addDoc keeps collection data)
  | addJson collection json =>
    rw [Session.execute]
    exact hosts.answer (Client.keeping_addJson keeps collection json)
  | query request =>
    rw [Session.execute]
    exact hosts.answer ((Client.keeping_except _).bind fun _ => Client.keeping_getDocs keeps _)
  | queryJson request =>
    rw [Session.execute]
    exact hosts.answer ((Client.keeping_except _).bind fun _ => Client.keeping_getDocsJson keeps _)
  | batch entries discard => exact hosts.runBatch entries discard
  | transaction ops => exact hosts.runScript ops
  | subscribe other target => exact hosts.subscribe other target
  | phase other => exact hosts.onMember other fun _ _ => hosts.follows
  | ready other => exact hosts.onMember other fun _ _ => hosts.follows
  | start other => exact hosts.onMember other fun _ _ => hosts.start _
  | dispose other => exact hosts.onMember other fun _ _ => hosts.disposeNow _
  | drop other => exact (hosts.letGo other).follows
  | release failure =>
    have same : session.backend.changeGate (Gate.release failure) = .remote relay.store := by
      rw [hosts.backend]
      rfl
    exact hosts.aside (.refl relay.store) same hosts.roster
  | cancel => exact hosts.aside (.refl relay.store) hosts.backend hosts.roster
  | count => exact hosts.follows
  | emit events handle =>
    rw [Session.execute, hosts.backend]
    exact hosts.aside (.emit handle events relay.store) rfl hosts.roster
  | respond method reply =>
    have laid : session.backend.changeRemote
        (fun store => { store with bridge := store.bridge.respond method reply })
          = .remote (relay.store.step (.respond method reply)) := by
      rw [hosts.backend]
      rfl
    exact hosts.aside (.one (.respond method reply) relay.store) laid hosts.roster
  | listenDirectly other target mailbox => exact hosts.listenDirectly other target mailbox
  | drain other => exact hosts.onListener other fun _ mailbox => hosts.withMailbox mailbox _
  | close other => exact hosts.onListener other fun _ mailbox => hosts.withMailbox mailbox _
  | unlisten other =>
    refine hosts.onListener other fun listener _ => ?_
    exact hosts.actOnStore (Datastore.unlisten listener.token) rfl
      (.one (.unlisten listener.token) relay.store)

end Hosts

/-- The events that the observer of the member at a place is called with in a piece of work. -/
def toldBy (place : Nat) (task : Task) (session : Session) : List ListenEvent :=
  if task = .subscription place then
    ((session.runTask task).heard.drop session.heard.length).map Prod.snd
  else []

/-- What can happen in a session, with the events that the observer of the member at a place is called
with: commands are obeyed, and background work that can go on does so in any order. What is queued and
what is kept for the next report may be anything. -/
inductive Course (place : Nat) (start : Session) : List ListenEvent → Session → Prop where
  | begin : Course place start [] start
  | execute {told : List ListenEvent} {session : Session} (course : Course place start told session)
      (command : Command) : Course place start told (session.execute command).2
  | runTask {told : List ListenEvent} {session : Session} (course : Course place start told session)
      {task : Task} (enabled : session.isEnabled task = true) :
      Course place start (told ++ session.toldBy place task) (session.runTask task)
  | note {told : List ListenEvent} {session : Session} (course : Course place start told session)
      (ready : List Task) (heard : List (String × ListenEvent)) (reported : Nat) :
      Course place start told { session with ready, heard, reported }

/-- Whatever happens in a session that hosts a relay, the relay takes some steps in which its observer
hears what the observer of the member hears. -/
theorem Hosts.course {start : Session} (hosts : Hosts place name start relay)
    {told : List ListenEvent} (course : Course place start told session) :
    Follows place name relay told session := by
  induction course with
  | begin => exact hosts.follows
  | @execute told session _ command ih =>
    have later := ih.bind fun _ hosts => hosts.execute command
    rwa [List.append_nil] at later
  | @runTask told session _ task enabled ih =>
    refine ih.bind fun relay hosts => ?_
    obtain ⟨events, follows, heard⟩ := hosts.runTask enabled
    have same : session.toldBy place task = events := by
      unfold toldBy
      split
      · rename_i own
        rw [if_pos own] at heard
        rw [heard, List.drop_left, List.map_map]
        exact List.map_id _
      · rename_i other
        rw [if_neg other] at heard
        exact heard.symm
    rw [same]
    exact follows
  | note _ ready heard reported ih =>
    obtain ⟨steps, hosts, told⟩ := ih
    exact ⟨steps, ⟨hosts.backend, hosts.inside, hosts.roster, hosts.sound, hosts.unasked⟩, told⟩

/-- A session over a remote store hosts a relay once somebody has subscribed. -/
theorem follows_subscribe {bridge : Bridge} {capacity : Nat} {request : TargetRequest}
    {answer : Answer} {start : Session}
    (subscribed : (new (.remote (.new bridge capacity))).execute (.subscribe name request)
      = (.ok answer, start)) :
    ∃ target, Follows 0 name (.new bridge capacity [] target) [] start := by
  have keeping := keeping_targetFor (P := (· = Backend.remote (.new bridge capacity))) request
    (new (.remote (.new bridge capacity))).client rfl
  rw [Session.execute, Session.subscribe, Session.act] at subscribed
  generalize (targetFor request).run (new (.remote (.new bridge capacity))).client = given
    at keeping subscribed
  obtain ⟨answered, client⟩ := given
  cases answered with
  | error e => cases subscribed
  | ok target =>
    obtain ⟨store, _⟩ := client
    obtain rfl : store = .remote (.new bridge capacity) := keeping
    obtain ⟨-, rfl⟩ := Prod.mk.inj subscribed
    refine ⟨target, Hosts.start ?_ 0⟩
    exact {
      backend := rfl
      inside := Nat.zero_lt_one
      roster := .single name (.new target) true false
      sound := Feed.sound_new target
      unasked := fun _ => rfl }

/-- Whatever happens in a session over a remote store after somebody has subscribed, a relay takes some
steps in which its observer hears what the observer of this first subscription hears. -/
theorem first_subscription_relayed {bridge : Bridge} {capacity : Nat} {request : TargetRequest}
    {answer : Answer} {start : Session} {told : List ListenEvent}
    (subscribed : (new (.remote (.new bridge capacity))).execute (.subscribe name request)
      = (.ok answer, start))
    (course : Course 0 start told session) :
    ∃ target, Follows 0 name (.new bridge capacity [] target) told session := by
  obtain ⟨target, follows⟩ := follows_subscribe subscribed
  exact ⟨target, follows.bind fun _ hosts => hosts.course course⟩

end Session

end DocumentStore
