import DocumentStore.Proofs.Remote.Operations
import DocumentStore.Proofs.Remote.Relay
import DocumentStore.Session.Basic

/-! # A session that hosts a relay

A session over a remote store gives its first subscription the first mailbox. What the session does for
this subscription are steps of a relay, and what it does for the others are other steps of the store. -/

namespace DocumentStore

open Mailboxes

/-- A member at a place, with a name and a subscription, has the first mailbox, and nobody else has. -/
structure Roster (place : Nat) (name : String) (subscription : Subscription) (members : List Member)
    (listeners : List DirectListener) : Prop where
  present : ∃ held leaving, members[place]? = some ⟨name, subscription, 0, held, leaving⟩
  others : ∀ other member, members[other]? = some member → other ≠ place → member.mailbox ≠ 0
  direct : ∀ listener ∈ listeners, listener.mailbox ≠ 0

namespace Roster

variable {place other : Nat} {name : String} {subscription : Subscription} {members : List Member}
  {listeners : List DirectListener} {member : Member}

/-- There is nobody else. -/
theorem single (name : String) (subscription : Subscription) (held leaving : Bool) :
    Roster 0 name subscription [⟨name, subscription, 0, held, leaving⟩] [] where
  present := ⟨held, leaving, rfl⟩
  others other member here apart := by
    cases other with
    | zero => exact absurd rfl apart
    | succ other => simp at here
  direct := List.forall_mem_nil _

theorem own (roster : Roster place name subscription members listeners)
    (present : members[place]? = some member) (s : Subscription) :
    Roster place name s (members.set place { member with subscription := s }) listeners where
  present := by
    obtain ⟨held, leaving, here⟩ := roster.present
    obtain rfl := Option.some.inj (present.symm.trans here)
    have within : place < members.length := (List.getElem?_eq_some_iff.mp present).1
    exact ⟨held, leaving, by rw [List.getElem?_set_self within]⟩
  others other member' here apart := by
    rw [List.getElem?_set_ne apart.symm] at here
    exact roster.others other member' here apart
  direct := roster.direct

theorem set (roster : Roster place name subscription members listeners) (apart : other ≠ place)
    (present : members[other]? = some member) (s : Subscription) :
    Roster place name subscription (members.set other { member with subscription := s }) listeners where
  present := by
    rw [List.getElem?_set_ne apart]
    exact roster.present
  others other' member' here apart' := by
    by_cases same : other = other'
    · subst same
      have within : other < members.length := (List.getElem?_eq_some_iff.mp present).1
      rw [List.getElem?_set_self within] at here
      obtain rfl := Option.some.inj here
      exact roster.others other member present apart
    · rw [List.getElem?_set_ne same] at here
      exact roster.others other' member' here apart'
  direct := roster.direct

theorem modify (roster : Roster place name subscription members listeners) {f : Member → Member}
    (kept : ∀ member, ∃ held leaving, f member = { member with held, leaving }) (other : Nat) :
    Roster place name subscription (members.modify other f) listeners where
  present := by
    obtain ⟨held, leaving, here⟩ := roster.present
    rw [List.getElem?_modify, here]
    split
    · obtain ⟨held, leaving, same⟩ := kept ⟨name, subscription, 0, held, leaving⟩
      exact ⟨held, leaving, congrArg some same⟩
    · exact ⟨held, leaving, rfl⟩
  others other' member' here apart := by
    rw [List.getElem?_modify] at here
    obtain ⟨before, found, rfl⟩ := Option.map_eq_some_iff.mp here
    have mailbox := roster.others other' before found apart
    split
    · obtain ⟨held, leaving, same⟩ := kept before
      rw [same]
      exact mailbox
    · exact mailbox
  direct := roster.direct

/-- Somebody comes with another mailbox. -/
theorem append (roster : Roster place name subscription members listeners)
    (mailbox : member.mailbox ≠ 0) :
    Roster place name subscription (members ++ [member]) listeners where
  present := by
    obtain ⟨held, leaving, here⟩ := roster.present
    have within : place < members.length := (List.getElem?_eq_some_iff.mp here).1
    exact ⟨held, leaving, by rw [List.getElem?_append_left within, here]⟩
  others other member' here apart := by
    by_cases within : other < members.length
    · rw [List.getElem?_append_left within] at here
      exact roster.others other member' here apart
    · rw [List.getElem?_append_right (Nat.le_of_not_lt within)] at here
      obtain rfl := List.mem_singleton.mp (List.mem_of_getElem? here)
      exact mailbox
  direct := roster.direct

end Roster

/-- Tells the steps that call no observer. The owner of the subscription has them taken. -/
def FeedStep.isQuiet : FeedStep → Bool
  | .start | .beginDispose | .endDispose _ => true
  | _ => false

private theorem FeedStep.isOwn_of_isQuiet {step : FeedStep} (quiet : step.isQuiet = true) :
    step.isOwn = true := by
  cases step <;> first | rfl | cases quiet

private theorem Feed.notified_eq_none (feed : Feed) {step : FeedStep} (quiet : step.isQuiet = true) :
    (feed.step step).2.notified = none := by
  cases step with
  | start =>
    rw [Feed.step]
    split <;> rfl
  | beginDispose => rfl
  | endDispose place =>
    rw [Feed.step]
    split <;> rfl
  | _ => cases quiet

namespace Relay

variable {relay : Relay}

private theorem run_others (steps : List RemoteStep) (relay : Relay) :
    relay.run (steps.map .other) = { relay with store := relay.store.run steps } ∧
      relay.heard (steps.map .other) = [] := by
  induction steps generalizing relay with
  | nil => exact ⟨rfl, rfl⟩
  | cons step steps ih => exact ih { relay with store := relay.store.step step }

private theorem heard_append (relay : Relay) (steps later : List RelayStep) :
    relay.heard (steps ++ later) = relay.heard steps ++ (relay.run steps).heard later :=
  trace_append _ relay steps later

private theorem run_own {feedStep : FeedStep} (own : feedStep.isOwn = true) (relay : Relay) :
    relay.run [.own feedStep] = (relay.take feedStep).1 ∧
      relay.heard [.own feedStep] = (relay.take feedStep).2.notified.toList := by
  have stepped : relay.step (.own feedStep) = relay.take feedStep := by rw [step, if_pos own]
  constructor
  · rw [← stepped]
    rfl
  · rw [← stepped]
    exact List.append_nil _

theorem run_ask_settle (requesting : relay.subscription.stage = .requesting)
    (unasked : relay.answer = none) :
    let answer := (relay.store.listen relay.subscription.target 0).1
    relay.run [.ask, .settle] = (relay.ask.take (.settle answer)).1 ∧
      relay.heard [.ask, .settle] = (relay.ask.take (.settle answer)).2.notified.toList := by
  intro answer
  have canAsk : relay.canAsk = true := by simp [Relay.canAsk, requesting, unasked]
  have asked : relay.step .ask = (relay.ask, .nothing) := by rw [step, if_pos canAsk]
  have settled : relay.ask.step .settle = relay.ask.take (.settle answer) := rfl
  constructor
  · rw [← settled]
    show ((relay.step .ask).1.step .settle).1 = _
    rw [asked]
  · rw [← settled]
    show (relay.step .ask).2.notified.toList
      ++ (((relay.step .ask).1.step .settle).2.notified.toList ++ []) = _
    rw [asked, List.append_nil]
    rfl

end Relay

namespace Session

variable {session after : Session} {store : RemoteStore} {place other : Nat} {name : String}
  {member : Member} {relay : Relay}

private theorem mailbox_remote (backend : session.backend = .remote store) (number : Nat) :
    session.mailbox number = box number store.mailboxes := by
  rw [mailbox, backend, Backend.mailboxes]

theorem withMailbox_remote (backend : session.backend = .remote store) (number : Nat)
    (mailbox : Mailbox) :
    session.withMailbox number mailbox
      = session.withBackend (.remote { store with mailboxes := store.mailboxes.set number mailbox }) := by
  rw [withMailbox, backend]
  rfl

/-- A step of a member in terms of its feed and of the store. -/
theorem step_remote (backend : session.backend = .remote store)
    (present : session.members[place]? = some member) (feedStep : FeedStep) :
    let moved := (⟨member.subscription, box member.mailbox store.mailboxes⟩ : Feed).step feedStep
    (session.step place feedStep).backend
        = .remote (store.settle member.mailbox moved.1.mailbox moved.2.released) ∧
      (session.step place feedStep).members
        = session.members.set place { member with subscription := moved.1.subscription } ∧
      (session.step place feedStep).listeners = session.listeners ∧
      (session.step place feedStep).heard
        = session.heard ++ moved.2.notified.toList.map fun event => (member.name, event) := by
  intro moved
  have stepped : session.step place feedStep =
      let members := session.members.set place { member with subscription := moved.1.subscription }
      (({ session with members }).withMailbox member.mailbox moved.1.mailbox).carryOut member.name
        moved.2 := by
    simp only [step, present, mailbox_remote backend]
    rfl
  have opened (members : List Member) : ({ session with members }).backend = .remote store := backend
  rw [stepped, ← Option.toList_map]
  dsimp only
  rw [withMailbox_remote (opened _), carryOut]
  unfold RemoteStore.settle
  cases moved.2.released with
  | none => exact ⟨rfl, rfl, rfl, rfl⟩
  | some token => exact ⟨rfl, rfl, rfl, rfl⟩

/-- The subscription and the store of a relay are those of a session, where the member at a place has
the first mailbox. The store is asked for the registration when its answer can be handed on. -/
structure Hosts (place : Nat) (name : String) (session : Session) (relay : Relay) : Prop where
  backend : session.backend = .remote relay.store
  inside : 0 < relay.store.mailboxes.length
  roster : Roster place name relay.subscription session.members session.listeners
  sound : relay.subscription.Sound
  unasked : relay.subscription.stage = .idle ∨ relay.subscription.stage = .requesting →
    relay.answer = none

/-- A relay comes to one that a session hosts by steps in which its observer hears some events. -/
def Follows (place : Nat) (name : String) (relay : Relay) (told : List ListenEvent)
    (after : Session) : Prop :=
  ∃ steps, Hosts place name after (relay.run steps) ∧ relay.heard steps = told

theorem Hosts.follows (hosts : Hosts place name session relay) : Follows place name relay [] session :=
  ⟨[], hosts, rfl⟩

theorem Follows.bind {told later : List ListenEvent} (follows : Follows place name relay told session)
    (next : ∀ relay, Hosts place name session relay → Follows place name relay later after) :
    Follows place name relay (told ++ later) after := by
  obtain ⟨steps, hosts, rfl⟩ := follows
  obtain ⟨further, hosts, rfl⟩ := next _ hosts
  refine ⟨steps ++ further, ?_, relay.heard_append steps further⟩
  rw [Relay.run_append]
  exact hosts

namespace Hosts

/-- Something happens that leaves the member at the place alone. -/
theorem aside (hosts : Hosts place name session relay) (reaches : relay.store.Reaches store)
    (backend : after.backend = .remote store)
    (roster : Roster place name relay.subscription after.members after.listeners) :
    Follows place name relay [] after := by
  have inside := reaches.inside hosts.inside
  obtain ⟨steps, rfl⟩ := reaches
  obtain ⟨run, quiet⟩ := relay.run_others steps
  refine ⟨steps.map .other, ?_, quiet⟩
  rw [run]
  exact ⟨backend, inside, roster, hosts.sound, hosts.unasked⟩

/-- Another member takes a step. -/
theorem step_other (hosts : Hosts place name session relay) (apart : other ≠ place)
    (feedStep : FeedStep) : Follows place name relay [] (session.step other feedStep) := by
  cases present : session.members[other]? with
  | none =>
    rw [Session.step, present]
    exact hosts.follows
  | some member =>
    obtain ⟨backend, members, listeners, -⟩ := step_remote hosts.backend present feedStep
    have mailbox := hosts.roster.others other member present apart
    refine hosts.aside (.settle hosts.inside mailbox _ _) backend ?_
    rw [members, listeners]
    exact hosts.roster.set apart present _

end Hosts

/-- When the member at the place takes a step, the relay takes the same. -/
theorem hosts_take (backend : session.backend = .remote relay.store)
    (inside : 0 < relay.store.mailboxes.length)
    (roster : Roster place name relay.subscription session.members session.listeners)
    (sound : relay.subscription.Sound) (feedStep : FeedStep)
    (unasked : (relay.take feedStep).1.subscription.stage = .idle ∨
      (relay.take feedStep).1.subscription.stage = .requesting → relay.answer = none) :
    Hosts place name (session.step place feedStep) (relay.take feedStep).1 ∧
      (session.step place feedStep).heard
        = session.heard ++ (relay.take feedStep).2.notified.toList.map fun event => (name, event) := by
  obtain ⟨held, leaving, present⟩ := roster.present
  obtain ⟨backend', members, listeners, heard⟩ := step_remote backend present feedStep
  refine ⟨⟨backend', ?_, ?_, ?_, unasked⟩, heard⟩
  · show 0 < (relay.store.settle 0 _ _).mailboxes.length
    rwa [RemoteStore.mailboxes_settle, List.length_set]
  · rw [members, listeners]
    exact roster.own present _
  · exact sound.move (relay.feed.move_step feedStep)

namespace Hosts

/-- The member at the place takes a step by itself. -/
theorem step_own (hosts : Hosts place name session relay) {feedStep : FeedStep}
    (own : feedStep.isOwn = true) :
    let told := (relay.take feedStep).2.notified.toList
    Follows place name relay told (session.step place feedStep) ∧
      (session.step place feedStep).heard = session.heard ++ told.map fun event => (name, event) := by
  have move := relay.feed.move_step feedStep
  obtain ⟨after, heard⟩ := hosts_take hosts.backend hosts.inside hosts.roster hosts.sound feedStep
    fun waiting => hosts.unasked (move.waiting hosts.sound waiting)
  obtain ⟨run, told⟩ := relay.run_own own
  exact ⟨⟨[.own feedStep], run ▸ after, told⟩, heard⟩

/-- A member takes a step that calls no observer. -/
theorem step_quiet (hosts : Hosts place name session relay) (other : Nat) {feedStep : FeedStep}
    (quiet : feedStep.isQuiet = true) :
    Follows place name relay [] (session.step other feedStep) := by
  by_cases same : other = place
  · have nothing : (relay.take feedStep).2.notified = none := relay.feed.notified_eq_none quiet
    obtain ⟨follows, -⟩ := hosts.step_own (FeedStep.isOwn_of_isQuiet quiet)
    rw [nothing] at follows
    rw [same]
    exact follows
  · exact hosts.step_other same feedStep

theorem start (hosts : Hosts place name session relay) (other : Nat) :
    Follows place name relay [] (session.step other .start) :=
  hosts.step_quiet other rfl

theorem disposeAt (hosts : Hosts place name session relay) (other : Nat) :
    Follows place name relay [] (session.disposeAt other) :=
  (hosts.step_quiet other rfl).bind fun _ hosts => hosts.step_quiet other rfl

end Hosts

theorem register_remote (backend : session.backend = .remote store) (place : Nat) (member : Member) :
    let answered := store.listen member.subscription.target member.mailbox
    session.register place member
      = (session.withBackend (.remote answered.2)).step place (.settle answered.1) := by
  rw [register, actOnStore, backend]
  rfl

/-- Work of the member at some place goes on, and if this is the place in question, its observer is called
with the events that the observer of the relay hears. -/
def Works (place : Nat) (name : String) (relay : Relay) (other : Nat) (session after : Session) :
    Prop :=
  ∃ told, Follows place name relay told after ∧
    if other = place then after.heard = session.heard ++ told.map fun event => (name, event)
    else told = []

namespace Hosts

theorem idle (hosts : Hosts place name session relay) (other : Nat) :
    Works place name relay other session session := by
  refine ⟨[], hosts.follows, ?_⟩
  split
  · exact (List.append_nil _).symm
  · rfl

private theorem step (hosts : Hosts place name session relay) (other : Nat) {feedStep : FeedStep}
    (own : feedStep.isOwn = true) :
    Works place name relay other session (session.step other feedStep) := by
  by_cases same : other = place
  · subst same
    obtain ⟨follows, heard⟩ := hosts.step_own own
    exact ⟨_, follows, by rwa [if_pos rfl]⟩
  · exact ⟨[], hosts.step_other same feedStep, by rw [if_neg same]⟩

private theorem register (hosts : Hosts place name session relay)
    (present : session.members[other]? = some member)
    (requesting : member.subscription.stage = .requesting) :
    Works place name relay other session (session.register other member) := by
  let answered := relay.store.listen member.subscription.target member.mailbox
  have asked : (session.withBackend (.remote answered.2)).backend = .remote answered.2 := rfl
  rw [register_remote hosts.backend]
  by_cases same : other = place
  · subst same
    obtain ⟨held, leaving, here⟩ := hosts.roster.present
    obtain rfl := Option.some.inj (present.symm.trans here)
    have settled := (relay.ask.feed.move_step (.settle answered.1)).not_waiting requesting
    have kept := RemoteStore.mailboxes_listen relay.subscription.target 0 relay.store
    have inside : 0 < relay.ask.store.mailboxes.length :=
      hosts.inside.trans_eq (congrArg List.length kept).symm
    have asked : (session.withBackend (.remote answered.2)).backend = .remote relay.ask.store := rfl
    obtain ⟨after, heard⟩ := hosts_take asked inside hosts.roster hosts.sound (.settle answered.1)
      fun waiting => absurd waiting settled
    obtain ⟨run, told⟩ := relay.run_ask_settle requesting (hosts.unasked (.inr requesting))
    exact ⟨_, ⟨[.ask, .settle], run ▸ after, told⟩, by rwa [if_pos rfl]⟩
  · have mailbox := hosts.roster.others other member present same
    have listened := hosts.aside (.listen member.subscription.target mailbox relay.store) asked
      hosts.roster
    exact ⟨[], listened.bind fun _ hosts => hosts.step_other same _, by rw [if_neg same]⟩

private theorem advance (hosts : Hosts place name session relay)
    (present : session.members[other]? = some member) :
    Works place name relay other session (session.advance other member) := by
  unfold Session.advance
  split
  · exact hosts.idle other
  · exact hosts.idle other
  · rename_i requesting
    exact hosts.register present requesting
  · exact hosts.step other rfl
  · exact hosts.step other rfl
  · exact hosts.step other rfl

/-- What the owner remembers of a member does not matter. -/
theorem modify (hosts : Hosts place name session relay) {f : Member → Member}
    (kept : ∀ member, ∃ held leaving, f member = { member with held, leaving }) (other : Nat) :
    Hosts place name { session with members := session.members.modify other f } relay :=
  ⟨hosts.backend, hosts.inside, hosts.roster.modify kept other, hosts.sound, hosts.unasked⟩

/-- A piece of work that can go on is some steps of the relay. Only the work of its own subscription calls
its observer. -/
theorem runTask (hosts : Hosts place name session relay) {task : Task}
    (enabled : session.isEnabled task = true) :
    ∃ told, Follows place name relay told (session.runTask task) ∧
      if task = .subscription place then
        (session.runTask task).heard = session.heard ++ told.map fun event => (name, event)
      else told = [] := by
  cases task with
  | subscription other =>
    have works : Works place name relay other session (session.runTask (.subscription other)) := by
      unfold Session.runTask
      dsimp only
      split
      · rename_i member present
        exact hosts.advance present
      · exact hosts.idle other
    obtain ⟨told, follows, heard⟩ := works
    refine ⟨told, follows, ?_⟩
    simpa using heard
  | forwarding token =>
    have found : ∃ listener, relay.store.listener? token = some listener ∧
        RemoteStore.canForward relay.store.mailboxes listener = true := by
      have remote : session.backend.remote? = some relay.store := by
        rw [hosts.backend]
        rfl
      rw [isEnabled, remote] at enabled
      exact Option.any_eq_true _ _ |>.mp enabled
    obtain ⟨listener, found, movable⟩ := found
    have backend : (session.runTask (.forwarding token)).backend
        = .remote (relay.store.forward token) := by
      rw [Session.runTask, hosts.backend]
      rfl
    exact ⟨[], hosts.aside (.forward found movable) backend hosts.roster, by simp⟩
  | disposal other =>
    have marked := hosts.modify (f := fun member => { member with leaving := false })
      (fun member => ⟨member.held, false, rfl⟩) other
    exact ⟨[], marked.disposeAt other, by simp⟩

end Hosts

end Session

end DocumentStore
