import DocumentStore.Proofs.Session.Transitions
import Mathlib

/-! # Sessions leak no listeners

In a session over a store in memory, subscriptions come and go in any order: they are started, told of
changes, disposed of by their owner or let go of, and their background work goes on in between. Whenever
no background work is left to do, the listeners of the store are those of the active subscriptions. -/

namespace DocumentStore

open Mailboxes

/-- What the registry says of a listener, to be compared with what a subscription says. -/
def Listener.entry (listener : Listener) : Option Token × ListenTarget × Nat :=
  (some listener.token, listener.target, listener.mailbox)

namespace Party

/-- The token of a party, what it listens to, and the number of its mailbox. -/
def entry (party : Party) : Option Token × ListenTarget × Nat :=
  (party.subscription.token, party.subscription.target, party.mailbox)

def isActive (party : Party) : Bool := party.subscription.phase == .active

variable {party : Party} {boxes : Mailboxes}

/-- Nobody has begun to dispose of a party that is not disposed of. -/
theorem undisposed (inStep : party.subscription.InStep)
    (live : party.subscription.phase.isDisposed = false) : party.subscription.disposals = [] := by
  by_contra waiting
  have disposed := inStep.disposals waiting
  rw [live] at disposed
  cases disposed

theorem owed_of_active (inStep : party.subscription.InStep)
    (active : party.subscription.phase = .active) :
    ∃ token, party.subscription.token = some token ∧ party.owed = [token] := by
  obtain ⟨token, registered⟩ := inStep.registered active
  have live : party.subscription.phase.isDisposed = false := by rw [active]; rfl
  have stage := inStep.active active
  have undisposed := undisposed inStep live
  refine ⟨token, registered, ?_⟩
  simp [owed, Feed.owed, registered, stage, undisposed, Stage.orphan?]

theorem owed_of_inactive (inStep : party.subscription.InStep) (atRest : (party.feed boxes).AtRest)
    (inactive : party.subscription.phase ≠ .active) : party.owed = [] := by
  cases phase : party.subscription.phase with
  | created =>
    have live : party.subscription.phase.isDisposed = false := by rw [phase]; rfl
    have unregistered := inStep.token inactive
    have stage := inStep.created phase
    have undisposed := undisposed inStep live
    simp [owed, Feed.owed, unregistered, stage, undisposed, Stage.orphan?]
  | registering =>
    -- The store still owes it an answer.
    have idle := atRest (.settle (.ok 0)) rfl
    have stage := congrArg (fun result => result.1.subscription.stage) idle
    simp [Feed.step, feed, inStep.registering phase, Subscription.settle, phase] at stage
  | active => exact absurd phase inactive
  | disposed flag =>
    have disposed : party.subscription.phase.isDisposed = true := by rw [phase]; rfl
    have nothing : (party.feed boxes).owed = [] := Feed.owed_eq_nil inStep.toSound disposed atRest
    exact nothing

end Party

namespace Accounts

variable {store : Store} {parties : List Party}

private theorem nodup_entries (accounts : Accounts parties store) :
    (store.listeners.map Listener.entry).Nodup ∧ (parties.map Party.entry).Nodup := by
  constructor
  · have tokens := accounts.distinct
    rw [List.Nodup, List.pairwise_map] at tokens ⊢
    refine tokens.imp ?_
    intro one other apart same
    exact apart (Option.some.inj (congrArg Prod.fst same))
  · rw [List.Nodup, List.pairwise_map]
    refine accounts.apart.imp ?_
    intro one other apart same
    exact apart.1 (congrArg (fun entry => entry.2.2) same)

/-- When the work of every party is done, the listeners of the store are those of the active parties. -/
theorem listeners_perm (accounts : Accounts parties store)
    (atRest : ∀ party ∈ parties, (party.feed store.mailboxes).AtRest) :
    (store.listeners.map Listener.entry).Perm ((parties.filter Party.isActive).map Party.entry) := by
  obtain ⟨listeners, entries⟩ := accounts.nodup_entries
  have active : ((parties.filter Party.isActive).map Party.entry).Nodup :=
    entries.sublist (List.filter_sublist.map Party.entry)
  refine (List.perm_ext_iff_of_nodup listeners active).mpr fun entry => ?_
  rw [List.mem_map, List.mem_map]
  constructor
  · rintro ⟨listener, mem, rfl⟩
    obtain ⟨party, among, same, owed⟩ := accounts.owned listener mem
    have inStep := (accounts.standing party among).inStep
    have active : party.subscription.phase = .active := by
      by_contra inactive
      rw [Party.owed_of_inactive inStep (atRest party among) inactive] at owed
      cases owed
    obtain ⟨token, registered, owes⟩ := Party.owed_of_active inStep active
    rw [owes, List.mem_singleton] at owed
    refine ⟨party, List.mem_filter.mpr ⟨among, beq_iff_eq.mpr active⟩, ?_⟩
    rw [same, Party.entry, registered, owed]
    rfl
  · rintro ⟨party, among, rfl⟩
    obtain ⟨among, active⟩ := List.mem_filter.mp among
    have standing := accounts.standing party among
    have active : party.subscription.phase = .active := eq_of_beq active
    obtain ⟨token, registered⟩ := standing.inStep.registered active
    rcases standing.served active token registered with mem | ⟨event, mem, terminal⟩
    · refine ⟨_, mem, ?_⟩
      rw [Listener.entry, Party.entry, registered]
      rfl
    · have delivered : (party.feed store.mailboxes).mailbox.items = [] :=
        (atRest party among).items_eq_nil (standing.inStep.active active)
      have waiting : event ∈ (party.feed store.mailboxes).mailbox.items := mem
      rw [delivered] at waiting
      cases waiting

end Accounts

namespace Session

variable {session : Session} {store : Store}

/-- The sessions over a new store in memory. The owner gives any commands, except that they register no
mailboxes of their own, and background work that can go on does so in any order. In between the clock
may be set to any time. What is queued and what is kept for the next report may be anything. -/
inductive Reached : Session → Prop where
  | new (clock : Clock) : Reached (.new (.memory (Store.empty clock)))
  | setClock {session : Session} {store : Store} (reached : Reached session)
      (backend : session.backend = .memory store) (clock : Clock) :
      Reached (session.withBackend (.memory { store with clock }))
  | execute {session : Session} (reached : Reached session) (command : Command)
      (subscribing : ∀ name target mailbox, command ≠ .listenDirectly name target mailbox) :
      Reached (session.execute command).2
  | runTask {session : Session} (reached : Reached session) {task : Task}
      (enabled : session.isEnabled task = true) : Reached (session.runTask task)
  | note {session : Session} (reached : Reached session) (ready : List Task)
      (heard : List (String × ListenEvent)) (reported : Nat) :
      Reached { session with ready, heard, reported }

/-- No piece of background work can go on. -/
def AtRest (session : Session) : Prop := ∀ task, session.isEnabled task = false

private theorem Reached.clean (reached : session.Reached) : session.Clean := by
  induction reached with
  | new clock =>
    exact ⟨⟨⟨_, rfl, .empty clock⟩, rfl⟩, fun _ among => absurd among List.not_mem_nil⟩
  | setClock _ backend clock ih =>
    obtain ⟨⟨⟨store, same, accounts⟩, direct⟩, returned⟩ := ih
    obtain rfl := Backend.memory.inj (backend.symm.trans same)
    exact ⟨⟨⟨_, rfl, accounts.setClock clock⟩, direct⟩, returned⟩
  | execute _ command subscribing ih => exact ih.execute command subscribing
  | runTask _ _ ih => exact ih.runTask _
  | note _ ready heard reported ih => exact ih.of_same rfl rfl rfl

theorem Reached.work (reached : session.Reached) (fuel : Nat) : (session.work fuel).Reached := by
  induction fuel generalizing session with
  | zero => exact reached
  | succ fuel ih =>
    unfold Session.work
    split
    · exact reached.note [] session.heard session.reported
    · rename_i task rest waiting
      have enabled : session.isEnabled task = true := by
        have head := List.head?_dropWhile_not (fun task => !session.isEnabled task) session.ready
        rw [waiting] at head
        simpa using head
      have queued := reached.note (task :: rest) session.heard session.reported
      exact ih ((queued.runTask enabled).note _ _ _)

private theorem Reached.obey (reached : session.Reached) {command : Command}
    (subscribing : ∀ name target mailbox, command ≠ .listenDirectly name target mailbox)
    (wait : Bool) : (session.obey command wait).2.Reached := by
  have executed := reached.execute command subscribing
  unfold Session.obey
  dsimp only
  split
  · exact executed.note _ _ _
  · exact ((executed.note _ _ _).work _).note _ _ _

/-- The session after some commands, each with whether background work is to wait. -/
def follow (commands : List (Command × Bool)) (session : Session) : Session :=
  commands.foldl (fun session (command, wait) => (session.obey command wait).2) session

private theorem Reached.follow (reached : session.Reached) {commands : List (Command × Bool)}
    (subscribing : ∀ given ∈ commands, ∀ name target mailbox,
      given.1 ≠ .listenDirectly name target mailbox) : (session.follow commands).Reached := by
  induction commands generalizing session with
  | nil => exact reached
  | cons given commands ih =>
    rw [List.forall_mem_cons] at subscribing
    exact ih (reached.obey subscribing.1 given.2) subscribing.2

theorem mem_tasks {task : Task} (enabled : session.isEnabled task = true) : task ∈ session.tasks := by
  have within {place : Nat} {test : Member → Bool}
      (found : session.members[place]?.any test = true) :
      place ∈ List.range session.members.length := by
    obtain ⟨member, present, -⟩ := Option.any_eq_true _ _ |>.mp found
    exact List.mem_range.mpr (List.getElem?_eq_some_iff.mp present).1
  unfold tasks
  cases task with
  | subscription place =>
    exact List.mem_append_left _ (List.mem_append_left _ (List.mem_map_of_mem (within enabled)))
  | disposal place => exact List.mem_append_right _ (List.mem_map_of_mem (within enabled))
  | forwarding token =>
    apply List.mem_append_left
    apply List.mem_append_right
    apply List.mem_map_of_mem
    unfold isEnabled at enabled
    dsimp only at enabled
    cases remote : session.backend.remote? with
    | none =>
      rw [remote] at enabled
      cases enabled
    | some store =>
      rw [remote] at enabled
      obtain ⟨listener, found, -⟩ := Option.any_eq_true _ _ |>.mp enabled
      have same : listener.token = token := by simpa using List.find?_some found
      dsimp only
      rw [← same]
      exact List.mem_map_of_mem (List.mem_of_find?_eq_some found)

theorem atRest_iff : session.AtRest ↔ ∀ task ∈ session.tasks, session.isEnabled task = false := by
  constructor
  · intro atRest task _
    exact atRest task
  · intro quiet task
    by_contra enabled
    rw [Bool.not_eq_false] at enabled
    rw [quiet task (mem_tasks enabled)] at enabled
    cases enabled

theorem Clean.feeds_atRest (clean : session.Clean) (backend : session.backend = .memory store)
    (atRest : session.AtRest) : ∀ party ∈ session.parties, (party.feed store.mailboxes).AtRest := by
  intro party listed
  obtain ⟨member, among, rfl⟩ := List.mem_map.mp listed
  have returned := clean.returned member among
  obtain ⟨place, within, present⟩ := List.getElem_of_mem among
  have stuck : session.canAdvance member = false := by
    have disabled := atRest (.subscription place)
    rw [isEnabled, List.getElem?_eq_getElem within, present] at disabled
    exact disabled
  apply Feed.atRest_of_idle returned
  unfold canAdvance at stuck
  split at stuck
  · rename_i idle
    exact .inl idle
  · rename_i finished
    exact .inr (.inl finished)
  · rw [backend] at stuck
    cases stuck
  · cases stuck
  · cases stuck
  · rename_i delivering
    rw [mailbox_memory backend] at stuck
    have items : (box member.mailbox store.mailboxes).items = [] := by simpa using stuck
    exact .inr (.inr ⟨delivering, items⟩)

/-- Whenever no background work can go on, the registry of the store has one entry for each subscription
that is active, under its token, and no other entry. The tokens differ, in up to `2 ^ 64` registrations. -/
theorem no_listener_leaks (reached : session.Reached) (atRest : session.AtRest) :
    ∃ store, session.backend = .memory store ∧ (store.listeners.map Listener.token).Nodup ∧
      (store.listeners.map Listener.entry).Perm
        ((session.parties.filter Party.isActive).map Party.entry) := by
  have clean := reached.clean
  obtain ⟨store, backend, accounts⟩ := clean.holds
  have feeds := clean.feeds_atRest backend atRest
  exact ⟨store, backend, accounts.distinct, accounts.listeners_perm feeds⟩

def yard : DocumentKey := ⟨⟨["yards", "north"]⟩, by decide, by decide⟩

/-- Two subscriptions are started, and one of them is let go of before it was registered. Then the other
one is told of a write. -/
def visit : List (Command × Bool) :=
  [(.subscribe "near" (.document "yards/north"), true), (.subscribe "far" (.document "yards/south"), true),
    (.drop "far", true), (.write (.set "yards/north" [("open", .boolean true)] false), false)]

def afterVisit : Session := follow visit (.new (.memory (Store.empty ⟨.new 0 0, 1⟩)))

private theorem reached_afterVisit : afterVisit.Reached := by
  apply (Reached.new _).follow
  simp [visit]

private theorem atRest_afterVisit : afterVisit.AtRest := by
  have quiet : afterVisit.tasks.all (fun task => !afterVisit.isEnabled task) = true := by cbv
  rw [atRest_iff]
  simpa using quiet

theorem no_listener_leaks_afterVisit :
    afterVisit.Reached ∧ afterVisit.AtRest ∧
      ∃ store, afterVisit.backend = .memory store ∧ (store.listeners.map Listener.token).Nodup ∧
        (store.listeners.map Listener.entry).Perm [(some 1, .document yard, 0)] := by
  have active : (afterVisit.parties.filter Party.isActive).map Party.entry
      = [(some 1, .document yard, 0)] := by cbv
  have leaks := no_listener_leaks reached_afterVisit atRest_afterVisit
  rw [active] at leaks
  exact ⟨reached_afterVisit, atRest_afterVisit, leaks⟩

end Session

end DocumentStore
