import DocumentStore.Proofs.Listen.Stages
import DocumentStore.Proofs.Store.Turn

/-! # What a store in memory keeps for its subscriptions

The listeners of a store are registered by subscriptions, and each is known by a token that its
subscription has to give back. The store forgets a listener by itself once it has told it of an error.
The accounts of the store say which listeners these are: every listener is owed by one subscription, and
every active subscription has its listener, or the error waits in its mailbox. -/

namespace DocumentStore

open Mailboxes

/-- A subscription with the number of its mailbox. -/
structure Party where
  subscription : Subscription
  mailbox : Nat

namespace Party

/-- The subscription with its mailbox. -/
def feed (boxes : Mailboxes) (party : Party) : Feed :=
  ⟨party.subscription, box party.mailbox boxes⟩

/-- The tokens that a party has to give back. -/
def owed (party : Party) : List Token := (Feed.mk party.subscription .unbounded).owed

private theorem mem_owed_of_token {token : Token} (party : Party)
    (registered : party.subscription.token = some token) : token ∈ party.owed := by
  simp [owed, Feed.owed, registered]

/-- The listener of a party under a token. -/
def listener (token : Token) (party : Party) : Listener :=
  ⟨token, party.subscription.target, party.mailbox⟩

/-- Two parties share neither a mailbox nor a token. -/
def Apart (one other : Party) : Prop :=
  one.mailbox ≠ other.mailbox ∧ ∀ token ∈ one.owed, token ∉ other.owed

private theorem Apart.symm {one other : Party} (apart : Apart one other) : Apart other one :=
  ⟨apart.1.symm, fun token mem mem' => apart.2 token mem' mem⟩

end Party

/-- What a store and one of its parties owe each other. -/
structure Standing (store : Store) (party : Party) : Prop where
  inStep : party.subscription.InStep
  known : party.mailbox < store.mailboxes.length
  opened : party.subscription.phase.isDisposed = false → Unlimited party.mailbox store.mailboxes
  fresh : ∀ token ∈ party.owed, token < store.nextToken
  /-- An active party has its listener, unless the error that ended it is yet to be delivered. -/
  served : party.subscription.phase = .active → ∀ token, party.subscription.token = some token →
    party.listener token ∈ store.listeners ∨
      ∃ event ∈ (box party.mailbox store.mailboxes).items, event.isTerminal = true

namespace Standing

variable {store later : Store} {party : Party}

/-- A party goes on with a store that has changed, if its mailbox takes what comes as before and has lost
nothing, and if its listener is still there or was told of an error. -/
theorem carry (standing : Standing store party)
    (length : store.mailboxes.length ≤ later.mailboxes.length)
    (nextToken : store.nextToken ≤ later.nextToken)
    (opened : Unlimited party.mailbox store.mailboxes → Unlimited party.mailbox later.mailboxes)
    (items : (box party.mailbox store.mailboxes).items ⊆ (box party.mailbox later.mailboxes).items)
    (served : Unlimited party.mailbox store.mailboxes → ∀ token ∈ party.owed,
      party.listener token ∈ store.listeners → party.listener token ∈ later.listeners ∨
        ∃ event ∈ (box party.mailbox later.mailboxes).items, event.isTerminal = true) :
    Standing later party where
  inStep := standing.inStep
  known := Nat.lt_of_lt_of_le standing.known length
  opened live := opened (standing.opened live)
  fresh token mem := Nat.lt_of_lt_of_le (standing.fresh token mem) nextToken
  served active token registered := by
    have unlimited : Unlimited party.mailbox store.mailboxes := by
      apply standing.opened
      rw [active]
      rfl
    rcases standing.served active token registered with mem | ⟨event, mem, terminal⟩
    · exact served unlimited token (party.mem_owed_of_token registered) mem
    · exact .inr ⟨event, items mem, terminal⟩

/-- A party is not concerned by what happens to other mailboxes and to other tokens. -/
theorem aside (standing : Standing store party)
    (same : box party.mailbox later.mailboxes = box party.mailbox store.mailboxes)
    (length : store.mailboxes.length ≤ later.mailboxes.length)
    (nextToken : store.nextToken ≤ later.nextToken)
    (kept : ∀ token ∈ party.owed, party.listener token ∈ store.listeners →
      party.listener token ∈ later.listeners) : Standing later party := by
  apply standing.carry length nextToken
  · rw [Unlimited, Unlimited, same]
    exact id
  · rw [same]
    exact List.Subset.refl _
  · intro _ token owed mem
    exact .inl (kept token owed mem)

end Standing

/-- The accounts of a store that some parties listen to. -/
structure Accounts (parties : List Party) (store : Store) : Prop where
  standing : ∀ party ∈ parties, Standing store party
  apart : parties.Pairwise Party.Apart
  distinct : (store.listeners.map Listener.token).Nodup
  /-- Every listener is one that a party has to give back. -/
  owned : ∀ listener ∈ store.listeners, ∃ party ∈ parties,
    listener = party.listener listener.token ∧ listener.token ∈ party.owed

namespace Accounts

variable {store : Store} {party : Party} {parties others : List Party}

theorem perm (accounts : Accounts parties store) (perm : parties.Perm others) :
    Accounts others store where
  standing party mem := accounts.standing party (perm.mem_iff.mpr mem)
  apart := (perm.pairwise_iff Party.Apart.symm).mp accounts.apart
  distinct := accounts.distinct
  owned listener mem := by
    obtain ⟨party, among, owned⟩ := accounts.owned listener mem
    exact ⟨party, perm.mem_iff.mp among, owned⟩

theorem empty (clock : Clock) : Accounts [] (Store.empty clock) where
  standing _ mem := absurd mem List.not_mem_nil
  apart := .nil
  distinct := List.nodup_nil
  owned _ mem := absurd mem List.not_mem_nil

theorem setClock (accounts : Accounts parties store) (clock : Clock) :
    Accounts parties { store with clock } where
  standing party mem :=
    (accounts.standing party mem).aside rfl (Nat.le_refl _) (Nat.le_refl _) fun _ _ there => there
  apart := accounts.apart
  distinct := accounts.distinct
  owned := accounts.owned

theorem token_lt (accounts : Accounts parties store) {listener : Listener}
    (mem : listener ∈ store.listeners) : listener.token < store.nextToken := by
  obtain ⟨party, among, -, owed⟩ := accounts.owned listener mem
  exact (accounts.standing party among).fresh _ owed

end Accounts

/-- The store after a step of a party: its mailbox has changed, and it may have given a token back. -/
def Store.after (number : Nat) (mailbox : Mailbox) (released : Option Token) (store : Store) : Store :=
  let changed := { store with mailboxes := store.mailboxes.set number mailbox }
  match released with
  | some token => changed.unlisten token
  | none => changed

namespace Store

variable {store : Store} {number : Nat} {mailbox : Mailbox} {released : Option Token}

@[simp] theorem after_mailboxes :
    (store.after number mailbox released).mailboxes = store.mailboxes.set number mailbox := by
  cases released <;> rfl

@[simp] theorem after_nextToken : (store.after number mailbox released).nextToken = store.nextToken := by
  cases released <;> rfl

private theorem after_sublist :
    (store.after number mailbox released).listeners.Sublist store.listeners := by
  cases released with
  | none => exact List.Sublist.refl _
  | some token => exact List.filter_sublist

/-- The listeners that stay are those whose token was not given back. -/
theorem mem_after {listener : Listener} :
    listener ∈ (store.after number mailbox released).listeners ↔
      listener ∈ store.listeners ∧ released ≠ some listener.token := by
  cases released with
  | none => simp [after]
  | some token =>
    simp only [after, unlisten, List.mem_filter, bne_iff_ne, ne_eq, Option.some.injEq]
    rw [eq_comm]

end Store

section Step

variable {store : Store} {party : Party} {others : List Party} {after : Feed}
  {feedStep : FeedStep} {effect : Effect}

/-- What a party gives back and what it owes afterwards is what it owed before and what it was granted. -/
theorem Party.owed_step {boxes : Mailboxes} (inStep : party.subscription.InStep)
    (move : (party.feed boxes).Move feedStep after effect) :
    (effect.released.toList ++ owed ⟨after.subscription, party.mailbox⟩).Perm
      (party.owed ++ ((party.feed boxes).grant? feedStep).toList) := by
  have balance := move.released_owed inStep.toSound
  exact balance

private theorem Standing.step (standing : Standing store party)
    (move : (party.feed store.mailboxes).Move feedStep after effect)
    (ungranted : (party.feed store.mailboxes).grant? feedStep = none) :
    Standing (store.after party.mailbox after.mailbox effect.released)
      ⟨after.subscription, party.mailbox⟩ := by
  have own : box party.mailbox (store.mailboxes.set party.mailbox after.mailbox) = after.mailbox := by
    rw [box_set, if_pos ⟨rfl, standing.known⟩]
  have balance := Party.owed_step standing.inStep move
  rw [ungranted, Option.toList_none, List.append_nil] at balance
  constructor
  · exact standing.inStep.move move
  · rw [Store.after_mailboxes, List.length_set]
    exact standing.known
  · intro live
    obtain ⟨before, accepts⟩ := move.live standing.inStep live
    rw [Store.after_mailboxes, Unlimited, own]
    exact accepts (standing.opened before)
  · intro token mem
    rw [Store.after_nextToken]
    exact standing.fresh token (balance.mem_iff.mp (List.mem_append_right _ mem))
  · intro active token registered
    obtain ⟨before, same, pending⟩ := move.active ungranted active
    have unreleased : effect.released = none := by
      apply Option.eq_none_iff_forall_ne_some.mpr
      intro token released
      have ended := move.ended_of_released standing.inStep.toSound released
      rw [active] at ended
      cases ended
    rw [Store.after_mailboxes, own]
    rcases standing.served before token (same ▸ registered) with mem | ⟨event, mem, terminal⟩
    · left
      rw [Store.mem_after, Party.listener, move.target, unreleased]
      exact ⟨mem, (Option.some_ne_none _).symm⟩
    · right
      exact ⟨event, pending event mem terminal, terminal⟩

/-- A step of a party that is not granted anything. -/
theorem Accounts.step (accounts : Accounts (party :: others) store)
    (move : (party.feed store.mailboxes).Move feedStep after effect)
    (ungranted : (party.feed store.mailboxes).grant? feedStep = none) :
    Accounts (⟨after.subscription, party.mailbox⟩ :: others)
      (store.after party.mailbox after.mailbox effect.released) := by
  obtain ⟨standing, elsewhere⟩ := List.forall_mem_cons.mp accounts.standing
  obtain ⟨apart, apartElsewhere⟩ := List.pairwise_cons.mp accounts.apart
  have balance := Party.owed_step standing.inStep move
  rw [ungranted, Option.toList_none, List.append_nil] at balance
  have released {token : Token} (given : effect.released = some token) : token ∈ party.owed := by
    apply balance.mem_iff.mp
    rw [given]
    exact List.mem_cons_self
  have stillOwed {token : Token}
      (mem : token ∈ Party.owed ⟨after.subscription, party.mailbox⟩) : token ∈ party.owed :=
    balance.mem_iff.mp (List.mem_append_right _ mem)
  constructor
  · refine List.forall_mem_cons.mpr ⟨standing.step move ungranted, ?_⟩
    intro other among
    have apart := apart other among
    apply (elsewhere other among).aside
    · rw [Store.after_mailboxes, box_set, if_neg fun same => apart.1 same.1.symm]
    · exact Nat.le_of_eq (by rw [Store.after_mailboxes, List.length_set])
    · exact Nat.le_of_eq Store.after_nextToken.symm
    · intro token owed mem
      refine Store.mem_after.mpr ⟨mem, fun given => ?_⟩
      exact apart.2 token (released given) owed
  · refine List.pairwise_cons.mpr ⟨?_, apartElsewhere⟩
    intro other among
    have apart := apart other among
    exact ⟨apart.1, fun token mem => apart.2 token (stillOwed mem)⟩
  · exact accounts.distinct.sublist (Store.after_sublist.map _)
  · intro listener mem
    obtain ⟨mem, unreleased⟩ := Store.mem_after.mp mem
    obtain ⟨owner, among, same, owed⟩ := accounts.owned listener mem
    rcases List.mem_cons.mp among with rfl | among
    · refine ⟨_, List.mem_cons_self, ?_, ?_⟩
      · rw [Party.listener, move.target]
        exact same
      · rcases List.mem_append.mp (balance.mem_iff.mpr owed) with given | owed
        · exact absurd (Option.mem_toList.mp given) unreleased
        · exact owed
    · exact ⟨owner, List.mem_cons_of_mem _ among, same, owed⟩

end Step

private theorem Subscription.target_settle (answer : Except Error Token) (s : Subscription) :
    (s.settle answer).target = s.target := by
  cases answer with
  | ok token =>
    rw [settle]
    split <;> rfl
  | error e => rfl

theorem Party.listener_settle (token : Token) (answer : Except Error Token) (party : Party) :
    listener token ⟨party.subscription.settle answer, party.mailbox⟩ = party.listener token := by
  rw [listener, Subscription.target_settle, listener]

section Registration

variable {store : Store} {party : Party} {others : List Party}

/-- What a registration that is granted makes of a store. -/
structure Store.Registers (store : Store) (listener : Listener) (later : Store) : Prop where
  mailboxes : later.mailboxes =
    (post listener.mailbox (store.documents.eventFor listener.target) store.mailboxes).2
  nextToken : later.nextToken = store.nextToken + 1
  listeners : later.listeners = store.listeners ∨ later.listeners = store.listeners ++ [listener]
  /-- A mailbox that takes everything is sent the first snapshot, and only an error ends it at once. -/
  served : Unlimited listener.mailbox store.mailboxes →
    listener ∈ later.listeners ∨
      ∃ event ∈ (box listener.mailbox later.mailboxes).items, event.isTerminal = true

theorem Store.registers_of_answer {target : ListenTarget} {mailbox : Nat}
    (answer : (Datastore.listen target mailbox store).1 = .ok store.nextToken) :
    store.Registers ⟨store.nextToken, target, mailbox⟩ (Datastore.listen target mailbox store).2 := by
  have step := StoreCall.step_listen answer
  rw [StoreCall.step] at step
  rw [step]
  constructor
  · rfl
  · rfl
  · dsimp only
    split
    · exact .inr rfl
    · exact .inl rfl
  · intro unlimited
    dsimp only
    rw [unlimited.sent, continues]
    cases terminal : (store.documents.eventFor target).isTerminal with
    | false =>
      left
      exact List.mem_append_right _ List.mem_cons_self
    | true =>
      right
      refine ⟨_, ?_, terminal⟩
      rw [box_post, if_pos rfl, Channel.offer_unbounded_open unlimited.1 unlimited.2]
      exact List.mem_append_right _ List.mem_cons_self

private theorem Store.Registers.mem_old {later : Store} {listener new : Listener}
    (registers : store.Registers new later) (mem : listener ∈ store.listeners) :
    listener ∈ later.listeners := by
  rcases registers.listeners with same | more
  · rwa [same]
  · rw [more]
    exact List.mem_append_left _ mem

private theorem Store.Registers.mem_cases {later : Store} {listener new : Listener}
    (registers : store.Registers new later) (mem : listener ∈ later.listeners) :
    listener ∈ store.listeners ∨ listener = new := by
  rcases registers.listeners with same | more
  · rw [same] at mem
    exact .inl mem
  · rw [more] at mem
    exact (List.mem_append.mp mem).imp id List.mem_singleton.mp

/-- A party whose registration is granted owes one token more. -/
theorem Party.owed_settle (inStep : party.subscription.InStep)
    (requesting : party.subscription.stage = .requesting) (token : Token) :
    (owed ⟨party.subscription.settle (.ok token), party.mailbox⟩).Perm (party.owed ++ [token]) := by
  have move : (party.feed []).Move (.settle (.ok token)) _ _ := Feed.move_settle requesting _
  have balance := Party.owed_step inStep move
  have grant : (party.feed []).grant? (.settle (.ok token)) = some token := by
    simp [Feed.grant?, feed, requesting]
  rw [grant] at balance
  exact balance

private theorem Standing.settle {later : Store} (standing : Standing store party)
    (requesting : party.subscription.stage = .requesting)
    (registers : store.Registers (party.listener store.nextToken) later) :
    Standing later ⟨party.subscription.settle (.ok store.nextToken), party.mailbox⟩ := by
  have move : (party.feed store.mailboxes).Move (.settle (.ok store.nextToken)) _ _ :=
    Feed.move_settle requesting _
  have balance := Party.owed_settle standing.inStep requesting store.nextToken
  constructor
  · exact standing.inStep.move move
  · rw [registers.mailboxes, length_post]
    exact standing.known
  · intro live
    obtain ⟨before, -⟩ := move.live standing.inStep live
    rw [registers.mailboxes]
    exact (standing.opened before).post _ _
  · intro token mem
    rw [registers.nextToken]
    rcases List.mem_append.mp (balance.mem_iff.mp mem) with mem | mem
    · exact Nat.lt_succ_of_lt (standing.fresh token mem)
    · rw [List.mem_singleton.mp mem]
      exact Nat.lt_succ_self _
  · intro active token registered
    have registering : party.subscription.phase = .registering :=
      move.phase_of_active (standing.inStep.requesting requesting) active
    have unlimited : Unlimited party.mailbox store.mailboxes := by
      apply standing.opened
      rw [registering]
      rfl
    have granted : token = store.nextToken := by
      simpa [Subscription.settle, registering, eq_comm] using registered
    subst granted
    rw [Party.listener_settle]
    exact registers.served unlimited

theorem Accounts.register {later : Store} (accounts : Accounts (party :: others) store)
    (requesting : party.subscription.stage = .requesting)
    (registers : store.Registers (party.listener store.nextToken) later) :
    Accounts (⟨party.subscription.settle (.ok store.nextToken), party.mailbox⟩ :: others) later := by
  obtain ⟨standing, elsewhere⟩ := List.forall_mem_cons.mp accounts.standing
  obtain ⟨apart, apartElsewhere⟩ := List.pairwise_cons.mp accounts.apart
  have balance := Party.owed_settle standing.inStep requesting store.nextToken
  constructor
  · refine List.forall_mem_cons.mpr ⟨standing.settle requesting registers, ?_⟩
    intro other among
    apply (elsewhere other among).aside
    · have elsewhere : other.mailbox ≠ (party.listener store.nextToken).mailbox :=
        (apart other among).1.symm
      rw [registers.mailboxes, box_post, if_neg elsewhere]
    · exact Nat.le_of_eq (by rw [registers.mailboxes, length_post])
    · rw [registers.nextToken]
      exact Nat.le_succ _
    · intro token _ mem
      exact registers.mem_old mem
  · refine List.pairwise_cons.mpr ⟨?_, apartElsewhere⟩
    intro other among
    refine ⟨(apart other among).1, fun token mem mem' => ?_⟩
    rcases List.mem_append.mp (balance.mem_iff.mp mem) with mem | mem
    · exact (apart other among).2 token mem mem'
    · have old := (elsewhere other among).fresh token mem'
      rw [List.mem_singleton.mp mem] at old
      exact Nat.lt_irrefl _ old
  · rcases registers.listeners with same | more
    · rw [same]
      exact accounts.distinct
    · rw [more, List.map_append, List.nodup_append]
      refine ⟨accounts.distinct, List.pairwise_singleton _ _, ?_⟩
      intro token mem other mem' same
      obtain ⟨listener, listening, rfl⟩ := List.mem_map.mp mem
      have old := accounts.token_lt listening
      rw [same, List.mem_singleton.mp mem'] at old
      exact Nat.lt_irrefl _ old
  · intro listener mem
    rcases registers.mem_cases mem with mem | rfl
    · obtain ⟨owner, among, same, owed⟩ := accounts.owned listener mem
      rcases List.mem_cons.mp among with rfl | among
      · refine ⟨_, List.mem_cons_self, ?_, ?_⟩
        · rw [Party.listener_settle]
          exact same
        · exact balance.mem_iff.mpr (List.mem_append_left _ owed)
      · exact ⟨owner, List.mem_cons_of_mem _ among, same, owed⟩
    · refine ⟨_, List.mem_cons_self, ?_, ?_⟩
      · rw [Party.listener_settle]
        rfl
      · exact balance.mem_iff.mpr (List.mem_append_right _ List.mem_cons_self)

end Registration

namespace Accounts

variable {store : Store} {parties : List Party}

private theorem replace (accounts : Accounts parties store) (documents : Documents)
    (writes : List WriteOperation) : Accounts parties (store.replace documents writes) := by
  constructor
  · intro party among
    apply (accounts.standing party among).carry
    · exact Nat.le_of_eq Store.length_notify.symm
    · exact Nat.le_refl _
    · exact Store.unlimited_notify
    · exact Store.items_subset_notify party.mailbox
    · intro unlimited token _ mem
      exact Store.mem_notify_or_terminal mem unlimited
  · exact accounts.apart
  · exact accounts.distinct.sublist (Store.notify_sublist.map _)
  · intro listener mem
    exact accounts.owned listener (Store.notify_sublist.subset mem)

theorem commit (accounts : Accounts parties store) (writes : List WriteOperation) :
    Accounts parties (store.commit writes).2 := by
  -- The clock has no part in the accounts.
  have ticked : Accounts parties store.ticked :=
    ⟨fun party among =>
      let standing := accounts.standing party among
      ⟨standing.inStep, standing.known, standing.opened, standing.fresh, standing.served⟩,
      accounts.apart, accounts.distinct, accounts.owned⟩
  cases applied : store.documents.applyAll store.clock.now writes with
  | ok documents =>
    rw [Store.commit_of_ok applied]
    exact ticked.replace documents writes
  | error e =>
    rw [Store.commit_of_error applied]
    exact ticked

/-- A new party comes with a mailbox of its own. -/
theorem arrive (accounts : Accounts parties store) (target : ListenTarget) :
    Accounts (⟨.new target, store.mailboxes.length⟩ :: parties)
      { store with mailboxes := store.mailboxes.add .unbounded } := by
  have length : (store.mailboxes.add .unbounded).length = store.mailboxes.length + 1 :=
    List.length_append
  have owes : Party.owed ⟨.new target, store.mailboxes.length⟩ = [] := rfl
  constructor
  · refine List.forall_mem_cons.mpr ⟨?_, ?_⟩
    · constructor
      · exact .new target
      · exact length ▸ Nat.lt_succ_self _
      · intro _
        rw [Unlimited, box_add, if_pos rfl]
        exact ⟨rfl, rfl⟩
      · rw [owes]
        exact fun _ mem => absurd mem List.not_mem_nil
      · intro active
        cases active
    · intro other among
      have standing := accounts.standing other among
      apply standing.aside
      · rw [box_add, if_neg (Nat.ne_of_lt standing.known)]
      · exact length ▸ Nat.le_succ _
      · exact Nat.le_refl _
      · exact fun _ _ mem => mem
  · refine List.pairwise_cons.mpr ⟨?_, accounts.apart⟩
    intro other among
    refine ⟨Nat.ne_of_gt (accounts.standing other among).known, ?_⟩
    rw [owes]
    exact fun _ mem => absurd mem List.not_mem_nil
  · exact accounts.distinct
  · intro listener mem
    obtain ⟨owner, among, owned⟩ := accounts.owned listener mem
    exact ⟨owner, List.mem_cons_of_mem _ among, owned⟩

end Accounts

end DocumentStore
