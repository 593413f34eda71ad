import DocumentStore.Proofs.Store.Calls

/-! # What a call amounts to

Whatever a store is called for, one of five things happens: its documents are replaced and its
listeners told, a registration is added or removed, a mailbox is changed by its owner, or nothing
happens but that the clock goes on. -/

namespace DocumentStore

namespace Mailboxes

variable {boxes : Mailboxes} {id other : Nat}

theorem box_add (box' : Mailbox) (boxes : Mailboxes) :
    box id (add box' boxes) = if id = boxes.length then box' else box id boxes := by
  unfold box add
  rw [List.getD_eq_getElem?_getD, List.getD_eq_getElem?_getD, List.getElem?_append]
  split
  · rename_i inside
    rw [if_neg (by omega)]
  · rename_i outside
    rw [List.getElem?_eq_none (Nat.le_of_not_lt outside)]
    split
    · rename_i same
      simp [same]
    · rename_i ne
      rw [List.getElem?_eq_none (by simp; omega)]

theorem box_of_length_le (outside : boxes.length ≤ id) : box id boxes = ⟨none, false, []⟩ := by
  rw [box, List.getD_eq_getElem?_getD, List.getElem?_eq_none outside]
  rfl

private theorem Unlimited.lt_length (h : Unlimited id boxes) : id < boxes.length := by
  refine Nat.lt_of_not_le fun outside => ?_
  rw [Unlimited, box_of_length_le outside] at h
  cases h.1

private theorem Unlimited.add (h : Unlimited id boxes) (box' : Mailbox) :
    Unlimited id (add box' boxes) := by
  rw [Unlimited, box_add, if_neg (Nat.ne_of_lt h.lt_length)]
  exact h

theorem Unlimited.change (h : Unlimited id boxes) {f : Mailbox → Mailbox}
    (kept : other = id → (f (box other boxes)).isOpen = true ∧ (f (box other boxes)).capacity = none) :
    Unlimited id (change other f boxes) := by
  rw [Unlimited, Mailboxes.change, box_set]
  split
  · rename_i same
    exact kept same.1.symm
  · exact h

end Mailboxes

namespace StoreCall

open Mailboxes

variable {store : Store} {id : Nat}

/-- Taking from a mailbox takes its first event out, if there is one. -/
theorem takeFrom_cases (id : Nat) (boxes : Mailboxes) :
    takeFrom id boxes = (none, boxes) ∨ ∃ event rest, (box id boxes).items = event :: rest ∧
      takeFrom id boxes = (some event, change id (fun box => { box with items := rest }) boxes) := by
  unfold takeFrom Channel.take?
  cases items : (box id boxes).items with
  | nil => exact .inl rfl
  | cons event rest => exact .inr ⟨event, rest, rfl, rfl⟩

private theorem unlimited_takeFrom {other : Nat} (h : Unlimited id store.mailboxes) :
    Unlimited id (takeFrom other store.mailboxes).2 := by
  obtain empty | ⟨event, rest, -, taken⟩ := takeFrom_cases other store.mailboxes
  · rw [empty]
    exact h
  · rw [taken]
    dsimp only
    refine h.change fun same => ?_
    subst same
    exact h

private theorem items_takeFrom (other : Nat) :
    (StoreCall.receive other).received store id ++ (box id (takeFrom other store.mailboxes).2).items
      = (box id store.mailboxes).items := by
  simp only [received]
  obtain empty | ⟨event, rest, items, taken⟩ := takeFrom_cases other store.mailboxes
  · rw [empty]
    split <;> rfl
  · rw [taken]
    dsimp only
    rw [change, box_set]
    by_cases same : other = id
    · subst same
      have inside : other < store.mailboxes.length := by
        refine Nat.lt_of_not_le fun outside => ?_
        rw [box_of_length_le outside] at items
        cases items
      rw [if_pos rfl, if_pos ⟨rfl, inside⟩, items]
      rfl
    · rw [if_neg same, if_neg fun h => same h.1.symm]
      rfl

/-- What a call does to a store and which events it sends. -/
inductive Turn (store : Store) : StoreCall → Prop where
  | committed {call : StoreCall} {documents : Documents}
      (applied : store.documents.applyAll store.clock.now (call.writes store) = .ok documents)
      (succeeds : call.succeeds store = true)
      (step : call.step store = store.ticked.replace documents (call.writes store))
      (sendings : call.sendings store = Store.notifications documents (call.writes store)
        store.listeners store.mailboxes)
      (received : ∀ id, call.received store id = []) : Turn store call
  | idle {call : StoreCall} (clock : Clock) (fails : call.succeeds store = false)
      (step : call.step store = { store with clock }) (sendings : call.sendings store = [])
      (received : ∀ id, call.received store id = []) : Turn store call
  | registered (target : ListenTarget) (mailbox : Nat)
      (answer : (Datastore.listen target mailbox store).1 = .ok store.nextToken) :
      Turn store (.listen target mailbox)
  | unlisten (token : Token) : Turn store (.unlisten token)
  | mailboxes {call : StoreCall} (boxes : Mailboxes) (fails : call.succeeds store = false)
      (step : call.step store = { store with mailboxes := boxes })
      (sendings : call.sendings store = [])
      (received : ∀ id,
        call.received store id ++ (box id boxes).items = (box id store.mailboxes).items)
      (kept : ∀ id, .closeMailbox id ≠ call → Unlimited id store.mailboxes → Unlimited id boxes) :
      Turn store call

theorem turn_of_commit {call : StoreCall}
    (succeeds : call.succeeds store = (store.commit (call.writes store)).1.isOk)
    (step : call.step store = (store.commit (call.writes store)).2)
    (sendings : call.sendings store = if call.succeeds store then
      Store.notifications (call.step store).documents (call.writes store) store.listeners
        store.mailboxes else [])
    (received : ∀ id, call.received store id = []) : Turn store call := by
  cases applied : store.documents.applyAll store.clock.now (call.writes store) with
  | ok documents =>
    rw [Store.commit_of_ok applied] at succeeds step
    refine .committed applied succeeds step ?_ received
    rw [sendings, succeeds, step]
    rfl
  | error e =>
    rw [Store.commit_of_error applied] at succeeds step
    refine .idle store.clock.tick succeeds step ?_ received
    rw [sendings, succeeds]
    rfl

theorem listen_answer (target : ListenTarget) (mailbox : Nat) (store : Store) :
    (Datastore.listen target mailbox store).1 = .ok store.nextToken ∨
      (∃ e, (Datastore.listen target mailbox store).1 = .error e) ∧
        (Datastore.listen target mailbox store).2 = store := by
  simp only [Datastore.listen, Store.listen]
  split
  · exact .inr ⟨⟨_, rfl⟩, rfl⟩
  · exact .inl rfl

/-- Every call is one of the five. -/
theorem turn (store : Store) (call : StoreCall) : Turn store call := by
  cases call with
  | write w => exact turn_of_commit rfl rfl rfl fun _ => rfl
  | commit writes => exact turn_of_commit rfl rfl rfl fun _ => rfl
  | transact keys body =>
    cases ended : body (store.read keys) with
    | ok writes =>
      refine turn_of_commit ?_ ?_ rfl fun _ => rfl
      · simp only [succeeds, transaction, Datastore.transact, Store.transact, ended,
          StoreCall.writes]
      · simp only [step, transaction, Datastore.transact, Store.transact, ended, StoreCall.writes]
    | error e =>
      have fails : (transact keys body).succeeds store = false := by
        simp only [succeeds, transaction, Datastore.transact, Store.transact, ended]
        rfl
      refine .idle store.clock fails ?_ ?_ fun _ => rfl
      · simp only [step, transaction, Datastore.transact, Store.transact, ended]
      · simp only [sendings, fails]
        rfl
  | listen target mailbox =>
    obtain answer | ⟨⟨e, answer⟩, same⟩ := listen_answer target mailbox store
    · exact .registered target mailbox answer
    · refine .idle store.clock rfl same ?_ fun _ => rfl
      simp only [sendings, answer]
  | unlisten token => exact .unlisten token
  | addMailbox capacity =>
    refine .mailboxes _ rfl rfl rfl (fun id => ?_) fun _ _ unlimited => unlimited.add _
    rw [box_add]
    split
    · rename_i same
      rw [box_of_length_le (Nat.le_of_eq same.symm)]
      rfl
    · rfl
  | closeMailbox other =>
    refine .mailboxes _ rfl rfl rfl (fun id => ?_) fun id ne unlimited =>
      unlimited.change fun same => absurd (congrArg closeMailbox same.symm) ne
    rw [change, box_set]
    split
    · rename_i same
      rw [same.1]
      rfl
    · rfl
  | receive other =>
    exact .mailboxes _ rfl rfl rfl (fun _ => items_takeFrom other) fun _ _ unlimited =>
      unlimited_takeFrom unlimited
  | setClock clock => exact .idle clock rfl rfl rfl fun _ => rfl

/-- A registration in terms of its token and its first event. -/
theorem sendings_listen {target : ListenTarget} {mailbox : Nat}
    (answer : (Datastore.listen target mailbox store).1 = .ok store.nextToken) :
    (StoreCall.listen target mailbox).sendings store
      = Listener.sending ⟨store.nextToken, target, mailbox⟩ (store.documents.eventFor target)
        store.mailboxes := by
  simp only [sendings, answer]

theorem step_listen {target : ListenTarget} {mailbox : Nat}
    (answer : (Datastore.listen target mailbox store).1 = .ok store.nextToken) :
    (StoreCall.listen target mailbox).step store =
      let posted := post mailbox (store.documents.eventFor target) store.mailboxes
      { store with
        mailboxes := posted.2
        listeners :=
          if Store.continues (store.documents.eventFor target) posted.1 then
            store.listeners ++ [⟨store.nextToken, target, mailbox⟩]
          else store.listeners
        nextToken := store.nextToken + 1 } := by
  simp only [step, Datastore.listen, Store.listen] at answer ⊢
  split at answer
  · cases answer
  · rfl

/-- A mailbox changes by the events that are sent to it and by those that its owner takes out. -/
theorem items_step (call : StoreCall) (store : Store) (id : Nat) :
    call.received store id ++ (box id (call.step store).mailboxes).items
      = (box id store.mailboxes).items ++ Sending.eventsInto id (call.sendings store) := by
  cases turn store call with
  | committed applied succeeds step sendings received =>
    rw [received, step, sendings]
    exact Store.items_notify id
  | idle clock fails step sendings received =>
    rw [received, step, sendings, Sending.eventsInto_nil, List.append_nil]
    rfl
  | registered target mailbox answer =>
    rw [step_listen answer, sendings_listen answer]
    exact Listener.items_post ⟨store.nextToken, target, mailbox⟩ _ _ _
  | unlisten token => exact (List.append_nil _).symm
  | mailboxes boxes fails step sendings received kept =>
    rw [step, sendings, Sending.eventsInto_nil, List.append_nil]
    exact received id

/-- An unlimited mailbox stays so until its owner closes it. -/
theorem unlimited_step {call : StoreCall} (unlimited : Unlimited id store.mailboxes)
    (notClosed : .closeMailbox id ≠ call) : Unlimited id (call.step store).mailboxes := by
  cases turn store call with
  | committed applied succeeds step sendings received =>
    rw [step]
    exact Store.unlimited_notify unlimited
  | idle clock fails step sendings received =>
    rw [step]
    exact unlimited
  | registered target mailbox answer =>
    rw [step_listen answer]
    exact unlimited.post mailbox _
  | unlisten token => exact unlimited
  | mailboxes boxes fails step sendings received kept =>
    rw [step]
    exact kept id notClosed unlimited

end StoreCall

end DocumentStore
