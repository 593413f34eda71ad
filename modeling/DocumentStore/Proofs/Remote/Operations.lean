import DocumentStore.Proofs.Client.Keeping
import DocumentStore.Proofs.Remote.Moves
import DocumentStore.Session.Backend

/-! # What operations of a remote store come to

Every operation of a remote store is some of the steps that can happen there: reads, writes and
transactions call the bridge one time after another, listeners are registered and tokens given back, and
the owners of the other mailboxes change these. None of this is done by the owner of the first mailbox. -/

namespace DocumentStore

open Mailboxes

namespace RemoteStore

variable {store between after : RemoteStore}

/-- The store after some steps. -/
def run (store : RemoteStore) (steps : List RemoteStep) : RemoteStore := steps.foldl step store

/-- One store comes to another by steps that are not those of the owner of the first mailbox. -/
def Reaches (store after : RemoteStore) : Prop := ∃ steps, store.run steps = after

namespace Reaches

theorem refl (store : RemoteStore) : store.Reaches store := ⟨[], rfl⟩

theorem one (step : RemoteStep) (store : RemoteStore) : store.Reaches (store.step step) :=
  ⟨[step], rfl⟩

theorem trans (first : store.Reaches between) (second : between.Reaches after) :
    store.Reaches after := by
  obtain ⟨steps, rfl⟩ := first
  obtain ⟨later, rfl⟩ := second
  exact ⟨steps ++ later, List.foldl_append⟩

/-- The first mailbox does not go away. -/
theorem inside (reaches : store.Reaches after) (inside : 0 < store.mailboxes.length) :
    0 < after.mailboxes.length := by
  obtain ⟨steps, rfl⟩ := reaches
  induction steps generalizing store with
  | nil => exact inside
  | cons step steps ih => exact ih ((store.move_step step).mailboxes.2 inside)

theorem called (call : Call) (other : call.method ≠ "unlisten") (store : RemoteStore) :
    store.Reaches (store.called call) := by
  have reaches := one (.invoke call.method call.request) store
  rw [step, if_neg other] at reaches
  exact reaches

theorem exchange {α : Type} (method : String) (other : method ≠ "unlisten")
    (request : Except Error Json) (decode : Json → Except Error α) (store : RemoteStore) :
    store.Reaches (store.exchange method request decode).2 := by
  unfold RemoteStore.exchange
  cases request with
  | error e => exact refl store
  | ok request => exact called ⟨method, request⟩ other store

private theorem write (w : WriteOperation) (store : RemoteStore) : store.Reaches (store.write w).2 := by
  cases w <;> exact exchange _ (by decide) _ _ store

private theorem askAll (transaction : Json) (keys : List DocumentKey) (store : RemoteStore) :
    store.Reaches (store.askAll transaction keys) := by
  induction keys generalizing store with
  | nil => exact refl store
  | cons key keys ih => exact (called (getCall transaction key) (show "get" ≠ _ by decide) store).trans (ih _)

private theorem transactWithin {ρ : Type} (transaction : Json) (keys : List DocumentKey)
    (body : Reads → ρ × Except Error (List WriteOperation)) (store : RemoteStore) :
    store.Reaches (store.transactWithin transaction keys body).2 := by
  have fetched : ∃ asked, (store.fetch transaction keys).2 = store.askAll transaction asked := by
    have gathered := gathered_gather transaction keys [] [] store.bridge.arrivals store
    unfold fetch
    generalize store.gather transaction keys [] [] store.bridge.arrivals = ended at gathered ⊢
    cases gathered with
    | all => exact ⟨_, rfl⟩
    | failed => exact ⟨_, rfl⟩
  obtain ⟨asked, fetched⟩ := fetched
  have asking : store.Reaches (store.fetch transaction keys).2 := fetched ▸ askAll transaction asked store
  unfold RemoteStore.transactWithin
  generalize store.fetch transaction keys = answer at asking ⊢
  obtain ⟨reads, between⟩ := answer
  have rolledBack : store.Reaches (between.rollBack transaction) :=
    asking.trans (called (rollbackCall transaction) (show "transaction.rollback" ≠ _ by decide) between)
  cases reads with
  | error e => exact rolledBack
  | ok reads =>
    dsimp only
    split
    · exact rolledBack
    · rename_i items _
      exact asking.trans
        (called (commitCall transaction items) (show "transaction.commit" ≠ _ by decide) between)

private theorem transact {ρ : Type} (keys : List DocumentKey)
    (body : Reads → ρ × Except Error (List WriteOperation)) (store : RemoteStore) :
    store.Reaches (store.transact keys body).2 := by
  have begun := called beginCall (by decide) store
  unfold RemoteStore.transact
  rw [show store.invoke "transaction.begin" (.object []) = _ from invoke_eq beginCall store]
  dsimp only
  split
  · exact begun
  · split
    · exact begun
    · exact begun.trans (transactWithin _ keys body _)

/-- The other mailboxes are changed. -/
theorem replace {boxes : Mailboxes} (inside : 0 < boxes.length)
    (first : box 0 boxes = box 0 store.mailboxes) :
    store.Reaches { store with mailboxes := boxes } := by
  have reaches := one (.replace boxes.tail) store
  obtain ⟨head, rest, rfl⟩ := List.exists_cons_of_length_pos inside
  rw [step, ← first] at reaches
  exact reaches

/-- The owner of another mailbox changes it and may give a token back. -/
theorem settle (inside : 0 < store.mailboxes.length) {number : Nat} (other : number ≠ 0)
    (mailbox : Mailbox) (released : Option Token) :
    store.Reaches (store.settle number mailbox released) := by
  have changed : store.Reaches { store with mailboxes := store.mailboxes.set number mailbox } := by
    refine replace (by rwa [List.length_set]) ?_
    rw [box_set, if_neg fun same => other same.1.symm]
  cases released with
  | none => exact changed
  | some token => exact changed.trans (one (.unlisten token) _)

/-- A mailbox is added. -/
theorem add (inside : 0 < store.mailboxes.length) (mailbox : Mailbox) :
    store.Reaches { store with mailboxes := store.mailboxes.add mailbox } := by
  obtain ⟨head, rest, cons⟩ := List.exists_cons_of_length_pos inside
  refine replace ?_ ?_
  · rw [Mailboxes.add, List.length_append]
    exact Nat.add_pos_left inside _
  · rw [Mailboxes.add, cons]
    rfl

theorem listen (target : ListenTarget) {number : Nat} (other : number ≠ 0) (store : RemoteStore) :
    store.Reaches (store.listen target number).2 := by
  obtain ⟨place, rfl⟩ := Nat.exists_eq_succ_of_ne_zero other
  exact one (.listen target place) store

theorem emit (handle : Option String) (events : List Json) (store : RemoteStore) :
    store.Reaches (store.emit handle events).2 := by
  induction events generalizing store with
  | nil => exact refl store
  | cons event events ih => exact (one (.emit event handle) store).trans (ih _)

theorem forward {token : Token} {listener : RemoteListener}
    (found : store.listener? token = some listener)
    (enabled : canForward store.mailboxes listener = true) :
    store.Reaches (store.forward token) := by
  have reaches := one (.forward token) store
  rw [step, movable?_eq_some.mpr ⟨found, enabled⟩] at reaches
  exact reaches

end Reaches

end RemoteStore

/-- The store is a remote one that a given one has come to. -/
def Serving (store : RemoteStore) (backend : Backend) : Prop :=
  ∃ after, backend = .remote after ∧ store.Reaches after

/-- Reads, writes and transactions call the bridge and do nothing else. -/
theorem keeps_serving (store : RemoteStore) : Datastore.Keeps (Serving store) where
  get := by
    rintro key _ ⟨between, rfl, reaches⟩
    have asked : between.Reaches (between.get key).2 := .exchange "get" (by decide) _ _ between
    exact ⟨_, rfl, reaches.trans asked⟩
  query := by
    rintro query _ ⟨between, rfl, reaches⟩
    exact ⟨_, rfl, reaches.trans (.exchange "query" (by decide) _ _ between)⟩
  write := by
    rintro write _ ⟨between, rfl, reaches⟩
    exact ⟨_, rfl, reaches.trans (.write write between)⟩
  commit := by
    rintro writes _ ⟨between, rfl, reaches⟩
    exact ⟨_, rfl, reaches.trans (.exchange "commit" (by decide) _ _ between)⟩
  transact := by
    rintro ρ keys body _ ⟨between, rfl, reaches⟩
    exact ⟨_, rfl, reaches.trans (.transact keys body between)⟩

end DocumentStore
