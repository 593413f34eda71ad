import DocumentStore.Client.Batch
import DocumentStore.Client.Transaction
import DocumentStore.Proofs.Client.Reached

/-! # What clients cannot break

A client works on its store by the operations of the store. A property of the store that every one of
these operations keeps is therefore kept by everything that a client does. Registrations are left out:
they are not made by the client but on behalf of a subscription. -/

namespace DocumentStore

/-- The reads, writes and transactions of a store keep a property of its state. -/
structure Datastore.Keeps {σ : Type} [Datastore σ] (P : σ → Prop) : Prop where
  get : ∀ key store, P store → P (Datastore.get key store).2
  query : ∀ query store, P store → P (Datastore.query query store).2
  write : ∀ write store, P store → P (Datastore.write write store).2
  commit : ∀ writes store, P store → P (Datastore.commit writes store).2
  transact : ∀ {ρ : Type} (keys : List DocumentKey)
    (body : Reads → ρ × Except Error (List WriteOperation)) (store : σ), P store →
      P (Datastore.transact keys body store).2

namespace Client

variable {σ α β ρ : Type} {P : σ → Prop}

/-- An action keeps a property of the client's store. -/
def Keeping (P : σ → Prop) (action : Action σ α) : Prop :=
  ∀ client : Client σ, P client.store → P (action.run client).2.store

theorem Keeping.bind {first : Action σ α} {next : α → Action σ β} (hfirst : Keeping P first)
    (hnext : ∀ a, Keeping P (next a)) : Keeping P (first >>= next) := by
  intro client kept
  have before := hfirst client kept
  rw [run_bind]
  generalize first.run client = run at before ⊢
  obtain ⟨result, between⟩ := run
  cases result with
  | error e => exact before
  | ok a => exact hnext a between before

theorem keeping_pure (a : α) : Keeping P (pure a : Action σ α) := fun _ kept => kept

theorem keeping_except (checked : Except Error α) : Keeping P (liftM checked : Action σ α) := by
  intro client kept
  cases checked <;> exact kept

theorem keeping_active (operation : ClientOperation) : Keeping P (active operation : Action σ Unit) :=
  fun _ kept => kept

private theorem keeping_makeId : Keeping P (makeId : Action σ String) := fun _ kept => kept

theorem keeping_perform {operation : σ → Except Error α × σ}
    (keeps : ∀ store, P store → P (operation store).2) : Keeping P (perform operation) :=
  fun client kept => keeps client.store kept

private theorem keeping_mapM {action : α → Action σ β} (each : ∀ a, Keeping P (action a))
    (as : List α) :
    Keeping P (as.mapM action) := by
  induction as with
  | nil => exact keeping_pure []
  | cons a as ih =>
    rw [List.mapM_cons]
    exact (each a).bind fun _ => ih.bind fun _ => keeping_pure _

theorem keeping_documentTarget (path : String) : Keeping P (documentTarget path : Action σ ListenTarget) :=
  (keeping_active _).bind fun _ => (keeping_except _).bind fun _ => keeping_pure _

theorem keeping_queryTarget (query : Query) : Keeping P (queryTarget query : Action σ ListenTarget) :=
  (keeping_active _).bind fun _ => (keeping_except _).bind fun _ => keeping_pure _

section Store

variable [Datastore σ] (keeps : Datastore.Keeps P)

include keeps

theorem keeping_getDoc (path : String) : Keeping P (getDoc path) :=
  (keeping_active _).bind fun _ => (keeping_except _).bind fun _ => keeping_perform (keeps.get _)

theorem keeping_write (request : WriteRequest) : Keeping P (write request) :=
  (keeping_active _).bind fun _ => (keeping_except _).bind fun _ => keeping_perform (keeps.write _)

theorem keeping_addDoc (collection : String) (data : Fields) : Keeping P (addDoc collection data) :=
  (keeping_except _).bind fun _ => keeping_makeId.bind fun _ =>
    (keeping_write keeps _).bind fun _ => keeping_getDoc keeps _

theorem keeping_getDocs (query : Query) : Keeping P (getDocs query) :=
  (keeping_active _).bind fun _ => (keeping_perform (keeps.query query)).bind fun _ => keeping_pure _

theorem keeping_getJson (path : String) : Keeping P (getJson path) :=
  (keeping_getDoc keeps path).bind fun _ => keeping_except _

theorem keeping_setJson (path : String) (json : Json) (merge : Bool) :
    Keeping P (setJson path json merge) :=
  (keeping_except _).bind fun _ => keeping_write keeps _

theorem keeping_addJson (collection : String) (json : Json) : Keeping P (addJson collection json) :=
  (keeping_except _).bind fun _ => keeping_addDoc keeps collection _

theorem keeping_getDocsJson (query : Query) : Keeping P (getDocsJson query) :=
  (keeping_getDocs keeps query).bind fun _ => keeping_mapM (fun _ => keeping_except _) _

theorem keeping_commit (batch : Batch) : Keeping P (commit batch) := by
  refine (keeping_active _).bind fun _ => ?_
  split
  · exact keeping_pure ()
  · exact keeping_perform (keeps.commit batch.writes)

private theorem keeping_commitWrites (writes : List WriteOperation) :
    Keeping P (commitWrites writes) := by
  refine (keeping_active _).bind fun _ => ?_
  split
  · exact keeping_pure ()
  · exact keeping_perform (keeps.commit writes)

private theorem kept_transactDirectly (body : Program (ρ × Except Error β)) {client : Client σ}
    (kept : P client.store) : P (client.transactDirectly body).2.store := by
  unfold transactDirectly
  generalize body.execute answerNothing [] false = run
  obtain ⟨⟨report, result⟩, writes, cancelled⟩ := run
  have kept : P (client.cancelIf cancelled).store := by
    rw [cancelIf_store]
    exact kept
  cases result with
  | error e => exact kept
  | ok b => exact keeping_commitWrites keeps writes _ kept

private theorem kept_transactWithReads (keys : List DocumentKey) (body : Program (ρ × Except Error β))
    {client : Client σ} (kept : P client.store) :
    P (client.transactWithReads keys body).2.store := by
  have after := keeps.transact keys (fetchedRun body) client.store kept
  unfold transactWithReads
  generalize Datastore.transact keys (fetchedRun body) client.store = ended at after ⊢
  obtain ⟨ended, store⟩ := ended
  cases ended with
  | notRun e => exact after
  | ran run result =>
    dsimp only
    rw [cancelIf_store]
    exact after

theorem kept_runTransaction (body : Body ρ β) {client : Client σ} (kept : P client.store) :
    P (client.runTransaction body).2.store := by
  unfold runTransaction
  cases client.ensureActive .transaction with
  | error e => exact kept
  | ok _ =>
    obtain ⟨⟨report, discovered⟩, keys, cancelled⟩ := (body .discovery).discover [] false
    dsimp only
    have kept : P (client.cancelIf cancelled).store := by
      rw [cancelIf_store]
      exact kept
    generalize client.cancelIf cancelled = discovered at kept ⊢
    cases discovered.ensureActive .transaction with
    | error e => exact kept
    | ok _ =>
      dsimp only
      split
      · exact kept_transactDirectly keeps _ kept
      · exact kept_transactWithReads keeps _ _ kept

end Store

end Client

end DocumentStore
