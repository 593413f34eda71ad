import DocumentStore.Client.Batch
import DocumentStore.Proofs.Client.Transaction
import DocumentStore.Proofs.Store.Stored
import Mathlib.Logic.Relation

/-! # Stores that clients have written to

Whatever clients write one by one, in batches or in transactions, the documents of a store change by
writes that come of accepted requests and by nothing else. So what one such write keeps is kept by
every run, and in particular the documents are stored under the texts of clean keys. Where all requests
are of a certain kind, so are those that the writes come of. -/

namespace DocumentStore

/-- A write that an accepted request asks for. -/
def WriteOperation.Checked (write : WriteOperation) : Prop :=
  ∃ request : WriteRequest, request.check = .ok write

/-- A write that an accepted request of a certain kind asks for. -/
def WriteOperation.AskedFor (P : WriteRequest → Prop) (write : WriteOperation) : Prop :=
  ∃ request, P request ∧ request.check = .ok write

variable {P : WriteRequest → Prop}

theorem WriteOperation.AskedFor.checked {write : WriteOperation} (asked : write.AskedFor P) :
    write.Checked :=
  asked.imp fun _ accepted => accepted.2

/-- A request that is accepted asks for a write to the document at its path, with its data encoded. -/
theorem WriteRequest.check_eq_ok {request : WriteRequest} {write : WriteOperation} :
    request.check = .ok write ↔ DocumentKey.ofString request.path = .ok write.key ∧
      request.payload write.key = .ok write := by
  constructor
  · intro checked
    obtain ⟨key, read, accepted⟩ := bind_eq_ok.mp checked
    rw [documentKey, mapError_eq_ok] at read
    rw [mapError_eq_ok] at accepted
    have same : write.key = key := by
      cases request with
      | set path data merge =>
        obtain ⟨encoded, -, rfl⟩ := map_eq_ok.mp accepted
        rfl
      | update path data =>
        obtain ⟨encoded, -, rfl⟩ := map_eq_ok.mp accepted
        rfl
      | delete path =>
        cases accepted
        rfl
    rw [same]
    exact ⟨read, accepted⟩
  · rintro ⟨read, accepted⟩
    exact bind_eq_ok.mpr ⟨write.key, mapError_eq_ok.mpr read, mapError_eq_ok.mpr accepted⟩

/-- The key of an accepted request is read from its path. -/
theorem WriteOperation.Checked.clean {write : WriteOperation} (checked : write.Checked) :
    write.key.path.Clean := by
  obtain ⟨request, accepted⟩ := checked
  exact DocumentKey.exists_ofString.mp ⟨_, (WriteRequest.check_eq_ok.mp accepted).1⟩

namespace Program

variable {α : Type} {program : Program α}
  {answer : List WriteOperation → String → Except Error Snapshot} {writes : List WriteOperation}

/-- What a run that counts asks to be written, whether it is accepted or not. -/
def requests (answer : List WriteOperation → String → Except Error Snapshot) :
    Program α → List WriteOperation → List WriteRequest
  | .done _, _ => []
  | .get path next, writes => requests answer (next (answer writes path)) writes
  | .write request next, writes =>
    request :: match request.check with
      | .ok operation => requests answer (next (.ok ())) (writes ++ [operation])
      | .error e => requests answer (next (.error e)) writes
  | .cancel next, writes => requests answer next writes

theorem askedFor_of_mem_execute {cancelled : Bool}
    (asks : ∀ request ∈ program.requests answer writes, P request)
    (asked : ∀ write ∈ writes, write.AskedFor P) :
    ∀ write ∈ (program.execute answer writes cancelled).writes, write.AskedFor P := by
  induction program generalizing writes cancelled with
  | done a => exact asked
  | get path next ih => exact ih _ asks asked
  | write request next ih =>
    rw [requests, List.forall_mem_cons] at asks
    obtain ⟨kind, asks⟩ := asks
    rw [execute]
    split
    · rename_i operation accepted
      rw [accepted] at asks
      exact ih _ asks (List.forall_mem_append.mpr
        ⟨asked, List.forall_mem_singleton.mpr ⟨request, kind, accepted⟩⟩)
    · rename_i e refused
      rw [refused] at asks
      exact ih _ asks asked
  | cancel next ih => exact ih asks asked

theorem askedFor_execute (asks : ∀ request ∈ program.requests answer [], P request) :
    ∀ write ∈ (program.execute answer [] false).writes, write.AskedFor P :=
  askedFor_of_mem_execute asks nofun

end Program

namespace Batch

/-- The batch with those of some more requests that are accepted, one after another. -/
def addAll (batch : Batch) (requests : List WriteRequest) : Batch :=
  requests.foldl (fun batch request => (batch.add request).toOption.getD batch) batch

private theorem askedFor_add {batch next : Batch} {request : WriteRequest} (kind : P request)
    (asked : ∀ write ∈ batch.writes, write.AskedFor P) (added : batch.add request = .ok next) :
    ∀ write ∈ next.writes, write.AskedFor P := by
  unfold add at added
  split at added
  · obtain ⟨operation, accepted, rfl⟩ := map_eq_ok.mp added
    exact List.forall_mem_append.mpr
      ⟨asked, List.forall_mem_singleton.mpr ⟨request, kind, accepted⟩⟩
  · cases added

private theorem askedFor_addAll {batch : Batch} {requests : List WriteRequest}
    (asks : ∀ request ∈ requests, P request) (asked : ∀ write ∈ batch.writes, write.AskedFor P) :
    ∀ write ∈ (batch.addAll requests).writes, write.AskedFor P := by
  induction requests generalizing batch with
  | nil => exact asked
  | cons request requests ih =>
    obtain ⟨kind, asks⟩ := List.forall_mem_cons.mp asks
    rw [addAll, List.foldl_cons]
    refine ih asks ?_
    cases added : batch.add request with
    | error e => exact asked
    | ok next => exact askedFor_add kind asked added

end Batch

namespace Documents

/-- One write of an accepted request of a certain kind, at some time. -/
def Step (P : WriteRequest → Prop) (documents after : Documents) : Prop :=
  ∃ now write, write.AskedFor P ∧ apply now documents write = .ok after

/-- Any number of writes of accepted requests of a certain kind, one after another. -/
abbrev Evolves (P : WriteRequest → Prop) : Documents → Documents → Prop :=
  Relation.ReflTransGen (Step P)

variable {now : Timestamp} {documents after : Documents} {writes : List WriteOperation}

private theorem evolves_applyAll (asked : ∀ write ∈ writes, write.AskedFor P)
    (applied : applyAll now documents writes = .ok after) : documents.Evolves P after := by
  induction writes generalizing documents with
  | nil =>
    cases applied
    exact .refl
  | cons write writes ih =>
    obtain ⟨between, first, rest⟩ := bind_eq_ok.mp applied
    rw [List.forall_mem_cons] at asked
    exact .head ⟨now, write, asked.1, first⟩ (ih asked.2 rest)

private theorem Kept.evolves (kept : Kept documents) (evolves : documents.Evolves P after) :
    Kept after := by
  induction evolves with
  | refl => exact kept
  | tail _ step ih =>
    obtain ⟨now, write, asked, applied⟩ := step
    exact ih.apply asked.checked.clean applied

end Documents

theorem Store.Commits.evolves {store after : Store} {writes : List WriteOperation}
    {result : Except Error Unit} (commits : store.Commits writes result after)
    (asked : ∀ write ∈ writes, write.AskedFor P) :
    store.documents.Evolves P after.documents := by
  cases result with
  | ok done => exact Documents.evolves_applyAll asked commits
  | error e => exact commits.documents ▸ .refl

namespace Client

variable {α β ρ : Type}

theorem run_bind {σ : Type} {first : Action σ α} {next : α → Action σ β} {client : Client σ} :
    (first >>= next).run client = match first.run client with
      | (.ok a, after) => (next a).run after
      | (.error e, after) => (.error e, after) := by
  change (ExceptT.bindCont next (first.run client).1) (first.run client).2 = _
  cases first.run client with
  | mk result after => cases result <;> rfl

theorem run_active {σ : Type} (operation : ClientOperation) (client : Client σ) :
    (active operation).run client = (client.ensureActive operation, client) := rfl

/-- An action changes documents by writes of accepted requests of a certain kind only. -/
def Evolving (P : WriteRequest → Prop) (action : Action Store α) : Prop :=
  ∀ client : Client Store, client.store.documents.Evolves P (action.run client).2.store.documents

theorem Evolving.bind {first : Action Store α} {next : α → Action Store β}
    (hfirst : Evolving P first) (hnext : ∀ a, Evolving P (next a)) : Evolving P (first >>= next) := by
  intro client
  have before := hfirst client
  rw [run_bind]
  generalize first.run client = run at before ⊢
  obtain ⟨result, between⟩ := run
  cases result with
  | error e => exact before
  | ok a => exact before.trans (hnext a between)

/-- What comes after a check may rely on the check. -/
theorem Evolving.except_bind {checked : Except Error α} {next : α → Action Store β}
    (hnext : ∀ a, checked = .ok a → Evolving P (next a)) :
    Evolving P ((liftM checked : Action Store α) >>= next) := by
  intro client
  cases checked with
  | error e => exact .refl
  | ok a => exact hnext a rfl client

theorem evolving_active (operation : ClientOperation) : Evolving P (active operation) :=
  fun _ => .refl

theorem evolving_commit {writes : List WriteOperation}
    (asked : ∀ write ∈ writes, write.AskedFor P) : Evolving P (perform (Datastore.commit writes)) :=
  fun client => (client.store.commits_commit writes).evolves asked

theorem evolving_write {request : WriteRequest} (kind : P request) : Evolving P (write request) := by
  refine (evolving_active _).bind fun _ => Evolving.except_bind fun operation accepted => ?_
  exact evolving_commit (List.forall_mem_singleton.mpr ⟨request, kind, accepted⟩)

private theorem evolving_getDoc (path : String) : Evolving P (getDoc path) :=
  (evolving_active _).bind fun _ => Evolving.except_bind fun _ _ _ => .refl

private theorem evolving_addDoc (collection : String) {data : Fields}
    (kind : ∀ path, P (.set path data false)) : Evolving P (addDoc collection data) := by
  refine Evolving.except_bind fun query _ => Evolving.bind (fun _ => .refl) fun id => ?_
  exact (evolving_write (kind _)).bind fun _ => evolving_getDoc _

private theorem evolving_commitBatch {requests : List WriteRequest}
    (asks : ∀ request ∈ requests, P request) :
    Evolving P (commit (Batch.empty.addAll requests)) := by
  refine (evolving_active _).bind fun _ => ?_
  split
  · exact fun _ => .refl
  · exact evolving_commit (Batch.askedFor_addAll asks (List.forall_mem_nil _))

private theorem evolves_transactDirectly {body : Program (ρ × Except Error β)} (client : Client Store)
    (asks : ∀ request ∈ body.requests answerNothing [], P request) :
    client.store.documents.Evolves P (client.transactDirectly body).2.store.documents := by
  have asked := Program.askedFor_execute asks
  unfold transactDirectly
  generalize body.execute answerNothing [] false = run at asked ⊢
  obtain ⟨⟨report, result⟩, writes, cancelled⟩ := run
  rw [← cancelIf_store cancelled client]
  cases result with
  | error e => exact .refl
  | ok b => exact (commits_commitWrites writes _).evolves asked

private theorem evolves_transactWithReads {keys : List DocumentKey}
    {body : Program (ρ × Except Error β)} (client : Client Store)
    (asks : ∀ request ∈ body.requests (client.store.read keys).answer [], P request) :
    client.store.documents.Evolves P (client.transactWithReads keys body).2.store.documents := by
  have asked := Program.askedFor_execute asks
  simp only [transactWithReads, Datastore.transact, Store.transact, fetchedRun]
  generalize body.execute (client.store.read keys).answer [] false = run at asked ⊢
  obtain ⟨⟨report, result⟩, writes, cancelled⟩ := run
  cases result with
  | error e =>
    simp only [Except.map, cancelIf_store]
    exact .refl
  | ok b =>
    simp only [Except.map, cancelIf_store]
    exact (client.store.commits_commit writes).evolves asked

private theorem evolves_runTransaction {body : Body ρ β} {client : Client Store}
    (asks : ∀ request ∈ (body .effective).requests (client.answers body) [], P request) :
    client.store.documents.Evolves P (client.runTransaction body).2.store.documents := by
  unfold runTransaction
  unfold answers at asks
  cases client.ensureActive .transaction with
  | error e => exact .refl
  | ok _ =>
    generalize (body .discovery).discover [] false = discovery at asks ⊢
    obtain ⟨⟨report, discovered⟩, keys, cancelled⟩ := discovery
    dsimp only at asks ⊢
    rw [← cancelIf_store cancelled client] at asks ⊢
    generalize client.cancelIf cancelled = discovered at asks ⊢
    cases discovered.ensureActive .transaction with
    | error e => exact .refl
    | ok _ =>
      dsimp only
      split at asks
      · rename_i readsNothing
        rw [if_pos readsNothing]
        exact evolves_transactDirectly discovered asks
      · rename_i reads
        rw [if_neg reads]
        exact evolves_transactWithReads discovered asks

end Client

/-- A call by which a client may change documents. -/
inductive ClientCall : Type 1 where
  | write (request : WriteRequest)
  | add (collection : String) (data : Fields)
  /-- Commits the batch of those requests that are accepted. -/
  | batch (requests : List WriteRequest)
  | transaction {ρ β : Type} (body : Body ρ β)

def ClientCall.run (client : Client Store) : ClientCall → Client Store
  | .write request => ((Client.write request).run client).2
  | .add collection data => ((Client.addDoc collection data).run client).2
  | .batch requests => ((Client.commit (Batch.empty.addAll requests)).run client).2
  | .transaction body => (client.runTransaction body).2

/-- Everything that a call of a client asks to be written is of a certain kind, in a transaction what its
effective run asks for. -/
def ClientCall.Asks (P : WriteRequest → Prop) (client : Client Store) : ClientCall → Prop
  | .write request => P request
  | .add _ data => ∀ path, P (.set path data false)
  | .batch requests => ∀ request ∈ requests, P request
  | .transaction body => ∀ request ∈ (body .effective).requests (client.answers body) [], P request

/-- The states of a store that any number of clients bring about. A call commits at most once, so that the
times of the commits may be any if the clock is set before every call. -/
inductive Store.Reached : Store → Prop where
  | empty (clock : Clock) : Reached (Store.empty clock)
  | setClock {store : Store} (reached : Reached store) (clock : Clock) : Reached { store with clock }
  | call {client : Client Store} (reached : Reached client.store) (call : ClientCall) :
    Reached (call.run client).store

/-- The states of a store that any number of clients bring about by requests of a certain kind. -/
inductive Store.ReachedBy (P : WriteRequest → Prop) : Store → Prop where
  | empty (clock : Clock) : ReachedBy P (Store.empty clock)
  | setClock {store : Store} (reached : ReachedBy P store) (clock : Clock) :
    ReachedBy P { store with clock }
  | call {client : Client Store} (reached : ReachedBy P client.store) {call : ClientCall}
    (asks : call.Asks P client) : ReachedBy P (call.run client).store

private theorem ClientCall.asks_any (call : ClientCall) (client : Client Store) :
    call.Asks (fun _ => True) client := by
  cases call with
  | write request => trivial
  | add collection data => exact fun _ => trivial
  | batch requests => exact fun _ _ => trivial
  | transaction body => exact fun _ _ => trivial

private theorem ClientCall.evolves_run {call : ClientCall} {client : Client Store}
    (asks : call.Asks P client) :
    client.store.documents.Evolves P (call.run client).store.documents := by
  cases call with
  | write request => exact Client.evolving_write asks client
  | add collection data =>
    rw [run]
    exact Client.evolving_addDoc collection asks client
  | batch requests => exact Client.evolving_commitBatch asks client
  | transaction body => exact Client.evolves_runTransaction asks

namespace Store

variable {store : Store}

/-- The documents of a store that clients have written to come of writes of accepted requests. -/
theorem ReachedBy.evolves (reached : store.ReachedBy P) : Documents.Evolves P [] store.documents := by
  induction reached with
  | empty clock => exact .refl
  | setClock _ clock ih => exact ih
  | call reached asks ih => exact ih.trans (ClientCall.evolves_run asks)

theorem ReachedBy.kept (reached : store.ReachedBy P) : store.documents.Kept :=
  Documents.kept_nil.evolves reached.evolves

theorem Reached.reachedBy (reached : store.Reached) : store.ReachedBy fun _ => True := by
  induction reached with
  | empty clock => exact .empty clock
  | setClock _ clock ih => exact ih.setClock clock
  | call reached call ih => exact ih.call (call.asks_any _)

theorem Reached.evolves (reached : store.Reached) :
    Documents.Evolves (fun _ => True) [] store.documents :=
  reached.reachedBy.evolves

theorem Reached.kept (reached : store.Reached) : store.documents.Kept := reached.reachedBy.kept

/-- A client may make any number of calls, one after another. -/
theorem Reached.calls {client : Client Store} (reached : Reached client.store)
    (calls : List ClientCall) : Reached (calls.foldl ClientCall.run client).store := by
  induction calls generalizing client with
  | nil => exact reached
  | cons call calls ih => exact ih (reached.call call)

end Store

end DocumentStore
