import DocumentStore.Client.Transaction
import DocumentStore.Proofs.Store.Commit

/-! # Transactions are isolated

The body of a transaction is run twice, and its reads are answered in three different ways. For a body
that gives up at the first error all of this comes down to one run in which every read is answered by
the stored documents. -/

namespace DocumentStore

namespace Program

variable {ρ β : Type}

/-- A run that has ended with an error. -/
def Failed (program : Program (ρ × Except Error β)) : Prop :=
  ∃ report e, program = .done (report, .error e)

/-- A program that ends with an error as soon as one of its calls fails. -/
def Strict : Program (ρ × Except Error β) → Prop
  | .done _ => True
  | .get _ next => (∀ e, Failed (next (.error e))) ∧ ∀ s, Strict (next (.ok s))
  | .write _ next => (∀ e, Failed (next (.error e))) ∧ Strict (next (.ok ()))
  | .cancel next => Strict next

theorem Failed.execute_ne_ok {program : Program (ρ × Except Error β)} (failed : program.Failed)
    (answer : List WriteOperation → String → Except Error Snapshot)
    (writes : List WriteOperation) (cancelled : Bool) (b : β) :
    (program.execute answer writes cancelled).value.2 ≠ .ok b := by
  obtain ⟨report, e, rfl⟩ := failed
  simp [execute]

/-- Answers that are right where they are given do not lead a strict program astray. -/
theorem Strict.execute_eq {program : Program (ρ × Except Error β)} (strict : program.Strict)
    {answer ideal : List WriteOperation → String → Except Error Snapshot}
    (sound : ∀ writes path s, answer writes path = .ok s → ideal writes path = .ok s)
    {writes : List WriteOperation} {cancelled : Bool} {b : β}
    (ended : (program.execute answer writes cancelled).value.2 = .ok b) :
    program.execute ideal writes cancelled = program.execute answer writes cancelled := by
  induction program generalizing writes cancelled with
  | done _ => rfl
  | get path next ih =>
    obtain ⟨failed, goesOn⟩ := strict
    rw [execute] at ended ⊢
    cases given : answer writes path with
    | error e =>
      rw [given] at ended
      exact absurd ended ((failed e).execute_ne_ok _ _ _ _)
    | ok s =>
      rw [given] at ended
      rw [sound writes path s given, ih (.ok s) (goesOn s) ended, execute, given]
  | write request next ih =>
    obtain ⟨failed, goesOn⟩ := strict
    cases checked : request.check with
    | error e =>
      simp only [execute, checked] at ended
      exact absurd ended ((failed e).execute_ne_ok _ _ _ _)
    | ok operation =>
      simp only [execute, checked] at ended ⊢
      exact ih (.ok ()) goesOn ended
  | cancel next ih => exact ih strict ended

end Program

/-- The answer that stored documents give to a read, whatever was written before it: the document under
the text of its key, if there is one. -/
def Documents.answer (documents : Documents) (_ : List WriteOperation) (path : String) :
    Except Error Snapshot :=
  (documentKey path).map fun key => ⟨key, Entries.find? key.text documents⟩

theorem Store.find?_read {store : Store} {keys : List DocumentKey} {key : DocumentKey}
    {s : Snapshot} (found : (store.read keys).find? key = some s) :
    s = store.documents.snapshot key := by
  obtain ⟨read, hread, rfl⟩ := Option.map_eq_some_iff.mp found
  obtain ⟨k, -, rfl⟩ := List.mem_map.mp (List.mem_of_find?_eq_some hread)
  have same : k = key := by simpa using List.find?_some hread
  rw [same]

theorem Store.answer_read {store : Store} {keys : List DocumentKey} {writes : List WriteOperation}
    {path : String} {s : Snapshot} (given : (store.read keys).answer writes path = .ok s) :
    store.documents.answer writes path = .ok s := by
  unfold Reads.answer at given
  split at given
  · obtain ⟨key, hkey, given⟩ := bind_eq_ok.mp given
    split at given
    · rename_i fetched found
      cases given
      rw [Documents.answer, hkey, find?_read found]
      rfl
    · cases given
  · cases given

namespace Client

variable {ρ β : Type} {program : Program (ρ × Except Error β)}

@[simp] theorem cancelIf_store {σ : Type} (cancelled : Bool) (client : Client σ) :
    (client.cancelIf cancelled).store = client.store := by
  cases cancelled <;> rfl

theorem commitWrites_of_cancelled (writes : List WriteOperation) {client : Client Store}
    (cancelled : client.cancelled = true) :
    (commitWrites writes).run client = (.error (.cancelled .transactionCommit), client) := by
  obtain ⟨store, _, nextId⟩ := client
  cases cancelled
  rfl

theorem commitWrites_nil {client : Client Store} (active : client.cancelled = false) :
    (commitWrites []).run client = (.ok (), client) := by
  obtain ⟨store, _, nextId⟩ := client
  cases active
  rfl

theorem commitWrites_cons (write : WriteOperation) (writes : List WriteOperation)
    {client : Client Store} (active : client.cancelled = false) :
    (commitWrites (write :: writes)).run client
      = ((client.store.commit (write :: writes)).1,
        { client with store := (client.store.commit (write :: writes)).2 }) := by
  obtain ⟨store, _, nextId⟩ := client
  cases active
  rfl

theorem commits_commitWrites (writes : List WriteOperation) (client : Client Store) :
    client.store.Commits writes ((commitWrites writes).run client).1
      ((commitWrites writes).run client).2.store := by
  cases cancelled : client.cancelled with
  | true =>
    rw [commitWrites_of_cancelled writes cancelled]
    exact Store.Same.refl _
  | false =>
    cases writes with
    | nil =>
      rw [commitWrites_nil cancelled]
      rfl
    | cons write writes =>
      rw [commitWrites_cons write writes cancelled]
      exact Store.commits_commit _ _

/-- The answers to the reads of the run that counts. They depend on what the first run has read. -/
def answers (body : Body ρ β) (client : Client Store) :
    List WriteOperation → String → Except Error Snapshot :=
  let keys := ((body .discovery).discover [] false).keys
  if keys.isEmpty then answerNothing else (client.store.read keys).answer

/-- A transaction that ends with a result has the result and the writes of a single run against the
stored documents; one that fails leaves no trace. -/
def Isolated (program : Program (ρ × Except Error β)) (store : Store) (result : Except Error β)
    (after : Store) : Prop :=
  match result with
  | .ok b =>
    (program.execute store.documents.answer [] false).value.2 = .ok b ∧
      store.documents.applyAll store.clock.now
        (program.execute store.documents.answer [] false).writes = .ok after.documents
  | .error _ => store.Same after

/-- A result of a run and the commit of its writes are isolated together. -/
theorem isolated_of_commits {store after : Store} {run : Program.Execution (ρ × Except Error β)}
    {committed : Except Error Unit}
    (same : ∀ b, run.value.2 = .ok b → program.execute store.documents.answer [] false = run)
    {b : β} (ended : run.value.2 = .ok b) (commits : store.Commits run.writes committed after) :
    Isolated program store (committed.map fun _ => b) after := by
  cases committed with
  | error e => exact commits
  | ok done =>
    unfold Isolated
    simp only [Except.map, same b ended]
    exact ⟨ended, commits⟩

private theorem transactDirectly_isolated (strict : program.Strict) (client : Client Store) :
    Isolated program client.store (client.transactDirectly program).1.result
      (client.transactDirectly program).2.store := by
  have sound (writes : List WriteOperation) (path : String) (s : Snapshot)
      (given : answerNothing writes path = .ok s) :
      client.store.documents.answer writes path = .ok s := by cases given
  have same (b : β) (ended : (program.execute answerNothing [] false).value.2 = .ok b) :=
    strict.execute_eq sound ended
  unfold transactDirectly
  generalize program.execute answerNothing [] false = run at same ⊢
  obtain ⟨⟨report, result⟩, writes, cancelled⟩ := run
  have kept := cancelIf_store cancelled client
  cases result with
  | error e =>
    simp only [Isolated, kept]
    exact Store.Same.refl _
  | ok b =>
    have commits := commits_commitWrites writes (client.cancelIf cancelled)
    rw [kept] at commits
    exact isolated_of_commits same rfl commits

private theorem transactWithReads_isolated (strict : program.Strict) (keys : List DocumentKey)
    (client : Client Store) :
    Isolated program client.store (client.transactWithReads keys program).1.result
      (client.transactWithReads keys program).2.store := by
  have same (b : β)
      (ended : (program.execute (client.store.read keys).answer [] false).value.2 = .ok b) :=
    strict.execute_eq (fun _ _ _ => Store.answer_read) ended
  simp only [transactWithReads, Datastore.transact, Store.transact, fetchedRun]
  generalize program.execute (client.store.read keys).answer [] false = run at same ⊢
  obtain ⟨⟨report, result⟩, writes, cancelled⟩ := run
  cases result with
  | error e =>
    simp only [Except.map, Except.bind, cancelIf_store]
    exact Store.Same.refl _
  | ok b =>
    have isolated := isolated_of_commits same rfl (client.store.commits_commit writes)
    simp only [Except.map, cancelIf_store]
    exact isolated

private theorem isolated_runTransaction (strict : program.Strict) (client : Client Store) :
    Isolated program client.store (client.runTransaction fun _ => program).1.result
      (client.runTransaction fun _ => program).2.store := by
  unfold runTransaction
  cases client.ensureActive .transaction with
  | error e => exact Store.Same.refl _
  | ok _ =>
    obtain ⟨⟨report, discovered⟩, keys, cancelled⟩ := program.discover [] false
    dsimp only
    rw [← cancelIf_store cancelled client]
    generalize client.cancelIf cancelled = discovered
    cases discovered.ensureActive .transaction with
    | error e => exact Store.Same.refl _
    | ok _ =>
      dsimp only
      split
      · exact transactDirectly_isolated strict discovered
      · exact transactWithReads_isolated strict keys discovered

/-- Whatever a strict body does in its two runs, the transaction either has the result of one run that
reads the stored documents and the writes of that run have taken effect, or it changes neither documents
nor registrations nor queues. -/
theorem runTransaction_isolated {program : Program (ρ × Except Error β)} (strict : program.Strict)
    (client : Client Store) (sorted : Entries.Sorted client.store.documents) :
    let ended := client.runTransaction fun _ => program
    let single := program.execute client.store.documents.answer [] false
    (∀ b, ended.1.result = .ok b →
      single.value.2 = .ok b ∧
        client.store.documents.Written client.store.clock.now single.writes
          ended.2.store.documents) ∧
      ∀ e, ended.1.result = .error e →
        ended.2.store.documents = client.store.documents ∧
          ended.2.store.listeners = client.store.listeners ∧
          ended.2.store.mailboxes = client.store.mailboxes := by
  intro ended single
  have isolated : Isolated program client.store ended.1.result ended.2.store :=
    isolated_runTransaction strict client
  constructor
  · intro b result
    rw [result] at isolated
    obtain ⟨value, applied⟩ := isolated
    exact ⟨value, (Documents.applyAll_eq_ok_iff sorted).mp applied⟩
  · intro e result
    rw [result] at isolated
    exact ⟨isolated.documents, isolated.listeners, isolated.mailboxes⟩

/-- Copies a document and removes it, or gives up at the first error. -/
def moveAccount : Program (Unit × Except Error Unit) :=
  .get "accounts/first" fun
    | .error e => .done ((), .error e)
    | .ok s => .write (.set "accounts/second" (s.fields?.getD []) false) fun
      | .error e => .done ((), .error e)
      | .ok () => .write (.delete "accounts/first") fun
        | .error e => .done ((), .error e)
        | .ok () => .done ((), .ok ())

private theorem moveAccount_strict : moveAccount.Strict :=
  ⟨fun e => ⟨(), e, rfl⟩, fun _ => ⟨fun e => ⟨(), e, rfl⟩, fun e => ⟨(), e, rfl⟩, trivial⟩⟩

def firstAccount : DocumentKey := ⟨⟨["accounts", "first"]⟩, by decide, by decide⟩
def secondAccount : DocumentKey := ⟨⟨["accounts", "second"]⟩, by decide, by decide⟩

/-- A client of a store with one account. -/
def bank : Client Store :=
  .new { Store.empty ⟨.new 0 0, 1⟩ with
    documents := [("accounts/first", [("balance", .integer 5)])] }

theorem runTransaction_moveAccount_bank :
    let ended := bank.runTransaction fun _ => moveAccount
    let single := moveAccount.execute bank.store.documents.answer [] false
    moveAccount.Strict ∧ Entries.Sorted bank.store.documents ∧ ended.1.result = .ok () ∧
      single.value.2 = .ok () ∧
      single.writes = [.set secondAccount [("balance", .integer 5)] false, .delete firstAccount] ∧
      bank.store.documents.Written bank.store.clock.now single.writes ended.2.store.documents ∧
      ended.2.store.documents = [("accounts/second", [("balance", .integer 5)])] := by
  intro ended single
  have sorted : Entries.Sorted bank.store.documents := List.pairwise_singleton _ _
  have result : ended.1.result = .ok () := by rfl
  have writes : single.writes
      = [.set secondAccount [("balance", .integer 5)] false, .delete firstAccount] := by rfl
  have moved : ended.2.store.documents = [("accounts/second", [("balance", .integer 5)])] := by rfl
  obtain ⟨value, written⟩ := (runTransaction_isolated moveAccount_strict bank sorted).1 () result
  exact ⟨moveAccount_strict, sorted, result, value, writes, written, moved⟩

end Client

end DocumentStore
