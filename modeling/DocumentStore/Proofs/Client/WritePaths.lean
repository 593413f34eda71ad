import DocumentStore.Client.Batch
import DocumentStore.Proofs.Client.Transaction
import DocumentStore.Proofs.Store.Notify
import Mathlib.Data.List.Forall2

/-! # Three ways to write

Writes can be collected in a batch, asked for by a transaction that reads nothing, or asked for by a
transaction that reads a document before. The three ways lead to the same outcome, the same documents
and the same events, also when one of the writes fails. -/

namespace DocumentStore

/-- Requests that are accepted, with the writes that they ask for. -/
def WriteRequest.Accepted (requests : List WriteRequest) (writes : List WriteOperation) : Prop :=
  List.Forall₂ (fun request write => request.check = .ok write) requests writes

open WriteRequest

variable {requests : List WriteRequest} {writes : List WriteOperation}

private theorem WriteRequest.exists_accepted
    (valid : ∀ request ∈ requests, ∃ write, request.check = .ok write) :
    ∃ writes, Accepted requests writes :=
  exists_forall₂_iff.mpr valid

namespace Batch

/-- The batch with some more writes, or the first refusal. -/
def addEach (requests : List WriteRequest) (batch : Batch) : Except Error Batch :=
  requests.foldlM (fun batch request => batch.add request) batch

theorem exists_addEach (accepted : Accepted requests writes) {batch : Batch}
    (room : batch.length + requests.length ≤ Error.batchCapacity) :
    ∃ filled, batch.addEach requests = .ok filled ∧ filled.writes = batch.writes ++ writes := by
  induction accepted generalizing batch with
  | nil => exact ⟨batch, rfl, (List.append_nil _).symm⟩
  | @cons request write requests writes checked accepted ih =>
    rw [List.length_cons] at room
    have free : batch.length < Error.batchCapacity := by omega
    let next : Batch := ⟨batch.writes ++ [write], by rw [List.length_append]; exact free⟩
    have added : batch.add request = .ok next := by
      rw [add, dif_pos free, checked]
      rfl
    have length_next : next.length = batch.length + 1 := List.length_append
    have roomNext : next.length + requests.length ≤ Error.batchCapacity := by omega
    obtain ⟨filled, fills, holds⟩ := ih roomNext
    refine ⟨filled, ?_, ?_⟩
    · rw [addEach, List.foldlM_cons, added]
      exact fills
    · rw [holds, List.append_assoc]
      rfl

end Batch

namespace Program

variable {ρ β : Type} {b : β} {program : Program (ρ × Except Error β)}

/-- A program that asks for some writes, in this order and without a read between them, and ends with a
result if they are accepted. -/
def Issues (b : β) : List WriteRequest → Program (ρ × Except Error β) → Prop
  | [], program => ∃ report, program = .done (report, .ok b)
  | request :: requests, program =>
    ∃ next, program = .write request next ∧ Issues b requests (next (.ok ()))

/-- A program that reads a document and then asks for some writes, whatever the document holds. -/
def ReadsThenIssues (path : String) (b : β) (requests : List WriteRequest)
    (program : Program (ρ × Except Error β)) : Prop :=
  ∃ next, program = .get path next ∧ ∀ s, (next (.ok s)).Issues b requests

theorem Issues.discover_eq (issues : program.Issues b requests) (accepted : Accepted requests writes)
    (keys : List DocumentKey) (cancelled : Bool) :
    ∃ value, program.discover keys cancelled = ⟨value, keys, cancelled⟩ := by
  induction accepted generalizing program with
  | nil =>
    obtain ⟨report, rfl⟩ := issues
    exact ⟨_, rfl⟩
  | cons checked _ ih =>
    obtain ⟨next, rfl, issues⟩ := issues
    rw [discover, checked]
    exact ih issues

theorem Issues.execute_eq (issues : program.Issues b requests) (accepted : Accepted requests writes)
    (answer : List WriteOperation → String → Except Error Snapshot) (earlier : List WriteOperation)
    (cancelled : Bool) :
    ∃ report, program.execute answer earlier cancelled
      = ⟨(report, .ok b), earlier ++ writes, cancelled⟩ := by
  induction accepted generalizing program earlier with
  | nil =>
    obtain ⟨report, rfl⟩ := issues
    exact ⟨report, by simp [execute]⟩
  | @cons _ write _ _ checked _ ih =>
    obtain ⟨next, rfl, issues⟩ := issues
    obtain ⟨report, ended⟩ := ih issues (earlier ++ [write])
    refine ⟨report, ?_⟩
    simp only [execute, checked, ended, List.append_assoc, List.singleton_append]

end Program

namespace Store

variable {store : Store}

theorem notify_nil (documents : Documents) (listeners : List Listener) (boxes : Mailboxes) :
    notify documents [] listeners boxes = (listeners, boxes) := by
  induction listeners generalizing boxes with
  | nil => rfl
  | cons listener rest ih => simp [notify, ih]

private theorem commit_nil (store : Store) :
    (store.commit []).1 = .ok () ∧ Same store (store.commit []).2 := by
  have applied : store.documents.applyAll store.clock.now [] = .ok store.documents := rfl
  rw [commit_of_ok applied, replace, notify_nil]
  exact ⟨rfl, rfl, rfl, rfl⟩

theorem find?_read_self (store : Store) (key : DocumentKey) :
    (store.read [key]).find? key = some (store.documents.snapshot key) := by
  simp [read, Reads.find?]

end Store

namespace Client

variable {ρ β : Type} {b : β} {client : Client Store}

private theorem run_commit (batch : Batch) (active : client.cancelled = false) :
    (commit batch).run client = (commitWrites batch.writes).run client := by
  obtain ⟨store, _, nextId⟩ := client
  obtain ⟨writes, within⟩ := batch
  cases active
  cases writes <;> rfl

/-- A commit that is left out because there is nothing to write would have changed nothing. -/
theorem commitWrites_same (writes : List WriteOperation) (active : client.cancelled = false) :
    ((commitWrites writes).run client).1 = (client.store.commit writes).1 ∧
      Store.Same (client.store.commit writes).2 ((commitWrites writes).run client).2.store := by
  cases writes with
  | nil =>
    obtain ⟨result, same⟩ := client.store.commit_nil
    rw [commitWrites_nil active, result]
    exact ⟨rfl, same.symm⟩
  | cons write writes =>
    rw [commitWrites_cons write writes active]
    exact ⟨rfl, Store.Same.refl _⟩

/-- A transaction has come to the outcome of a commit, and has left behind what the commit leaves. -/
structure EndsAs (store : Store) (writes : List WriteOperation) (b : β)
    (ended : TransactionOutcome ρ β × Client Store) : Prop where
  result : ended.1.result = (store.commit writes).1.map fun _ => b
  same : Store.Same (store.commit writes).2 ended.2.store

private theorem transactDirectly_endsAs {program : Program (ρ × Except Error β)}
    (issues : program.Issues b requests) (accepted : Accepted requests writes)
    (active : client.cancelled = false) :
    EndsAs client.store writes b (client.transactDirectly program) := by
  obtain ⟨report, ended⟩ := issues.execute_eq accepted answerNothing [] false
  obtain ⟨result, same⟩ := commitWrites_same writes active
  rw [transactDirectly, ended]
  exact ⟨congrArg (Except.map fun _ => b) result, same⟩

private theorem transactWithReads_endsAs {program : Program (ρ × Except Error β)} {path : String}
    {key : DocumentKey} (readable : documentKey path = .ok key)
    (reads : program.ReadsThenIssues path b requests) (accepted : Accepted requests writes) :
    EndsAs client.store writes b (client.transactWithReads [key] program) := by
  obtain ⟨next, rfl, issues⟩ := reads
  have fetched : (client.store.read [key]).answer [] path
      = .ok (client.store.documents.snapshot key) := by
    rw [Reads.answer, readable]
    simp [bind, Except.bind, Store.find?_read_self]
  obtain ⟨report, ended⟩ := (issues (client.store.documents.snapshot key)).execute_eq accepted
    (client.store.read [key]).answer [] false
  simp only [transactWithReads, Datastore.transact, Store.transact, fetchedRun, Program.execute,
    fetched, ended, Except.map, List.nil_append]
  constructor
  · cases (client.store.commit writes).1 <;> rfl
  · exact Store.Same.refl _

/-- A transaction whose first run cancels nothing goes on to its second. -/
theorem runTransaction_eq {body : Body ρ β} {report : ρ} {first : Except Error β}
    {keys : List DocumentKey} (active : client.cancelled = false)
    (found : (body .discovery).discover [] false = ⟨(report, first), keys, false⟩) :
    client.runTransaction body =
      let ended :=
        if keys.isEmpty then client.transactDirectly (body .effective)
        else client.transactWithReads keys (body .effective)
      (⟨report :: ended.1.reports, ended.1.result⟩, ended.2) := by
  simp only [runTransaction, ensureActive, active, found, cancelIf, Bool.false_eq_true, if_false]

private theorem runTransaction_of_issues {body : Body ρ β}
    (issues : ∀ run, (body run).Issues b requests)
    (accepted : Accepted requests writes) (active : client.cancelled = false) :
    EndsAs client.store writes b (client.runTransaction body) := by
  obtain ⟨⟨report, first⟩, discovered⟩ := (issues .discovery).discover_eq accepted [] false
  obtain ⟨result, same⟩ := transactDirectly_endsAs (issues .effective) accepted active
  rw [runTransaction_eq active discovered]
  exact ⟨result, same⟩

private theorem runTransaction_of_reads {body : Body ρ β} {path : String} {key : DocumentKey}
    (readable : documentKey path = .ok key)
    (reads : ∀ run, (body run).ReadsThenIssues path b requests)
    (accepted : Accepted requests writes) (active : client.cancelled = false) :
    EndsAs client.store writes b (client.runTransaction body) := by
  obtain ⟨next, starts, issues⟩ := reads .discovery
  obtain ⟨⟨report, first⟩, discovered⟩ :=
    (issues (.missing key)).discover_eq accepted (Program.note key []) false
  have found : (body .discovery).discover [] false = ⟨(report, first), [key], false⟩ := by
    rw [starts, Program.discover, readable]
    exact discovered
  have ended : EndsAs client.store writes b (client.transactWithReads [key] (body .effective)) :=
    transactWithReads_endsAs readable (reads .effective) accepted
  rw [runTransaction_eq active found]
  exact ⟨ended.result, ended.same⟩

theorem runTransaction_of_cancelled (body : Body ρ β) (cancelled : client.cancelled = true) :
    client.runTransaction body = (⟨[], .error (.cancelled .transaction)⟩, client) := by
  simp only [runTransaction, ensureActive, cancelled, if_true]

private theorem run_commit_of_cancelled (batch : Batch) (cancelled : client.cancelled = true) :
    (commit batch).run client = (.error (.cancelled .batchCommit), client) := by
  obtain ⟨store, _, nextId⟩ := client
  cases cancelled
  rfl

/-- Requests that are accepted, and not too many for a batch, can be committed as a batch, by a
transaction that only asks for them, or by a transaction that reads a document before it asks for them:
the three leave the same documents, registrations and queues of events, and they end alike. Only the
refusal of a cancelled client names the operation that was refused. -/
theorem write_paths_agree
    (valid : ∀ request ∈ requests, ∃ write, request.check = .ok write)
    (few : requests.length ≤ Error.batchCapacity)
    {path : String} {key : DocumentKey} (readable : documentKey path = .ok key)
    {direct reading : Body ρ β} (issues : ∀ run, (direct run).Issues b requests)
    (reads : ∀ run, (reading run).ReadsThenIssues path b requests) (client : Client Store) :
    ∃ batch, Batch.empty.addEach requests = .ok batch ∧
      let batched := (commit batch).run client
      let directly := client.runTransaction direct
      let afterRead := client.runTransaction reading
      Store.Same batched.2.store directly.2.store ∧ Store.Same batched.2.store afterRead.2.store ∧
        afterRead.1.result = directly.1.result ∧
        (client.cancelled = false → directly.1.result = batched.1.map fun _ => b) := by
  obtain ⟨writes, accepted⟩ := exists_accepted valid
  have room : Batch.empty.length + requests.length ≤ Error.batchCapacity := by
    rw [Batch.length, Batch.empty, List.length_nil, Nat.zero_add]
    exact few
  obtain ⟨batch, filled, (holds : batch.writes = writes)⟩ := Batch.exists_addEach accepted room
  refine ⟨batch, filled, ?_⟩
  dsimp only
  cases state : client.cancelled with
  | true =>
    rw [run_commit_of_cancelled batch state, runTransaction_of_cancelled direct state,
      runTransaction_of_cancelled reading state]
    exact ⟨Store.Same.refl _, Store.Same.refl _, rfl, nofun⟩
  | false =>
    obtain ⟨result, same⟩ := commitWrites_same writes state
    have directly := runTransaction_of_issues issues accepted state
    have afterRead := runTransaction_of_reads readable reads accepted state
    rw [run_commit batch state, holds]
    refine ⟨same.symm.trans directly.same, same.symm.trans afterRead.same, ?_, fun _ => ?_⟩
    · rw [afterRead.result, directly.result]
    · rw [directly.result, result]

/-- Asks for some writes and gives up at the first that is refused. -/
def asking : List WriteRequest → Program (Unit × Except Error Unit)
  | [] => .done ((), .ok ())
  | request :: requests => .write request fun
    | .ok () => asking requests
    | .error e => .done ((), .error e)

private theorem issues_asking (requests : List WriteRequest) :
    (asking requests).Issues () requests := by
  induction requests with
  | nil => exact ⟨(), rfl⟩
  | cons request requests ih => exact ⟨_, rfl, ih⟩

/-- Reads the attic before it asks for some writes. -/
def askingAfterRead (requests : List WriteRequest) : Program (Unit × Except Error Unit) :=
  .get "rooms/attic" fun
    | .ok _ => asking requests
    | .error e => .done ((), .error e)

def attic : DocumentKey := ⟨⟨["rooms", "attic"]⟩, by decide, by decide⟩

/-- A client of a store with a listener on the attic, which is not there. -/
def watchedAttic : Client Store :=
  .new { Store.empty ⟨.new 0 0, 1⟩ with
    listeners := [⟨1, .document attic, 0⟩], mailboxes := [.unbounded], nextToken := 2 }

def furnishing : List WriteRequest :=
  [.set "rooms/attic" [("size", .integer 2)] false, .update "rooms/attic" [("lamp.on", .boolean true)]]

theorem write_paths_agree_attic :
    let furnished : Fields := [("lamp", .map [("on", .boolean true)]), ("size", .integer 2)]
    let directly := watchedAttic.runTransaction fun _ => asking furnishing
    let afterRead := watchedAttic.runTransaction fun _ => askingAfterRead furnishing
    (∀ request ∈ furnishing, ∃ write, request.check = .ok write) ∧
      documentKey "rooms/attic" = .ok attic ∧
      ∃ batch, Batch.empty.addEach furnishing = .ok batch ∧
        let batched := (commit batch).run watchedAttic
        Store.Same batched.2.store directly.2.store ∧ Store.Same batched.2.store afterRead.2.store ∧
          batched.2.store.documents = [("rooms/attic", furnished)] ∧
          (Mailboxes.box 0 batched.2.store.mailboxes).items = [.document ⟨attic, some furnished⟩] ∧
          directly.1.result = .ok () ∧ afterRead.1.result = .ok () ∧ batched.1 = .ok () := by
  intro furnished directly afterRead
  have valid : ∀ request ∈ furnishing, ∃ write, request.check = .ok write := by
    simp only [furnishing, List.forall_mem_cons]
    refine ⟨⟨.set attic [("size", .integer 2)] false, by cbv⟩,
      ⟨.update attic [("lamp", .map [("on", .boolean true)])]
        [⟨["lamp", "on"], by decide, by decide⟩], by cbv⟩, nofun⟩
  have readable : documentKey "rooms/attic" = .ok attic := by cbv
  have reads (run : Run) : (askingAfterRead furnishing).ReadsThenIssues "rooms/attic" () furnishing :=
    ⟨_, rfl, fun _ => issues_asking furnishing⟩
  have result : directly.1.result = .ok () := by rfl
  have stored : directly.2.store.documents = [("rooms/attic", furnished)] := by rfl
  have told : (Mailboxes.box 0 directly.2.store.mailboxes).items
      = [.document ⟨attic, some furnished⟩] := by rfl
  obtain ⟨batch, filled, same, sameAfterRead, alike, agrees⟩ := write_paths_agree valid (by decide) readable
    (fun _ => issues_asking furnishing) reads watchedAttic
  refine ⟨valid, readable, batch, filled, same, sameAfterRead, ?_, ?_, result, alike.trans result, ?_⟩
  · rw [← same.documents, stored]
  · rw [← same.mailboxes, told]
  · have committed := (agrees rfl).symm.trans result
    obtain ⟨done, batched, -⟩ := map_eq_ok.mp committed
    exact batched

end Client

end DocumentStore
