import DocumentStore.Client.Basic

/-! # Transactions

The body of a transaction is a program that reads and writes and goes on with the answers. It runs
twice. The first run finds out which documents it reads: every document appears to be missing, and
writes are checked and dropped. The second run counts. If there was nothing to read it runs by itself
and its writes are committed; otherwise the store fetches the documents, and the run sees them as
they were before any of its writes. -/

namespace DocumentStore

/-- The body of a transaction, which ends with an `α`. -/
inductive Program (α : Type) where
  | done (a : α)
  /-- Reads the document at a path. -/
  | get (path : String) (next : Except Error Snapshot → Program α)
  /-- Asks for a write. -/
  | write (request : WriteRequest) (next : Except Error Unit → Program α)
  /-- Cancels the client. -/
  | cancel (next : Program α)

namespace Program

variable {α β : Type}

def bind : Program α → (α → Program β) → Program β
  | .done a, f => f a
  | .get path next, f => .get path fun answer => (next answer).bind f
  | .write request next, f => .write request fun answer => (next answer).bind f
  | .cancel next, f => .cancel (next.bind f)

instance : Monad Program where
  pure := .done
  bind := bind

/-- What a first run leaves behind: its end, the documents it read in the order of their first
reads, and whether it cancelled the client. -/
structure Discovery (α : Type) where
  value : α
  keys : List DocumentKey
  cancelled : Bool

/-- Adds a key to the end of a list unless it is there. -/
def note (key : DocumentKey) (keys : List DocumentKey) : List DocumentKey :=
  if key ∈ keys then keys else keys ++ [key]

def discover : Program α → List DocumentKey → Bool → Discovery α
  | .done a, keys, cancelled => ⟨a, keys, cancelled⟩
  | .get path next, keys, cancelled =>
    match documentKey path with
    | .ok key => discover (next (.ok (.missing key))) (note key keys) cancelled
    | .error e => discover (next (.error e)) keys cancelled
  | .write request next, keys, cancelled =>
    discover (next (request.check.map fun _ => ())) keys cancelled
  | .cancel next, keys, _ => discover next keys true

/-- What a run that counts leaves behind: its end, its writes, and whether it cancelled the
client. -/
structure Execution (α : Type) where
  value : α
  writes : List WriteOperation
  cancelled : Bool

/-- A run that counts, after some writes. Reads are answered by a function of the writes so far and
the path. -/
def execute (answer : List WriteOperation → String → Except Error Snapshot) :
    Program α → List WriteOperation → Bool → Execution α
  | .done a, writes, cancelled => ⟨a, writes, cancelled⟩
  | .get path next, writes, cancelled =>
    execute answer (next (answer writes path)) writes cancelled
  | .write request next, writes, cancelled =>
    match request.check with
    | .ok operation => execute answer (next (.ok ())) (writes ++ [operation]) cancelled
    | .error e => execute answer (next (.error e)) writes cancelled
  | .cancel next, writes, _ => execute answer next writes true

end Program

/-- The answer to a read in a run for which nothing was fetched. -/
def answerNothing (_ : List WriteOperation) (path : String) : Except Error Snapshot :=
  .error (.readNotIssued path)

/-- The answer to a read in a run for which documents were fetched. -/
def Reads.answer (reads : Reads) (writes : List WriteOperation) (path : String) :
    Except Error Snapshot :=
  if writes.isEmpty then do
    let key ← documentKey path
    match reads.find? key with
    | some snapshot => .ok snapshot
    | none => .error (.readNotFetched key.text)
  else .error .readAfterWrite

/-- The two runs of the body of a transaction. -/
inductive Run where
  | discovery
  | effective
deriving DecidableEq, Repr

/-- The body of a transaction for each of its runs. A run ends with a report, which is kept, and with
a result. -/
abbrev Body (ρ β : Type) := Run → Program (ρ × Except Error β)

/-- What became of a transaction: the reports of the runs that took place and the result. -/
structure TransactionOutcome (ρ β : Type) where
  reports : List ρ
  result : Except Error β

namespace Client

variable {σ ρ β : Type}

def cancelIf (cancelled : Bool) (client : Client σ) : Client σ :=
  if cancelled then client.cancel else client

variable [Datastore σ]

/-- Commits the writes of a transaction. A transaction without writes does not reach the store. -/
def commitWrites (writes : List WriteOperation) : Action σ Unit := do
  active .transactionCommit
  if writes.isEmpty then return ()
  perform (Datastore.commit writes)

/-- The effective run of a body that reads nothing. -/
def transactDirectly (body : Program (ρ × Except Error β)) (client : Client σ) :
    TransactionOutcome ρ β × Client σ :=
  let ⟨(report, result), writes, cancelled⟩ := body.execute answerNothing [] false
  let client := client.cancelIf cancelled
  match result with
  | .error e => (⟨[report], .error e⟩, client)
  | .ok b =>
    let (committed, client) := (commitWrites writes).run client
    (⟨[report], committed.map fun _ => b⟩, client)

/-- What the store is told to do with the documents it fetched: the run itself, and the writes to
be committed. -/
def fetchedRun (body : Program (ρ × Except Error β)) (reads : Reads) :
    Program.Execution (ρ × Except Error β) × Except Error (List WriteOperation) :=
  let run := body.execute reads.answer [] false
  (run, run.value.2.map fun _ => run.writes)

/-- The effective run of a body that reads documents. -/
def transactWithReads (keys : List DocumentKey) (body : Program (ρ × Except Error β))
    (client : Client σ) : TransactionOutcome ρ β × Client σ :=
  let (ended, store) := Datastore.transact keys (fetchedRun body) client.store
  let client := { client with store }
  match ended with
  | .notRun e => (⟨[], .error e⟩, client)
  | .ran run result =>
    (⟨[run.value.1], result.bind fun _ => run.value.2⟩, client.cancelIf run.cancelled)

/-- Runs a transaction. An error of the first run is passed over; what counts is the second. -/
def runTransaction (body : Body ρ β) (client : Client σ) : TransactionOutcome ρ β × Client σ :=
  match client.ensureActive .transaction with
  | .error e => (⟨[], .error e⟩, client)
  | .ok () =>
    let ⟨(report, _), keys, cancelled⟩ := (body .discovery).discover [] false
    let client := client.cancelIf cancelled
    match client.ensureActive .transaction with
    | .error e => (⟨[report], .error e⟩, client)
    | .ok () =>
      let (outcome, client) :=
        if keys.isEmpty then client.transactDirectly (body .effective)
        else client.transactWithReads keys (body .effective)
      (⟨report :: outcome.reports, outcome.result⟩, client)

end Client

end DocumentStore
