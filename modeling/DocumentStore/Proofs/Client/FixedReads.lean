import DocumentStore.Proofs.Client.WritePaths

/-! # Transactions with fixed reads

The documents that a transaction reads are found out by a run in which all of them appear to be missing,
and which may well fail because of that. A body that begins with its reads, and reads the same whatever
it is shown, has issued all of them by then: in the run that counts each of them is answered. -/

namespace DocumentStore

namespace Program

variable {α : Type} {program : Program α} {path : String} {paths : List String} {key : DocumentKey}
  {keys : List DocumentKey} {answer ideal : List WriteOperation → String → Except Error Snapshot}
  {writes : List WriteOperation} {cancelled : Bool}

/-- A program that reads nothing. -/
def ReadsNothing : Program α → Prop
  | .done _ => True
  | .get _ _ => False
  | .write _ next => ∀ answer, ReadsNothing (next answer)
  | .cancel next => ReadsNothing next

/-- A program that reads the documents at certain paths, in this order and whatever they are, before it
asks for a write, and that reads nothing after that. It may give up at a read that fails. -/
inductive ReadsFirst : List String → Program α → Prop
  | rest {program : Program α} (silent : program.ReadsNothing) : ReadsFirst [] program
  | get {path : String} {paths : List String} {next : Except Error Snapshot → Program α}
    (goesOn : ∀ s, ReadsFirst paths (next (.ok s))) : ReadsFirst (path :: paths) (.get path next)
  | cancel {paths : List String} {next : Program α} (goesOn : ReadsFirst paths next) :
    ReadsFirst paths (.cancel next)

private theorem subset_note (key : DocumentKey) (keys : List DocumentKey) : keys ⊆ note key keys := by
  rw [note]
  split
  · exact List.Subset.refl keys
  · exact List.subset_append_left keys [key]

private theorem mem_note (key : DocumentKey) (keys : List DocumentKey) : key ∈ note key keys := by
  rw [note]
  split
  · assumption
  · exact List.mem_append_right keys List.mem_cons_self

theorem subset_discover (program : Program α) (keys : List DocumentKey) (cancelled : Bool) :
    keys ⊆ (program.discover keys cancelled).keys := by
  induction program generalizing keys cancelled with
  | done _ => exact List.Subset.refl keys
  | get path next ih =>
    rw [discover]
    split
    · exact List.Subset.trans (subset_note _ keys) (ih _ _ cancelled)
    · exact ih _ keys cancelled
  | write request next ih => exact ih _ keys cancelled
  | cancel next ih => exact ih keys true

/-- Every document that is read first is found by the first run, whatever comes after the reads. -/
theorem ReadsFirst.mem_discover (first : program.ReadsFirst paths)
    (valid : ∀ path ∈ paths, ∃ key, documentKey path = .ok key) (mem : path ∈ paths)
    (readable : documentKey path = .ok key) : key ∈ (program.discover keys cancelled).keys := by
  induction first generalizing keys cancelled with
  | rest _ => cases mem
  | cancel _ ih => exact ih valid mem
  | @get head paths next _ ih =>
    obtain ⟨⟨headKey, headReadable⟩, valid⟩ := List.forall_mem_cons.mp valid
    rw [discover, headReadable]
    rcases List.mem_cons.mp mem with rfl | mem
    · obtain rfl : headKey = key := Except.ok.inj (headReadable.symm.trans readable)
      exact subset_discover _ _ _ (mem_note headKey keys)
    · exact ih _ valid mem

/-- The reads of a run that counts, with the answers that they are given. -/
def reads (answer : List WriteOperation → String → Except Error Snapshot) :
    Program α → List WriteOperation → List (String × Except Error Snapshot)
  | .done _, _ => []
  | .get path next, writes =>
    (path, answer writes path) :: reads answer (next (answer writes path)) writes
  | .write request next, writes =>
    match request.check with
    | .ok operation => reads answer (next (.ok ())) (writes ++ [operation])
    | .error e => reads answer (next (.error e)) writes
  | .cancel next, writes => reads answer next writes

/-- A run depends on the answers that its reads are given and on nothing else. -/
theorem execute_eq_of_reads_eq (same : program.reads answer writes = program.reads ideal writes) :
    program.execute answer writes cancelled = program.execute ideal writes cancelled := by
  induction program generalizing writes cancelled with
  | done _ => rfl
  | get path next ih =>
    obtain ⟨head, tail⟩ := List.cons.inj same
    have given : answer writes path = ideal writes path := (Prod.mk.inj head).2
    rw [execute, execute, given]
    rw [given] at tail
    exact ih _ tail
  | write request next ih =>
    cases checked : request.check with
    | ok operation =>
      simp only [reads, execute, checked] at same ⊢
      exact ih _ same
    | error e =>
      simp only [reads, execute, checked] at same ⊢
      exact ih _ same
  | cancel next ih => exact ih same

private theorem ReadsNothing.reads_eq (silent : program.ReadsNothing) :
    program.reads answer writes = [] := by
  induction program generalizing writes with
  | done _ => rfl
  | get _ _ => exact silent.elim
  | write request next ih =>
    rw [reads]
    split
    · exact ih _ (silent _)
    · exact ih _ (silent _)
  | cancel next ih => exact ih silent

theorem ReadsFirst.reads_eq (first : program.ReadsFirst paths)
    (given : ∀ path ∈ paths, ∃ s, answer writes path = .ok s) :
    program.reads answer writes = paths.map fun path => (path, answer writes path) := by
  induction first with
  | rest silent => exact silent.reads_eq
  | cancel _ ih => exact ih given
  | get _ ih =>
    obtain ⟨⟨s, head⟩, given⟩ := List.forall_mem_cons.mp given
    rw [reads, List.map_cons, head, ih s given]

end Program

private theorem Store.find?_read_of_mem (store : Store) {keys : List DocumentKey} {key : DocumentKey}
    (mem : key ∈ keys) : (store.read keys).find? key = some (store.documents.snapshot key) := by
  cases found : (store.read keys).find? key with
  | some s => rw [find?_read found]
  | none =>
    have absent := Option.map_eq_none_iff.mp found
    have other := List.find?_eq_none.mp absent _ (List.mem_map_of_mem mem)
    simp at other

theorem Documents.answer_eq {documents : Documents} {writes : List WriteOperation} {path : String}
    {key : DocumentKey} (readable : documentKey path = .ok key) :
    documents.answer writes path = .ok ⟨key, Entries.find? key.text documents⟩ := by
  rw [answer, readable]
  rfl

namespace Client

variable {ρ β : Type} {client : Client Store} {body : Body ρ β} {paths : List String}

/-- A transaction ends as a run that counts has it: an error of the run is the result and the store
stays as it was, and otherwise the writes of the run are committed, which may be too late if the run has
cancelled the client. -/
structure Concludes (store : Store) (earlier : List ρ) (run : Program.Execution (ρ × Except Error β))
    (ended : TransactionOutcome ρ β × Client Store) : Prop where
  reports : ended.1.reports = earlier ++ [run.value.1]
  failed : ∀ e, run.value.2 = .error e → ended.1.result = .error e ∧ ended.2.store = store
  succeeded : ∀ b, run.value.2 = .ok b →
    EndsAs store run.writes b ended ∨
      run.cancelled = true ∧ ended.1.result = .error (.cancelled .transactionCommit) ∧
        ended.2.store = store

private theorem Concludes.after {store : Store} {earlier : List ρ}
    {run : Program.Execution (ρ × Except Error β)}
    {ended : TransactionOutcome ρ β × Client Store} (concludes : Concludes store earlier run ended)
    (report : ρ) :
    Concludes store (report :: earlier) run (⟨report :: ended.1.reports, ended.1.result⟩, ended.2) where
  reports := congrArg (report :: ·) concludes.reports
  failed := concludes.failed
  succeeded b result :=
    (concludes.succeeded b result).imp_left fun endsAs => ⟨endsAs.result, endsAs.same⟩

private theorem transactDirectly_concludes (program : Program (ρ × Except Error β))
    (active : client.cancelled = false) :
    Concludes client.store [] (program.execute answerNothing [] false)
      (client.transactDirectly program) := by
  rw [transactDirectly]
  generalize program.execute answerNothing [] false = run
  obtain ⟨⟨report, result⟩, writes, cancelled⟩ := run
  have kept := cancelIf_store cancelled client
  cases result with
  | error e =>
    refine ⟨rfl, fun e' same => ?_, fun b same => ?_⟩
    · cases same
      exact ⟨rfl, kept⟩
    · cases same
  | ok b =>
    refine ⟨rfl, fun e same => ?_, fun b' same => ?_⟩
    · cases same
    · cases same
      cases cancelled with
      | false =>
        obtain ⟨result, same⟩ := commitWrites_same writes active
        exact .inl ⟨congrArg (Except.map fun _ => b) result, same⟩
      | true =>
        have refused : (commitWrites writes).run client.cancel
            = (.error (.cancelled .transactionCommit), client.cancel) :=
          commitWrites_of_cancelled writes rfl
        simp only [cancelIf, if_true, refused]
        exact .inr ⟨trivial, rfl, rfl⟩

private theorem transactWithReads_concludes (keys : List DocumentKey)
    (program : Program (ρ × Except Error β)) (client : Client Store) :
    Concludes client.store [] (program.execute (client.store.read keys).answer [] false)
      (client.transactWithReads keys program) := by
  simp only [transactWithReads, Datastore.transact, Store.transact, fetchedRun]
  generalize program.execute (client.store.read keys).answer [] false = run
  obtain ⟨⟨report, result⟩, writes, cancelled⟩ := run
  cases result with
  | error e =>
    refine ⟨rfl, fun e' same => ?_, fun b same => ?_⟩
    · cases same
      exact ⟨rfl, cancelIf_store cancelled client⟩
    · cases same
  | ok b =>
    refine ⟨rfl, fun e same => ?_, fun b' same => .inl ⟨?_, ?_⟩⟩
    · cases same
    · cases same
      simp only [Except.map]
      cases (client.store.commit writes).1 <;> rfl
    · simp only [Except.map, cancelIf_store]
      exact Store.Same.refl _

theorem runTransaction_concludes (body : Body ρ β) (active : client.cancelled = false)
    (goesOn : ((body .discovery).discover [] false).cancelled = false) :
    Concludes client.store [((body .discovery).discover [] false).value.1]
      ((body .effective).execute (client.answers body) [] false) (client.runTransaction body) := by
  rw [answers]
  cases found : (body .discovery).discover [] false with
  | mk value keys cancelled =>
    obtain ⟨report, first⟩ := value
    rw [found] at goesOn
    obtain rfl : cancelled = false := goesOn
    rw [runTransaction_eq active found]
    dsimp only
    split
    · exact (transactDirectly_concludes (body .effective) active).after report
    · exact (transactWithReads_concludes keys (body .effective) client).after report

theorem runTransaction_of_discover (body : Body ρ β)
    (cancelled : client.cancelled = true ∨ ((body .discovery).discover [] false).cancelled = true) :
    (client.runTransaction body).1.result = .error (.cancelled .transaction) ∧
      (client.runTransaction body).2.store = client.store := by
  cases before : client.cancelled with
  | true =>
    rw [runTransaction_of_cancelled body before]
    exact ⟨rfl, rfl⟩
  | false =>
    have during := cancelled.resolve_left (by simp [before])
    simp only [runTransaction, ensureActive, before, during, cancelIf, cancel, Bool.false_eq_true,
      if_false, if_true]
    exact ⟨trivial, trivial⟩

section Fixed

variable (fixed : ∀ run, (body run).ReadsFirst paths)
  (valid : ∀ path ∈ paths, ∃ key, documentKey path = .ok key)

include fixed valid

theorem answers_eq {path : String} (mem : path ∈ paths) :
    client.answers body [] path = client.store.documents.answer [] path := by
  obtain ⟨key, readable⟩ := valid path mem
  have found : key ∈ ((body .discovery).discover [] false).keys :=
    (fixed .discovery).mem_discover valid mem readable
  have nonempty : ((body .discovery).discover [] false).keys.isEmpty = false :=
    List.isEmpty_eq_false_iff.mpr (List.ne_nil_of_mem found)
  rw [answers, Documents.answer_eq readable]
  simp only [nonempty, Bool.false_eq_true, if_false]
  rw [Reads.answer, readable]
  simp [bind, Except.bind, client.store.find?_read_of_mem found, Documents.snapshot]

/-- The reads of a body that begins with its reads, and reads the same whatever it is shown, are answered
in the run that counts with the documents stored when the transaction began, however the first run
ended. The transaction ends as this run has it, unless the client was cancelled before it. -/
theorem fixed_reads_answered (client : Client Store) :
    let found := (body .discovery).discover [] false
    let run := (body .effective).execute (client.answers body) [] false
    let ended := client.runTransaction body
    List.Forall₂ (fun path read => ∃ key, documentKey path = .ok key ∧
        read = (path, .ok ⟨key, Entries.find? key.text client.store.documents⟩))
      paths ((body .effective).reads (client.answers body) []) ∧
    run = (body .effective).execute client.store.documents.answer [] false ∧
    (client.cancelled = false → found.cancelled = false →
      Concludes client.store [found.value.1] run ended) ∧
    (client.cancelled = true ∨ found.cancelled = true →
      ended.1.result = .error (.cancelled .transaction) ∧ ended.2.store = client.store) := by
  intro found run ended
  have stored (path : String) (mem : path ∈ paths) : ∃ key, documentKey path = .ok key ∧
      client.store.documents.answer [] path
        = .ok ⟨key, Entries.find? key.text client.store.documents⟩ :=
    (valid path mem).imp fun key readable => ⟨readable, Documents.answer_eq readable⟩
  -- Any way to answer that agrees with the stored documents on these paths leads to the same reads.
  have reads (answer : List WriteOperation → String → Except Error Snapshot)
      (right : ∀ path ∈ paths, answer [] path = client.store.documents.answer [] path) :
      (body .effective).reads answer []
        = paths.map fun path => (path, client.store.documents.answer [] path) := by
    rw [(fixed .effective).reads_eq fun path mem => ?_]
    · exact List.map_congr_left fun path mem => by rw [right path mem]
    · obtain ⟨key, -, answered⟩ := stored path mem
      exact ⟨_, (right path mem).trans answered⟩
  have answered := reads (client.answers body) fun path => answers_eq fixed valid
  refine ⟨?_, ?_, runTransaction_concludes body, runTransaction_of_discover body⟩
  · rw [answered, List.forall₂_map_right_iff, List.forall₂_same]
    intro path mem
    obtain ⟨key, readable, holds⟩ := stored path mem
    exact ⟨key, readable, by rw [holds]⟩
  · exact Program.execute_eq_of_reads_eq (answered.trans (reads _ fun _ _ => rfl).symm)

end Fixed

/-- Two ways to spell the path of one document. -/
def spellings : List String := ["accounts/first", "/accounts/first/"]

/-- Reads a document twice and copies it, or fails if it is missing. -/
def copyReadTwice : Program (List Snapshot × Except Error Unit) :=
  .get "accounts/first" fun
    | .error e => .done ([], .error e)
    | .ok s => .get "/accounts/first/" fun
      | .error e => .done ([s], .error e)
      | .ok t =>
        match t.fields? with
        | none => .done ([s, t], .error (.noDocument "accounts/first"))
        | some fields => .write (.set "accounts/second" fields false) fun answer =>
          .done ([s, t], answer)

private theorem copyReadTwice_readsFirst : copyReadTwice.ReadsFirst spellings := by
  refine .get fun s => .get fun t => .rest ?_
  obtain ⟨key, fields?⟩ := t
  cases fields? with
  | none => trivial
  | some fields => exact fun _ => trivial

/-- The first run of the copy fails, and the second is shown the account. -/
theorem fixed_reads_answered_bank :
    let body : Body (List Snapshot) Unit := fun _ => copyReadTwice
    let found := copyReadTwice.discover [] false
    let run := copyReadTwice.execute (answers body bank) [] false
    let account : Snapshot := ⟨firstAccount, some [("balance", .integer 5)]⟩
    copyReadTwice.ReadsFirst spellings ∧
      (∀ path ∈ spellings, ∃ key, documentKey path = .ok key) ∧
      bank.cancelled = false ∧ found.cancelled = false ∧
      found.value.2 = .error (.noDocument "accounts/first") ∧ run.value = ([account, account], .ok ()) ∧
      List.Forall₂ (fun path read => ∃ key, documentKey path = .ok key ∧
          read = (path, .ok ⟨key, Entries.find? key.text bank.store.documents⟩))
        spellings (copyReadTwice.reads (answers body bank) []) ∧
      copyReadTwice.reads (answers body bank) []
        = [("accounts/first", .ok account), ("/accounts/first/", .ok account)] ∧
      Concludes bank.store [found.value.1] run (bank.runTransaction body) ∧
      (bank.runTransaction body).2.store.documents
        = [("accounts/first", [("balance", .integer 5)]), ("accounts/second", [("balance", .integer 5)])] := by
  intro body found run account
  have fixed (run : Run) : (body run).ReadsFirst spellings := copyReadTwice_readsFirst
  have valid : ∀ path ∈ spellings, ∃ key, documentKey path = .ok key := by
    simp only [spellings, List.forall_mem_cons]
    exact ⟨⟨firstAccount, by cbv⟩, ⟨firstAccount, by cbv⟩, List.forall_mem_nil _⟩
  have goesOn : found.cancelled = false := by rfl
  have failed : found.value.2 = .error (.noDocument "accounts/first") := by rfl
  have copied : run.value = ([account, account], .ok ()) := by rfl
  have shown : copyReadTwice.reads (answers body bank) []
      = [("accounts/first", .ok account), ("/accounts/first/", .ok account)] := by rfl
  have stored : (bank.runTransaction body).2.store.documents
      = [("accounts/first", [("balance", .integer 5)]), ("accounts/second", [("balance", .integer 5)])] := by
    rfl
  obtain ⟨answered, -, concludes, -⟩ := fixed_reads_answered fixed valid bank
  exact ⟨copyReadTwice_readsFirst, valid, rfl, goesOn, failed, copied, answered, shown,
    concludes rfl goesOn, stored⟩

end Client

end DocumentStore
