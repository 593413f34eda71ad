import DocumentStore.Client.AutoId
import DocumentStore.Listen.Datastore
import DocumentStore.Query.Builder
import DocumentStore.Write.Request

/-! # Clients

A client hands operations to a store. Every operation first asks whether the client was cancelled,
then looks at what the caller gave, and only then calls the store. -/

namespace DocumentStore

/-- A client of a store with states in `σ`. -/
structure Client (σ : Type) where
  store : σ
  /-- Set once and for all when the caller cancels; operations are refused from then on. -/
  cancelled : Bool
  /-- The number of the next identifier that the client makes. -/
  nextId : Nat

/-- An operation of a client, which may fail and may change the client's state. -/
abbrev Action (σ α : Type) := ExceptT Error (StateM (Client σ)) α

namespace Client

variable {σ : Type}

/-- A client that was not cancelled and has made no identifiers. -/
def new (store : σ) : Client σ := { store, cancelled := false, nextId := 0 }

def ensureActive (operation : ClientOperation) (client : Client σ) : Except Error Unit :=
  if client.cancelled then .error (.cancelled operation) else .ok ()

def active (operation : ClientOperation) : Action σ Unit := do
  (← get).ensureActive operation

def perform {α : Type} (operation : σ → Except Error α × σ) : Action σ α :=
  ExceptT.mk fun client =>
    let (result, store) := operation client.store
    (result, { client with store })

def cancel (client : Client σ) : Client σ := { client with cancelled := true }

def makeId : Action σ String := do
  let client ← get
  set { client with nextId := client.nextId + 1 }
  return AutoId.ofNumber client.nextId

variable [Datastore σ]

def getDoc (path : String) : Action σ Snapshot := do
  active .get
  let key ← documentKey path
  perform (Datastore.get key)

def write (request : WriteRequest) : Action σ Unit := do
  active request.operation
  let write ← request.check
  perform (Datastore.write write)

def setDoc (path : String) (data : Fields) (merge : Bool) : Action σ Unit :=
  write (.set path data merge)

def updateDoc (path : String) (data : Fields) : Action σ Unit := write (.update path data)

def deleteDoc (path : String) : Action σ Unit := write (.delete path)

/-- Adds a document with a new identifier to the collection at a path, and reads it back. -/
def addDoc (collection : String) (data : Fields) : Action σ Snapshot := do
  let query ← Query.ofCollection collection
  let id ← makeId
  let path := (query.collection.append [id]).text
  setDoc path data false
  getDoc path

def getDocs (query : Query) : Action σ QueryResult := do
  active .query
  let documents ← perform (Datastore.query query)
  return ⟨query, documents⟩

/-- Writes documents one after another, up to the first refusal. -/
def setDocs : List (String × Fields) → Action σ Unit
  | [] => return ()
  | (path, data) :: rest => do
    setDoc path data false
    setDocs rest

def getDocsAmong (documents : List (String × Fields)) (query : Query) : Action σ QueryResult := do
  setDocs documents
  getDocs query

def fieldsOfJson (json : Json) : Except Error Fields := (Fields.ofJson json).mapError .value

/-- Reads the document at a path as plain JSON. -/
def getJson (path : String) : Action σ (Option Json) := do
  let snapshot ← getDoc path
  snapshot.toJson.mapError Error.value

/-- Writes a JSON object as the document at a path. -/
def setJson (path : String) (json : Json) (merge : Bool) : Action σ Unit := do
  let data ← fieldsOfJson json
  setDoc path data merge

/-- Adds a JSON object as a document with a new identifier. -/
def addJson (collection : String) (json : Json) : Action σ Snapshot := do
  let data ← fieldsOfJson json
  addDoc collection data

/-- Runs a query and gives the documents that exist as plain JSON. -/
def getDocsJson (query : Query) : Action σ (List Json) := do
  let found ← getDocs query
  (found.documents.filterMap Snapshot.fields?).mapM fun fields =>
    (Fields.toJson fields).mapError Error.value

/-- The target of a listener on the document at a path. -/
def documentTarget (path : String) : Action σ ListenTarget := do
  active .listen
  let key ← documentKey path
  return .document key

def queryTarget (query : Query) : Action σ ListenTarget := do
  active .listen
  query.plan.validate.mapError Error.plan
  return .query query

end Client

end DocumentStore
