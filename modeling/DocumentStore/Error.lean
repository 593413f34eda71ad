import DocumentStore.Snapshot
import DocumentStore.Wire.Query
import DocumentStore.Write.Payload

/-! # Errors of the client

Every failure of an operation is one cause, and a cause has a code and a wording. Failures reported by
a remote store are classed by their code, which they keep beside their own. -/

namespace DocumentStore

/-- The class of an error. -/
inductive ErrorCode where
  /-- The caller broke a rule: a bad path, a handle used twice. -/
  | invalidArgument
  /-- The query cannot be expressed for the store. -/
  | invalidPlan
  | notFound
  | permissionDenied
  | cancelled
  | unavailable
  | internal
  /-- The store failed in a way of its own. -/
  | unknown
deriving DecidableEq, Repr

def ErrorCode.text : ErrorCode → String
  | .invalidArgument => "firestore/invalid-argument"
  | .invalidPlan => "firestore/invalid-plan"
  | .notFound => "firestore/not-found"
  | .permissionDenied => "firestore/permission-denied"
  | .cancelled => "firestore/cancelled"
  | .unavailable => "firestore/unavailable"
  | .internal => "firestore/internal"
  | .unknown => "firestore/unknown"

/-- The operations that a client refuses after cancellation. -/
inductive ClientOperation where
  | get | set | update | delete | query | listen | batchCommit | transaction | transactionCommit
deriving DecidableEq, Repr

def ClientOperation.name : ClientOperation → String
  | .get => "get"
  | .set => "set"
  | .update => "update"
  | .delete => "delete"
  | .query => "query"
  | .listen => "listen"
  | .batchCommit => "batch commit"
  | .transaction => "transaction"
  | .transactionCommit => "transaction commit"

/-- A failure of an operation. -/
inductive Error where
  | resource (fault : PathFault)
  | fieldPath (fault : FieldPathFault)
  | plan (fault : PlanFault)
  | value (fault : ValueFault)
  | payload (fault : PayloadFault)
  | decode (fault : DecodeFault)
  | model (fault : ModelFault)
  /-- A query is about a collection. -/
  | notCollection (path : String)
  /-- An update needs a document to change. -/
  | noDocument (path : String)
  /-- The client was cancelled before the operation. -/
  | cancelled (operation : ClientOperation)
  /-- A batch has room for a fixed number of writes. -/
  | batchFull
  /-- A read in the effective run of a transaction that the first run did without reads. -/
  | readNotIssued (path : String)
  /-- A read in the effective run of a transaction that the first run did not make. -/
  | readNotFetched (path : String)
  /-- A read after a write in a transaction. -/
  | readAfterWrite
  /-- The remote store opened a transaction without naming it. -/
  | noTransactionId
  /-- A subscription is started once. -/
  | alreadyStarted (target : String)
  /-- An error given by its parts: raised by a caller or reported by a store. -/
  | reported (code : ErrorCode) (message : String) (backend : Option String)

namespace Error

def code : Error → ErrorCode
  | .plan _ => .invalidPlan
  | .decode (.documentPath _) => .invalidArgument
  | .decode _ => .internal
  | .noDocument _ => .notFound
  | .cancelled _ => .cancelled
  | .readNotFetched _ => .notFound
  | .noTransactionId => .internal
  | .reported code _ _ => code
  | _ => .invalidArgument

def batchCapacity : Nat := 500

def message : Error → String
  | .resource fault => fault.message
  | .fieldPath fault => fault.message
  | .plan fault => fault.message
  | .value fault => fault.message
  | .payload fault => fault.message
  | .decode fault => fault.message
  | .model fault => fault.message
  | .notCollection path =>
    s!"Queries must reference a collection (odd number of path segments), got '{path}'"
  | .noDocument path => s!"No document to update: {path}"
  | .cancelled operation => s!"{operation.name} was cancelled"
  | .batchFull => s!"WriteBatch cannot contain more than {batchCapacity} operations"
  | .readNotIssued path =>
    s!"Transaction read '{path}' was not issued on the first run of the update function; " ++
      "reads must not depend on state outside the transaction"
  | .readNotFetched path =>
    s!"Document '{path}' was not read on the first run of the update function"
  | .readAfterWrite => "Transactions require all reads to be executed before all writes"
  | .noTransactionId => "transaction.begin returned no transaction id"
  | .alreadyStarted target => s!"Subscription on {target} was already started"
  | .reported _ message _ => message

/-- The code under which the remote store reported an error. -/
def backend? : Error → Option String
  | .reported _ _ backend => backend
  | _ => none

def isCancelled (e : Error) : Bool := e.code == .cancelled

def display (e : Error) : String :=
  match e.backend? with
  | some backend => e.message ++ " (" ++ e.code.text ++ ", backend code " ++ backend ++ ")"
  | none => e.message ++ " (" ++ e.code.text ++ ")"

/-- The error of a query that could not be sent. -/
def ofRequest : RequestFault → Error
  | .plan fault => .plan fault
  | .value fault => .value fault

end Error

/-- A failure as the bridge to a remote store reports it. -/
structure BridgeFailure where
  code : String
  message : String
deriving DecidableEq

namespace BridgeFailure

def display (f : BridgeFailure) : String := f.code ++ ": " ++ f.message

/-- The code without blanks, in lower case, with hyphens, and without the name of the service. -/
def plainCode (f : BridgeFailure) : String :=
  let name := (Text.strip Text.isBlank f.code.toList).map fun c =>
    if c.toLower = '_' then '-' else c.toLower
  let service := "firestore/".toList
  String.ofList (if service.isPrefixOf name then name.drop service.length else name)

def errorCode (f : BridgeFailure) : ErrorCode :=
  match f.plainCode with
  | "invalid-argument" | "failed-precondition" | "out-of-range" | "already-exists" =>
    .invalidArgument
  | "not-found" => .notFound
  | "permission-denied" | "unauthenticated" => .permissionDenied
  | "cancelled" => .cancelled
  | "unavailable" | "deadline-exceeded" | "resource-exhausted" | "aborted" => .unavailable
  | "internal" | "data-loss" => .internal
  | _ => .unknown

/-- The error that a failure becomes; it keeps the code as it was reported. -/
def toError (f : BridgeFailure) : Error := .reported f.errorCode f.message (some f.code)

end BridgeFailure

end DocumentStore
