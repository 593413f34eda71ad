import DocumentStore.Json.Shape
import DocumentStore.Listen.Event
import DocumentStore.Wire.Query
import DocumentStore.Wire.Snapshot

/-! # Listening to a remote store

A registration is asked for with the target. Each event of the answer carries an error, or a snapshot
of a document, or the documents that a query found. An event that cannot be read counts as an error. -/

namespace DocumentStore

/-- What can be wrong with a failure that a remote store reports in an event. -/
inductive FailureFault where
  /-- Neither a record nor a list. -/
  | notRecord (found : Json)
  /-- A part that is no text. -/
  | notText (found : Json)
  | missing (name : String)
  | tooShort (n : Nat)
  | tooLong (n : Nat)

def FailureFault.message : FailureFault → String
  | .notRecord found => s!"invalid type: {found.describe}, expected struct BridgeError"
  | .notText found => s!"invalid type: {found.describe}, expected a string"
  | .missing name => s!"missing field `{name}`"
  | .tooShort n => s!"invalid length {n}, expected struct BridgeError with 2 elements"
  | .tooLong n => s!"invalid length {n}, expected fewer elements in array"

namespace Wire

/-- A part of a failure, which has to be a text. -/
def failurePart : Json → Except FailureFault String
  | .string s => .ok s
  | found => .error (.notText found)

/-- A failure given by its two parts in order. -/
def failureOfList (n : Nat) : List Json → Except FailureFault BridgeFailure
  | [] => .error (.tooShort n)
  | [code] => (failurePart code).bind fun _ => .error (.tooShort n)
  | code :: message :: rest => do
    let code ← failurePart code
    let message ← failurePart message
    if rest.isEmpty then return ⟨code, message⟩ else .error (.tooLong n)

/-- A failure given by its two parts under their names. A part of the wrong kind is reported before
one that is missing. -/
def failureOfMembers (members : List (String × Json)) : Except FailureFault BridgeFailure := do
  let code ← (Entries.find? "code" members).mapM failurePart
  let message ← (Entries.find? "message" members).mapM failurePart
  match code, message with
  | some code, some message => return ⟨code, message⟩
  | none, _ => .error (.missing "code")
  | _, none => .error (.missing "message")

def decodeFailure : Json → Except FailureFault BridgeFailure
  | .object members => failureOfMembers members
  | .array items => failureOfList items.length items
  | found => .error (.notRecord found)

/-- The failure in an event; one that cannot be read has a code of its own. -/
def failureOf (j : Json) : BridgeFailure :=
  match decodeFailure j with
  | .ok failure => failure
  | .error fault => ⟨"unknown", "Unreadable listen error: " ++ fault.message⟩

/-- The result of a query in a response. The answer to a query that counts from the end comes in the
opposite order. -/
def decodeQueryResult (query : Query) (response : Json) : Except DecodeFault (List Snapshot) :=
  (decodeDocuments response).map fun found =>
    if query.plan.keepsLast then found.reverse else found

/-- What an event without an error says about a target. -/
def decodeTarget (target : ListenTarget) (event : Json) : Except DecodeFault ListenEvent :=
  match target with
  | .document _ =>
    match event.member? "snapshot" with
    | some record => (decodeSnapshot record).map .document
    | none => .error .noSnapshot
  | .query query => (decodeQueryResult query event).map fun found => .query ⟨query, found⟩

/-- The event that a JSON value describes for a target. -/
def decodeListenEvent (target : ListenTarget) (event : Json) : ListenEvent :=
  match event.member? "error" with
  | some e => .error (failureOf e).toError
  | none =>
    match decodeTarget target event with
    | .ok decoded => decoded
    | .error fault => .error (.decode fault)

def encodeListenRequest : ListenTarget → Except RequestFault Json
  | .document key => .ok (.object [("target", .object [("document", .string key.text)])])
  | .query query => do
    let request ← encodeQueryRequest query
    return .object [("target", .object [("query", request)])]

end Wire

end DocumentStore
