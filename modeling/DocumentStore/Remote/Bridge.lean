import DocumentStore.Error
import DocumentStore.Text.Decimal

/-! # The bridge to a remote store

A bridge answers calls of named methods with JSON or a failure. Here its answers are laid down
beforehand, one queue per method, and an empty queue answers with an empty object. Every call is
recorded. Where several calls may be under way at a time, their answers come in in any order. Each
registration of a listener gets a name from the bridge. -/

namespace DocumentStore

/-- An answer of the bridge. -/
inductive Reply where
  | ok (response : Json)
  | fail (failure : BridgeFailure)

/-- A call of the bridge: the method and the request. -/
structure Call where
  method : String
  request : Json

/-- The name of a registration with a bridge that counts its registrations. -/
def handleName (n : Nat) : String := "h" ++ Text.writeInteger n

/-- A bridge whose answers are laid down. -/
structure Bridge where
  /-- The answers to come, by the names of the methods. -/
  replies : Entries (List Reply)
  /-- The calls so far, in order. -/
  calls : List Call
  /-- Which of the answers under way comes in next, time after time, by its place among them. Where
  there is none at a place, none comes in before the next call. With no places left, answers come in as
  soon as their calls are made. -/
  arrivals : List Nat
  /-- The names that the bridge gives to its registrations, which are counted from one. -/
  names : Nat → String := handleName

namespace Bridge

def silent : Bridge := { replies := [], calls := [], arrivals := [] }

def queue (method : String) (bridge : Bridge) : List Reply :=
  (Entries.find? method bridge.replies).getD []

/-- Adds an answer to the queue of a method. -/
def respond (method : String) (reply : Reply) (bridge : Bridge) : Bridge :=
  { bridge with
    replies := Entries.insert method (bridge.queue method ++ [reply]) bridge.replies }

def Reply.result : Option Reply → Except BridgeFailure Json
  | none => .ok (.object [])
  | some (.ok response) => .ok response
  | some (.fail failure) => .error failure

def call (method : String) (request : Json) (bridge : Bridge) :
    Except BridgeFailure Json × Bridge :=
  (Reply.result (bridge.queue method).head?,
    { bridge with
      replies := Entries.insert method (bridge.queue method).tail bridge.replies
      calls := bridge.calls ++ [⟨method, request⟩] })

end Bridge

end DocumentStore
