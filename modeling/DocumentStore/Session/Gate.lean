import DocumentStore.Error

/-! # Gates

A gate lets registrations through, each for one permit. A registration that comes while there is no
permit waits in line, and a new permit calls the first in line that was not called before. The permit
is not kept for the one that was called: whoever comes to the gate first takes it. One that was
called and finds no permit goes to the end of the line, and one that takes a permit passes the call
that it had on to the next. -/

namespace DocumentStore

/-- A registration that waits at a gate. -/
structure Waiter where
  /-- The number of the mailbox that is to be registered. -/
  mailbox : Nat
  /-- Tells whether it was called since it stands in line. -/
  called : Bool

/-- The gate before the registrations of a store. -/
structure Gate where
  /-- The permits that nobody has taken, in order. One with a message makes a registration fail. -/
  permits : List (Option String)
  /-- The registrations that wait, in order. -/
  line : List Waiter
  /-- The number of registrations that were ended. -/
  unlistened : Nat

namespace Gate

def closed : Gate := ⟨[], [], 0⟩

/-- Calls the first in a line that was not called before. -/
def callNext : List Waiter → List Waiter
  | [] => []
  | waiter :: rest =>
    if waiter.called then waiter :: callNext rest else { waiter with called := true } :: rest

def release (failure : Option String) (gate : Gate) : Gate :=
  { gate with permits := gate.permits ++ [failure], line := callNext gate.line }

def isShut (gate : Gate) : Bool := gate.permits.isEmpty

/-- Tells whether the registration of a mailbox waits in line without having been called. -/
def holds (mailbox : Nat) (gate : Gate) : Bool :=
  gate.line.any fun waiter => waiter.mailbox == mailbox && !waiter.called

/-- Tells whether the registration of a mailbox stands in line and was called. -/
def hasCalled (mailbox : Nat) (gate : Gate) : Bool :=
  gate.line.any fun waiter => waiter.mailbox == mailbox && waiter.called

def lineWithout (mailbox : Nat) (gate : Gate) : List Waiter :=
  gate.line.filter fun waiter => waiter.mailbox != mailbox

/-- The gate after the registration of a mailbox came and found no permit. -/
def wait (mailbox : Nat) (gate : Gate) : Gate :=
  { gate with line := gate.lineWithout mailbox ++ [⟨mailbox, false⟩] }

/-- What the first permit says to the registration that takes it. -/
def verdict (gate : Gate) : Except Error Unit :=
  match gate.permits with
  | some message :: _ => .error (.reported .internal message none)
  | _ => .ok ()

/-- The gate after the registration of a mailbox took the first permit. -/
def pass (mailbox : Nat) (gate : Gate) : Gate :=
  let others := gate.lineWithout mailbox
  { gate with
    permits := gate.permits.tail
    line := if gate.hasCalled mailbox then callNext others else others }

end Gate

end DocumentStore
