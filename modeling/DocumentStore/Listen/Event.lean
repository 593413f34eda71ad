import DocumentStore.Channel
import DocumentStore.Error

/-! # Listening

A listener watches one document or the result of one query. Stores push events into the listener's
mailbox; an error is the last event of a registration. -/

namespace DocumentStore

/-- What a listener watches. -/
inductive ListenTarget where
  | document (key : DocumentKey)
  | query (q : Query)

def ListenTarget.describe : ListenTarget → String
  | .document key => "document " ++ key.text
  | .query q => "query on " ++ q.collection.text

/-- Tells whether a target may change when the document at a key is written. -/
def ListenTarget.concerns (key : DocumentKey) : ListenTarget → Bool
  | .document watched => watched == key
  | .query q => key.collection == q.collection

/-- A notification. -/
inductive ListenEvent where
  | document (snapshot : Snapshot)
  | query (result : QueryResult)
  | error (e : Error)

/-- Tells the events after which a registration is over. -/
def ListenEvent.isTerminal : ListenEvent → Bool
  | .error _ => true
  | _ => false

/-- The number under which a store knows a registration. Stores count their registrations in 64 bits, so
that a token is the number given out as long as there are fewer than `2 ^ 64` of them. -/
abbrev Token := Nat

/-- The channel into which a store pushes the events of one registration. -/
abbrev Mailbox := Channel ListenEvent

abbrev Mailboxes := List Mailbox

namespace Mailboxes

/-- The mailbox with a number; one that was never set up is closed. -/
def box (id : Nat) (boxes : Mailboxes) : Mailbox := boxes.getD id ⟨none, false, []⟩

/-- Adds a mailbox; its number is the number of mailboxes before. -/
def add (box : Mailbox) (boxes : Mailboxes) : Mailboxes := boxes ++ [box]

def change (id : Nat) (f : Mailbox → Mailbox) (boxes : Mailboxes) : Mailboxes :=
  boxes.set id (f (box id boxes))

/-- Offers an event to the mailbox with a number. -/
def post (id : Nat) (event : ListenEvent) (boxes : Mailboxes) : Delivery × Mailboxes :=
  let (delivery, box) := (box id boxes).offer event
  (delivery, boxes.set id box)

end Mailboxes

end DocumentStore
