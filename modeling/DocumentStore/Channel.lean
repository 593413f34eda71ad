/-! # Channels

A channel is a queue between senders and one receiver. It may have room for a limited number of
items. A closed channel takes no more items, and those it holds can still be taken out. -/

namespace DocumentStore

/-- A queue with an optional capacity. -/
structure Channel (α : Type) where
  capacity : Option Nat
  isOpen : Bool
  items : List α

/-- What became of an item that was offered to a channel. -/
inductive Delivery where
  | sent
  | full
  | closed
deriving DecidableEq, Repr

namespace Channel

variable {α : Type}

/-- An open channel with room for any number of items. -/
def unbounded : Channel α := ⟨none, true, []⟩

def bounded (capacity : Nat) : Channel α := ⟨some capacity, true, []⟩

/-- Tells whether a channel holds as many items as it has room for. -/
def isFull (c : Channel α) : Bool :=
  match c.capacity with
  | none => false
  | some n => n ≤ c.items.length

/-- Puts an item at the end of a channel unless it is closed or full. -/
def offer (a : α) (c : Channel α) : Delivery × Channel α :=
  if !c.isOpen then (.closed, c)
  else if c.isFull then (.full, c)
  else (.sent, { c with items := c.items ++ [a] })

def close (c : Channel α) : Channel α := { c with isOpen := false }

def take? (c : Channel α) : Option (α × Channel α) :=
  match c.items with
  | [] => none
  | a :: rest => some (a, { c with items := rest })

theorem offer_unbounded_open {c : Channel α} (isOpen : c.isOpen = true) (unlimited : c.capacity = none)
    (a : α) : c.offer a = (.sent, { c with items := c.items ++ [a] }) := by
  simp [offer, isOpen, isFull, unlimited]

end Channel

end DocumentStore
