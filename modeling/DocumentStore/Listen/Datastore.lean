import DocumentStore.Listen.Event
import DocumentStore.Write.Operation

/-! # The contract of a store

A store answers reads, takes writes one by one or all together, runs transactions and keeps
registrations of listeners. Every operation is a function of the store's state, also one that fails. -/

namespace DocumentStore

abbrev Reads := List (DocumentKey × Snapshot)

def Reads.find? (key : DocumentKey) (reads : Reads) : Option Snapshot :=
  (List.find? (fun read => read.1 == key) reads).map Prod.snd

/-- What became of a transaction. -/
inductive TransactionEnd (ρ : Type) where
  /-- The documents were not fetched, so the body did not run. -/
  | notRun (e : Error)
  /-- The body ran, and its writes were committed or not. -/
  | ran (report : ρ) (result : Except Error Unit)

/-- The operations of a store with states in `σ`. -/
class Datastore (σ : Type) where
  /-- Reads a document. -/
  get : DocumentKey → σ → Except Error Snapshot × σ
  /-- Runs a query. -/
  query : Query → σ → Except Error (List Snapshot) × σ
  /-- Applies one write. -/
  write : WriteOperation → σ → Except Error Unit × σ
  /-- Applies every write or none of them. -/
  commit : List WriteOperation → σ → Except Error Unit × σ
  /-- Fetches documents, hands them to a body and applies every write of the body or none. -/
  transact : {ρ : Type} → List DocumentKey →
    (Reads → ρ × Except Error (List WriteOperation)) → σ → TransactionEnd ρ × σ
  /-- Registers a mailbox for the events of a target. -/
  listen : ListenTarget → Nat → σ → Except Error Token × σ
  /-- Ends a registration. -/
  unlisten : Token → σ → Except Error Unit × σ

end DocumentStore
