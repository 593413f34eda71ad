import DocumentStore.Client.Basic

/-! # Batches

A batch collects writes that are committed together. It has room for a fixed number of them, which
is asked for before a request is looked at. -/

namespace DocumentStore

/-- A list of writes within the capacity of a batch. -/
structure Batch where
  writes : List WriteOperation
  within : writes.length ≤ Error.batchCapacity

namespace Batch

def empty : Batch := ⟨[], Nat.zero_le _⟩

def length (batch : Batch) : Nat := batch.writes.length

def isEmpty (batch : Batch) : Bool := batch.writes.isEmpty

def add (request : WriteRequest) (batch : Batch) : Except Error Batch :=
  if h : batch.length < Error.batchCapacity then
    request.check.map fun write =>
      ⟨batch.writes ++ [write], by rw [List.length_append]; exact h⟩
  else .error .batchFull

/-- The batch with one more set, whose data is a JSON object. The object is looked at first. -/
def addJson (path : String) (json : Json) (merge : Bool) (batch : Batch) : Except Error Batch := do
  let data ← Client.fieldsOfJson json
  batch.add (.set path data merge)

end Batch

namespace Client

variable {σ : Type} [Datastore σ]

/-- Commits a batch. A batch without writes does not reach the store. -/
def commit (batch : Batch) : Action σ Unit := do
  active .batchCommit
  if batch.isEmpty then return ()
  perform (Datastore.commit batch.writes)

end Client

end DocumentStore
