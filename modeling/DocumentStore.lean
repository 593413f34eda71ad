import DocumentStore.Session.Command
import DocumentStore.Wire.Write
import DocumentStore.Proofs.Outcome
import DocumentStore.Proofs.Entries
import DocumentStore.Proofs.Number.Integers
import DocumentStore.Proofs.Order.Composition
import DocumentStore.Proofs.Value.Order
import DocumentStore.Proofs.Value.Inside
import DocumentStore.Proofs.Value.Paths
import DocumentStore.Proofs.Query.Built
import DocumentStore.Proofs.Order.Sorting
import DocumentStore.Proofs.Query.Order
import DocumentStore.Proofs.Query.Position
import DocumentStore.Proofs.Query.Execution
import DocumentStore.Proofs.Store.Commit
import DocumentStore.Proofs.Client.Transaction
import DocumentStore.Proofs.Store.Documents
import DocumentStore.Proofs.Store.Notify
import DocumentStore.Proofs.Store.Calls
import DocumentStore.Proofs.Store.Turn
import DocumentStore.Proofs.Store.Listening
import DocumentStore.Proofs.Query.Reversal
import DocumentStore.Proofs.Text.Ascii
import DocumentStore.Proofs.Text.Decimal
import DocumentStore.Proofs.Text.Base64
import DocumentStore.Proofs.Time.Calendar
import DocumentStore.Proofs.Time.Rfc3339
import DocumentStore.Proofs.Wire.Value
import DocumentStore.Proofs.Wire.Query
import DocumentStore.Proofs.Wire.Execution
import DocumentStore.Proofs.Listen.Moves
import DocumentStore.Proofs.Listen.Disposal
import DocumentStore.Proofs.Path.Text
import DocumentStore.Proofs.Store.Stored
import DocumentStore.Proofs.Client.Reached
import DocumentStore.Proofs.Client.Agreement
import DocumentStore.Proofs.Query.Cursors
import DocumentStore.Proofs.Query.Pages
import DocumentStore.Proofs.Value.Equality
import DocumentStore.Proofs.Query.Operators
import DocumentStore.Proofs.Expr.Meaning
import DocumentStore.Proofs.Write.Markers
import DocumentStore.Proofs.Client.Plain
import DocumentStore.Proofs.Time.Reading
import DocumentStore.Proofs.Time.Instant
import DocumentStore.Proofs.Wire.Reread
import DocumentStore.Proofs.Listen.Delivery
import DocumentStore.Proofs.Client.WritePaths
import DocumentStore.Proofs.Client.Keeping
import DocumentStore.Proofs.Listen.Stages
import DocumentStore.Proofs.Session.Registry
import DocumentStore.Proofs.Session.Transitions
import DocumentStore.Proofs.Session.Reached
import DocumentStore.Proofs.Remote.Transaction
import DocumentStore.Proofs.Expr.Language
import DocumentStore.Proofs.Query.Narrowing
import DocumentStore.Proofs.Time.Writing
import DocumentStore.Proofs.Wire.Write
import DocumentStore.Proofs.Listen.Ending
import DocumentStore.Proofs.Remote.Registrations
import DocumentStore.Proofs.Remote.Forwarding
import DocumentStore.Proofs.Remote.Moves
import DocumentStore.Proofs.Remote.Reception
import DocumentStore.Proofs.Remote.Relay
import DocumentStore.Proofs.Remote.Rest
import DocumentStore.Proofs.Remote.Stream
import DocumentStore.Proofs.Remote.Operations
import DocumentStore.Proofs.Session.Hosting
import DocumentStore.Proofs.Session.Relayed
import DocumentStore.Proofs.Number.Magnitude
import DocumentStore.Proofs.Value.Preorder
import DocumentStore.Proofs.Store.Batch
import DocumentStore.Proofs.Store.Reordering
import DocumentStore.Proofs.Client.FixedReads
import DocumentStore.Proofs.Value.Assignment
import DocumentStore.Proofs.Value.Leaves
import DocumentStore.Proofs.Value.Lens
import DocumentStore.Proofs.Write.Update
import DocumentStore.Proofs.Write.Merge
import DocumentStore.Proofs.Write.Arrays
import DocumentStore.Proofs.Write.Deletion
import DocumentStore.Proofs.Write.Increments
import DocumentStore.Proofs.Path.Reading
import DocumentStore.Proofs.Text.LetterCase
import DocumentStore.Proofs.Path.Naming
import DocumentStore.Proofs.Value.Keys
import DocumentStore.Proofs.Write.Keys
import DocumentStore.Proofs.Client.Addressable
import DocumentStore.Proofs.Expr.Integers
import DocumentStore.Proofs.Json.Inside
import DocumentStore.Proofs.Value.PlainJson
import DocumentStore.Proofs.Value.NormalForm
import DocumentStore.Proofs.Query.Operands
import DocumentStore.Proofs.Wire.Tags
