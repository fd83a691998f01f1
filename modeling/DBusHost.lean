import DBusHost.Binary64
import DBusHost.BusError
import DBusHost.Container.Attribute
import DBusHost.Container.Basic
import DBusHost.Container.Construction
import DBusHost.Container.Entries
import DBusHost.Container.ListMethods
import DBusHost.Container.MapMethods
import DBusHost.Container.Method
import DBusHost.Container.Parts
import DBusHost.Container.Sequence
import DBusHost.Container.TupleMethods
import DBusHost.Container.Use
import DBusHost.Decimal.Layout
import DBusHost.Decimal.Literal
import DBusHost.Decimal.Shortest
import DBusHost.Fault
import DBusHost.Loader
import DBusHost.Message.Basic
import DBusHost.Message.Item
import DBusHost.Message.Marshal
import DBusHost.Message.Reader
import DBusHost.Message.Sheet
import DBusHost.Message.Unmarshal
import DBusHost.Native.Routine
import DBusHost.Native.Validator
import DBusHost.Session.Calls
import DBusHost.Session.Connections
import DBusHost.Session.Delivery
import DBusHost.Session.Event
import DBusHost.Session.Handle
import DBusHost.Session.Iterators
import DBusHost.Session.Messages
import DBusHost.Session.Names
import DBusHost.Session.Ownership
import DBusHost.Session.Pending
import DBusHost.Session.Perform
import DBusHost.Session.Script
import DBusHost.Session.State
import DBusHost.Session.Step
import DBusHost.Session.Table
import DBusHost.Session.Things
import DBusHost.Signature.Basic
import DBusHost.Signature.Checked
import DBusHost.Signature.Cursor
import DBusHost.Signature.Walk
import DBusHost.Sorting.Basic
import DBusHost.Sorting.Bisection
import DBusHost.Sorting.Merge
import DBusHost.Sorting.Run
import DBusHost.Text.Printable
import DBusHost.Text.Quoted
import DBusHost.Text.Storage
import DBusHost.Timeout
import DBusHost.TypeCode
import DBusHost.Value.Basic
import DBusHost.Value.Equality
import DBusHost.Value.Guess
import DBusHost.Value.Key
import DBusHost.Value.Number
import DBusHost.Value.Order
import DBusHost.Value.Printer
import DBusHost.Value.Recipe
import DBusHost.Proofs.Native.Attempts
import DBusHost.Proofs.Signature.Reading
import DBusHost.Proofs.Signature.WellFormed
import DBusHost.Proofs.Signature.Tree
import DBusHost.Proofs.Signature.Walking
import DBusHost.Proofs.Signature.Stepping
import DBusHost.Proofs.Signature.Pieces
import DBusHost.Proofs.Marshal.Offers
import DBusHost.Proofs.Signature.Carried
import DBusHost.Proofs.Signature.Guessing
import DBusHost.Proofs.Marshal.Acceptance
import DBusHost.Proofs.Marshal.Cells
import DBusHost.Proofs.Marshal.Conformance
import DBusHost.Proofs.Marshal.Placement
import DBusHost.Proofs.Marshal.Encoding
import DBusHost.Proofs.Marshal.Outcome
import DBusHost.Proofs.Marshal.Requests
import DBusHost.Proofs.Marshal.Asking
import DBusHost.Proofs.Marshal.Bracketing
import DBusHost.Proofs.Marshal.Renumbering
import DBusHost.Proofs.Marshal.Leftovers
import DBusHost.Proofs.Unmarshal.NormalForm
import DBusHost.Proofs.Unmarshal.Decoding
import DBusHost.Proofs.Unmarshal.Denotation
import DBusHost.Proofs.Unmarshal.Looping
import DBusHost.Proofs.Unmarshal.Stepping
import DBusHost.Proofs.Unmarshal.RoundTrip
import DBusHost.Proofs.Unmarshal.Homogeneous
import DBusHost.Proofs.Unmarshal.Typed
import DBusHost.Proofs.Unmarshal.Return
import DBusHost.Proofs.Unmarshal.Remarshal
import DBusHost.Proofs.Unmarshal.Guessed
import DBusHost.Proofs.Container.Keeping
import DBusHost.Proofs.Container.Lifetime
import DBusHost.Proofs.Signature.Strictness
import DBusHost.Proofs.Signature.Accepting
import DBusHost.Proofs.Signature.Obtaining
import DBusHost.Proofs.Signature.Verdicts
import DBusHost.Proofs.Marshal.Contents
import DBusHost.Proofs.Marshal.Guided
import DBusHost.Proofs.Marshal.Following
import DBusHost.Proofs.Value.Rounding
import DBusHost.Proofs.Value.Essence
import DBusHost.Proofs.Value.Nearest
import DBusHost.Proofs.Value.Windows
import DBusHost.Proofs.Value.Timeouts
import DBusHost.Proofs.Marshal.Foreseen
import DBusHost.Proofs.Unmarshal.Storing
import DBusHost.Proofs.Unmarshal.Kept
import DBusHost.Proofs.Session.Moves
import DBusHost.Proofs.Session.Act
import DBusHost.Proofs.Session.Touches
import DBusHost.Proofs.Session.Opening
import DBusHost.Proofs.Session.Orderly
import DBusHost.Proofs.Session.Inversion
import DBusHost.Proofs.Session.Preservation
import DBusHost.Proofs.Session.Reading
import DBusHost.Proofs.Session.Parts
import DBusHost.Proofs.Session.Paths
import DBusHost.Proofs.Session.Runs
import DBusHost.Proofs.Session.AtMostOnce
import DBusHost.Proofs.Session.Handover
import DBusHost.Proofs.Session.Callbacks
import DBusHost.Proofs.Session.Calls
import DBusHost.Proofs.Session.Quiet
import DBusHost.Proofs.Session.References
import DBusHost.Proofs.Session.Referred
import DBusHost.Proofs.Session.Turns
import DBusHost.Proofs.Session.Balance
import DBusHost.Proofs.Session.Lock
import DBusHost.Proofs.Session.Notifications
import DBusHost.Proofs.Session.Mishaps
import DBusHost.Proofs.Session.Unaffected
import DBusHost.Proofs.Session.UnaffectedParts
import DBusHost.Proofs.Session.UnaffectedSteps
import DBusHost.Proofs.Session.TwoRuns
import DBusHost.Proofs.Session.FailingHandlers
import DBusHost.Proofs.Session.Usage
import DBusHost.Proofs.Session.Parting
import DBusHost.Proofs.Session.Requests
import DBusHost.Proofs.Session.Releasing
import DBusHost.Proofs.Session.FailedRequests
import DBusHost.Proofs.Session.Completing
import DBusHost.Proofs.Session.Nesting
import DBusHost.Proofs.Session.Dealings
import DBusHost.Proofs.Session.Handling
