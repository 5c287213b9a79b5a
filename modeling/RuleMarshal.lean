import RuleMarshal.Environment.Lemmas
import RuleMarshal.Session.Inspection
import RuleMarshal.Session.Settings
import RuleMarshal.Proofs.Computation.Keeps
import RuleMarshal.Proofs.Computation.Contract
import RuleMarshal.Proofs.Environment.Frame
import RuleMarshal.Proofs.Handle.Inquiry
import RuleMarshal.Proofs.Convert.Resolution
import RuleMarshal.Proofs.Environment.Evolution
import RuleMarshal.Proofs.Environment.Service
import RuleMarshal.Proofs.Environment.Host
import RuleMarshal.Proofs.Environment.Transfer
import RuleMarshal.Proofs.Environment.Operation
import RuleMarshal.Proofs.Environment.Outstanding
import RuleMarshal.Proofs.Environment.Relay
import RuleMarshal.Proofs.Session.Dispatch
import RuleMarshal.Proofs.Session.Evolution
import RuleMarshal.Proofs.Session.Currency
import RuleMarshal.Proofs.Session.Refusal
import RuleMarshal.Proofs.Session.Nesting
import RuleMarshal.Proofs.Session.Parking
import RuleMarshal.Proofs.Session.Surfacing
import RuleMarshal.Proofs.Insertion.Graph
import RuleMarshal.Proofs.Insertion.Traversal
import RuleMarshal.Proofs.Schema.Memory
import RuleMarshal.Proofs.Insertion.Representation
import RuleMarshal.Proofs.Computation.Carrying
import RuleMarshal.Proofs.Environment.Quiet
import RuleMarshal.Proofs.Insertion.Conduct
import RuleMarshal.Proofs.Insertion.Simulation
import RuleMarshal.Proofs.Insertion.Outcome
import RuleMarshal.Proofs.Computation.Yields
import RuleMarshal.Proofs.Extraction.Store
import RuleMarshal.Proofs.Extraction.Presentation
import RuleMarshal.Proofs.Extraction.Passage
import RuleMarshal.Proofs.Extraction.Conversion
import RuleMarshal.Proofs.Extraction.Building
import RuleMarshal.Proofs.Extraction.Visit
import RuleMarshal.Proofs.Schema.Field
import RuleMarshal.Proofs.Extraction.Instance
import RuleMarshal.Proofs.Extraction.Reference
import RuleMarshal.Proofs.Extraction.EngineValue
import RuleMarshal.Proofs.Extraction.Outcome
import RuleMarshal.Proofs.Convert.Plain
import RuleMarshal.Proofs.Schema.Slot
import RuleMarshal.Proofs.Schema.Reference
import RuleMarshal.Proofs.Schema.Coverage
import RuleMarshal.Proofs.Schema.Reflection
import RuleMarshal.Proofs.Schema.History
import RuleMarshal.Proofs.Schema.Closure
import RuleMarshal.Proofs.Synthesis.Classes
import RuleMarshal.Proofs.Synthesis.Course
import RuleMarshal.Proofs.Synthesis.Constraint
import RuleMarshal.Proofs.RoundTrip.Record
import RuleMarshal.Proofs.RoundTrip.Making
import RuleMarshal.Proofs.RoundTrip.Copying
import RuleMarshal.Proofs.RoundTrip.Retrieval
import RuleMarshal.Proofs.RoundTrip.Filling
import RuleMarshal.Proofs.RoundTrip.Outcome
import RuleMarshal.Proofs.Synthesis.Outcome
import RuleMarshal.Proofs.Synthesis.Forward
import RuleMarshal.Proofs.Text.SafeSymbol
import RuleMarshal.Proofs.Binary64.Text
import RuleMarshal.Proofs.Engine.Form
import RuleMarshal.Proofs.Engine.Render
import RuleMarshal.Proofs.Convert.Nested
import RuleMarshal.Proofs.Computation.Result
import RuleMarshal.Proofs.Schema.Facet
import RuleMarshal.Proofs.Insertion.Fit
import RuleMarshal.Proofs.Session.Revival
import RuleMarshal.Proofs.Session.Mention
import RuleMarshal.Proofs.Computation.Raising
import RuleMarshal.Proofs.Environment.Sparing
import RuleMarshal.Proofs.Insertion.Interruption
import RuleMarshal.Proofs.Insertion.Progress
import RuleMarshal.Proofs.Insertion.Abandonment
import RuleMarshal.Proofs.Environment.Sending
import RuleMarshal.Proofs.Synthesis.Verification
import RuleMarshal.Proofs.Insertion.Verification
import RuleMarshal.Proofs.Insertion.Inheritance
import RuleMarshal.Proofs.Session.Interference
import RuleMarshal.Proofs.Computation.Lookup
import RuleMarshal.Proofs.Host.Shown
import RuleMarshal.Proofs.Function.Call
import RuleMarshal.Proofs.Function.Failure
import RuleMarshal.Proofs.Function.Registry
import RuleMarshal.Proofs.Extraction.Chain
import RuleMarshal.Proofs.Function.Convention
import RuleMarshal.Proofs.Extraction.Aside
import RuleMarshal.Proofs.Extraction.Target
import RuleMarshal.Proofs.Extraction.Filling
import RuleMarshal.Proofs.Insertion.Absence
import RuleMarshal.Proofs.Session.Growth
import RuleMarshal.Proofs.Extraction.Meanwhile
import RuleMarshal.Proofs.Extraction.Placement
import RuleMarshal.Proofs.Extraction.Slots
import RuleMarshal.Proofs.Extraction.Remaking
import RuleMarshal.Proofs.Function.Meddling
import RuleMarshal.Proofs.Extraction.Merge
import RuleMarshal.Proofs.Extraction.Missing
import RuleMarshal.Proofs.Convert.Stability
import RuleMarshal.Proofs.Extraction.Multifield
import RuleMarshal.Proofs.Insertion.Distinction
import RuleMarshal.Proofs.Extraction.Following
import RuleMarshal.Proofs.Convert.Dynamic
import RuleMarshal.Proofs.Convert.Reading
import RuleMarshal.Proofs.Convert.FixedTuple
import RuleMarshal.Proofs.Convert.Refusal
import RuleMarshal.Proofs.Convert.Narrowing
import RuleMarshal.Proofs.Convert.Choice
import RuleMarshal.Proofs.Handle.Editing
import RuleMarshal.Proofs.Handle.Publication
import RuleMarshal.Proofs.Engine.Native
import RuleMarshal.Proofs.Session.SlotOwner
import RuleMarshal.Proofs.Handle.Listing
import RuleMarshal.Proofs.Config
import RuleMarshal.Proofs.Engine.Literal
import RuleMarshal.Proofs.Function.Binding
