import TestIsolation.CommandLine.FileTree
import TestIsolation.CommandLine.Program
import TestIsolation.CommandLine.Usage
import TestIsolation.Decimal.Layout
import TestIsolation.Decimal.Shortest
import TestIsolation.Ieee.Double
import TestIsolation.Ieee.Format
import TestIsolation.Json.Number
import TestIsolation.Json.Reader
import TestIsolation.Json.Token
import TestIsolation.Json.Value
import TestIsolation.Log.Emitter
import TestIsolation.Log.Entry
import TestIsolation.Log.Validation
import TestIsolation.Main
import TestIsolation.Mock.Expectation
import TestIsolation.Mock.Queue
import TestIsolation.Outcome.Frame
import TestIsolation.Outcome.Record
import TestIsolation.Outcome.Summary
import TestIsolation.Report.Console
import TestIsolation.Run.Aggregator
import TestIsolation.Run.Classification
import TestIsolation.Run.Settings
import TestIsolation.Run.Status
import TestIsolation.Run.Tree
import TestIsolation.Schedule.EventLoop
import TestIsolation.Schedule.Execution
import TestIsolation.Schedule.Pipe
import TestIsolation.Schedule.ProcessLife
import TestIsolation.Schedule.Supervision
import TestIsolation.Schedule.UnitState
import TestIsolation.Suite.Declaration
import TestIsolation.Suite.Registry
import TestIsolation.Suite.Tree
import TestIsolation.Text.Blank
import TestIsolation.Text.Bytes
import TestIsolation.Text.Sink
import TestIsolation.Time.Basic
import TestIsolation.Time.Calendar
import TestIsolation.Unit.Assertion
import TestIsolation.Unit.MockCall
import TestIsolation.Unit.Runner
import TestIsolation.Unit.Script
import TestIsolation.Unit.Thread
import TestIsolation.Value.Basic
import TestIsolation.Value.Compare
import TestIsolation.Value.Constraint
import TestIsolation.Value.Conversion
import TestIsolation.Value.Predicate
import TestIsolation.Proofs.Json.RoundTrip
import TestIsolation.Proofs.Outcome.Payload
import TestIsolation.Proofs.Outcome.Framing
import TestIsolation.Proofs.Outcome.Chunking
import TestIsolation.Proofs.Schedule.Reception
import TestIsolation.Proofs.Run.Closing
import TestIsolation.Proofs.Schedule.Move
import TestIsolation.Proofs.Schedule.Round
import TestIsolation.Proofs.Schedule.Bookkeeping
import TestIsolation.Proofs.Schedule.Course
import TestIsolation.Proofs.Schedule.Settlement
import TestIsolation.Proofs.Schedule.Contents
import TestIsolation.Proofs.Run.Untimed
import TestIsolation.Proofs.Schedule.Ledger
import TestIsolation.Proofs.Schedule.Agreement
import TestIsolation.Proofs.Run.Reordering
import TestIsolation.Proofs.Schedule.Barrier
import TestIsolation.Proofs.Schedule.Blockage
import TestIsolation.Proofs.Schedule.Starting
import TestIsolation.Proofs.Outcome.Clipping
import TestIsolation.Proofs.Unit.Channel
import TestIsolation.Proofs.Unit.Behaviour
import TestIsolation.Proofs.Unit.Verdict
import TestIsolation.Proofs.Unit.Fatality
import TestIsolation.Proofs.Mock.Matching
import TestIsolation.Proofs.Mock.Dealings
import TestIsolation.Proofs.Unit.Standing
import TestIsolation.Proofs.Unit.Twins
import TestIsolation.Proofs.Unit.Unnoticed
import TestIsolation.Proofs.Unit.Conformance
import TestIsolation.Proofs.Unit.Routine
import TestIsolation.Proofs.Unit.Interception
import TestIsolation.Proofs.Suite.Bracketing
import TestIsolation.Proofs.Suite.Nesting
import TestIsolation.Proofs.Run.Severity
import TestIsolation.Proofs.Run.Outcomes
import TestIsolation.Proofs.Run.Region
import TestIsolation.Proofs.Schedule.Upward
import TestIsolation.Proofs.Schedule.Isolation
import TestIsolation.Proofs.Schedule.Filtering
import TestIsolation.Proofs.Schedule.ProcessEnd
import TestIsolation.Proofs.Schedule.Clocked
import TestIsolation.Proofs.Schedule.Condemned
import TestIsolation.Proofs.Schedule.Overdue
import TestIsolation.Proofs.Schedule.Teardown
import TestIsolation.Proofs.Schedule.Corruption
import TestIsolation.Proofs.Suite.Joining
import TestIsolation.Proofs.Suite.Naming
import TestIsolation.Proofs.Suite.Finding
import TestIsolation.Proofs.Suite.Ancestry
import TestIsolation.Proofs.Suite.Growth
import TestIsolation.Proofs.Suite.Acceptance
import TestIsolation.Proofs.Suite.Numbering
import TestIsolation.Proofs.Suite.Image
import TestIsolation.Proofs.Suite.Inheritance
import TestIsolation.Proofs.Schedule.Halting
import TestIsolation.Proofs.Schedule.Signals
import TestIsolation.Proofs.Run.Explanation
import TestIsolation.Proofs.Schedule.Reporting
import TestIsolation.Proofs.Value.Integers
import TestIsolation.Proofs.Value.Membership
import TestIsolation.Proofs.Mock.Conservation
import TestIsolation.Proofs.Json.Canonical
import TestIsolation.Proofs.Text.Lines
import TestIsolation.Proofs.Log.ReadBack
import TestIsolation.Proofs.Log.Journal
import TestIsolation.Proofs.Value.Families
import TestIsolation.Proofs.Value.Exactness
import TestIsolation.Proofs.Outcome.Keeping
import TestIsolation.Proofs.Unit.Delivery
import TestIsolation.Proofs.Time.Gregorian
import TestIsolation.Proofs.Time.Padding
import TestIsolation.Proofs.Time.Stamps
import TestIsolation.Proofs.Log.WriteErrors
import TestIsolation.Proofs.Log.Stated
import TestIsolation.Proofs.Schedule.Operations
import TestIsolation.Proofs.Schedule.Watchdog
import TestIsolation.Proofs.Schedule.FirstKill
import TestIsolation.Proofs.Mock.Registration
import TestIsolation.Proofs.Run.Spelling
import TestIsolation.Proofs.Run.Flags
import TestIsolation.Proofs.Run.Intervals
import TestIsolation.Proofs.Run.Settling
import TestIsolation.Proofs.Schedule.Deadlines
import TestIsolation.Proofs.Outcome.Buffering
import TestIsolation.Proofs.Schedule.Withheld
import TestIsolation.Proofs.Schedule.Console
