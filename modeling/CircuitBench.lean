import CircuitBench.Bench.Basic
import CircuitBench.Bytes.Cursor
import CircuitBench.Bytes.LittleEndian
import CircuitBench.Circuit.Basic
import CircuitBench.Circuit.Build
import CircuitBench.Circuit.Check
import CircuitBench.Circuit.Files
import CircuitBench.Circuit.Inputs
import CircuitBench.Circuit.Loose
import CircuitBench.Circuit.Outputs
import CircuitBench.Circuit.Witness
import CircuitBench.CommandLine.Grammar
import CircuitBench.CommandLine.Run
import CircuitBench.Constraint.Evaluate
import CircuitBench.Constraint.File
import CircuitBench.Constraint.Support
import CircuitBench.Constraint.System
import CircuitBench.Container.Basic
import CircuitBench.Disk.Basic
import CircuitBench.Error
import CircuitBench.Error.Stated
import CircuitBench.Field.Element
import CircuitBench.Json.Document
import CircuitBench.Json.Order
import CircuitBench.Json.Reader
import CircuitBench.Json.Writer
import CircuitBench.Logging.Clock
import CircuitBench.Logging.Logger
import CircuitBench.Main
import CircuitBench.Number.Arithmetic
import CircuitBench.Number.Binary
import CircuitBench.Number.Column
import CircuitBench.Number.Literal
import CircuitBench.Number.Shortest
import CircuitBench.Path.Basic
import CircuitBench.Path.Encoded
import CircuitBench.Path.Lexical
import CircuitBench.Pipeline.Execution
import CircuitBench.Pipeline.Rehearsal
import CircuitBench.Pipeline.Run
import CircuitBench.Proofs.Bench.AfterRuns
import CircuitBench.Proofs.Bench.Preserved
import CircuitBench.Proofs.Bytes.Written
import CircuitBench.Proofs.Circuit.Build
import CircuitBench.Proofs.Circuit.Check
import CircuitBench.Proofs.Circuit.Files
import CircuitBench.Proofs.Circuit.Inputs
import CircuitBench.Proofs.Circuit.Witness
import CircuitBench.Proofs.Constraint.RoundTrip
import CircuitBench.Proofs.Constraint.Satisfaction
import CircuitBench.Proofs.Container.Language
import CircuitBench.Proofs.Disk.Operations
import CircuitBench.Proofs.Path.Names
import CircuitBench.Proofs.Pipeline.Soundness
import CircuitBench.Proofs.Tool.Run
import CircuitBench.Proofs.Witness.RoundTrip
import CircuitBench.Settings.File
import CircuitBench.Settings.Options
import CircuitBench.Signal.Flatten
import CircuitBench.Signal.Name
import CircuitBench.Sort.Merge
import CircuitBench.Sort.Natural
import CircuitBench.Sort.Search
import CircuitBench.Symbol.Table
import CircuitBench.Symbol.Text
import CircuitBench.Template.Source
import CircuitBench.Template.Synthesis
import CircuitBench.Temporary.Fresh
import CircuitBench.Temporary.Registry
import CircuitBench.Text.Blank
import CircuitBench.Text.Digit
import CircuitBench.Text.Half
import CircuitBench.Text.Lines
import CircuitBench.Text.Printable
import CircuitBench.Text.Quoted
import CircuitBench.Text.Utf8
import CircuitBench.Tool.Acts
import CircuitBench.Tool.Basic
import CircuitBench.Tool.Compiler
import CircuitBench.Tool.Run
import CircuitBench.Value.Access
import CircuitBench.Value.Arithmetic
import CircuitBench.Value.Basic
import CircuitBench.Value.Display
import CircuitBench.Value.Entry
import CircuitBench.Value.Gather
import CircuitBench.Value.Grid
import CircuitBench.Value.Order
import CircuitBench.Witness.File
import CircuitBench.Proofs.Container.Failures
import CircuitBench.Proofs.Bytes.Readers
import CircuitBench.Proofs.Constraint.Truncation
import CircuitBench.Proofs.Constraint.RepeatedWires
import CircuitBench.Proofs.Text.Order
import CircuitBench.Proofs.Signal.Elements
import CircuitBench.Proofs.Circuit.StrictCheck
import CircuitBench.Proofs.Circuit.InputKeys
import CircuitBench.Proofs.Text.Utf8
import CircuitBench.Proofs.Number.Decimal
import CircuitBench.Proofs.Json.Strings
import CircuitBench.Proofs.Json.Spelling
import CircuitBench.Proofs.Json.Containers
import CircuitBench.Proofs.Json.RoundTrip
import CircuitBench.Proofs.Field.Encoding
import CircuitBench.Proofs.Bench.Documents
import CircuitBench.Proofs.Circuit.InputDocument
import CircuitBench.Proofs.Circuit.KeySpelling
import CircuitBench.Proofs.Bench.Printed
import CircuitBench.Proofs.Pipeline.Quiet
import CircuitBench.Proofs.Path.Climb
import CircuitBench.Proofs.Circuit.Command
import CircuitBench.Proofs.Disk.Growth
import CircuitBench.Proofs.Temporary.Opened
import CircuitBench.Proofs.Bench.Added
import CircuitBench.Proofs.Pipeline.Leftovers
import CircuitBench.Proofs.Temporary.Registered
import CircuitBench.Proofs.Path.Spelled
import CircuitBench.Proofs.Template.Written
import CircuitBench.Proofs.Disk.Spared
import CircuitBench.Proofs.Bench.Spared
import CircuitBench.Proofs.Circuit.Workshop
import CircuitBench.Proofs.Template.Calls
import CircuitBench.Proofs.CommandLine.Words
import CircuitBench.Proofs.Settings.Version
import CircuitBench.Proofs.Pipeline.Compiled
import CircuitBench.Proofs.CommandLine.RenderOnly
import CircuitBench.Proofs.Circuit.Listing
import CircuitBench.Proofs.Circuit.CheckEnds
import CircuitBench.Proofs.Disk.Discarded
import CircuitBench.Proofs.Temporary.CleanedUp
import CircuitBench.Proofs.Temporary.Counted
import CircuitBench.Proofs.Json.Sayable
import CircuitBench.Proofs.Settings.Sayable
import CircuitBench.Proofs.Bench.Complaints
import CircuitBench.Proofs.Circuit.Failures
import CircuitBench.Proofs.Pipeline.Stumbles
import CircuitBench.Proofs.CommandLine.Ends
import CircuitBench.Proofs.Constraint.Scan
import CircuitBench.Proofs.Constraint.Footprint
import CircuitBench.Proofs.Constraint.Residues
import CircuitBench.Proofs.Witness.Elements
import CircuitBench.Proofs.Signal.Flattened
import CircuitBench.Proofs.Number.Digits
import CircuitBench.Proofs.Field.Spellings
import CircuitBench.Proofs.Number.Exact
import CircuitBench.Proofs.Number.Rounding
import CircuitBench.Proofs.Field.Integrality
import CircuitBench.Proofs.Path.Include
import CircuitBench.Proofs.Json.Refused
import CircuitBench.Proofs.Template.Parameters
import CircuitBench.Proofs.Number.Literals
import CircuitBench.Proofs.Symbol.Rows
import CircuitBench.Proofs.Symbol.Malformed
import CircuitBench.Proofs.Disk.Gained
import CircuitBench.Proofs.Bench.AllOrNothing
import CircuitBench.Proofs.Json.Alike
import CircuitBench.Proofs.Bench.StoredValues
import CircuitBench.Proofs.Circuit.Kept
import CircuitBench.Proofs.Circuit.Rejections
import CircuitBench.Proofs.Circuit.Snapshot
import CircuitBench.Proofs.Circuit.Expected
import CircuitBench.Proofs.Value.Keys
import CircuitBench.Proofs.Json.Readings
import CircuitBench.Proofs.Settings.Layers
import CircuitBench.Proofs.Settings.Memory
import CircuitBench.Proofs.Settings.Sharing
import CircuitBench.Proofs.Container.Room
