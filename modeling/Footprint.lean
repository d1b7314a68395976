import Footprint.Access
import Footprint.CommandLine.Arguments
import Footprint.CommandLine.Failure
import Footprint.CommandLine.Program
import Footprint.CommandLine.Report
import Footprint.Format
import Footprint.Grid
import Footprint.Host
import Footprint.Host.Directories
import Footprint.Host.Disk
import Footprint.Host.Path
import Footprint.Json.Escape
import Footprint.Json.Forms
import Footprint.Json.Record
import Footprint.Json.Token
import Footprint.Json.Value
import Footprint.Main
import Footprint.Measurement
import Footprint.Stretch
import Footprint.Synthetic.Draw
import Footprint.Synthetic.Keystream
import Footprint.Synthetic.Request
import Footprint.Tally
import Footprint.Text.Blank
import Footprint.Text.Fields
import Footprint.Text.Numeral
import Footprint.Text.Printable
import Footprint.Text.Quoted
import Footprint.Trace.Duration
import Footprint.Trace.Entry
import Footprint.Trace.Feed
import Footprint.Trace.Reading
import Footprint.Trace.Source
import Footprint.Trace.Window
import Footprint.Word
import Footprint.WorkingSet
import Footprint.Proofs.Access.Units
import Footprint.Proofs.Access.Enumeration
import Footprint.Proofs.Access.Overflow
import Footprint.Proofs.Access.Counting
import Footprint.Proofs.Access.Calls
import Footprint.Proofs.Access.Cuts
import Footprint.Proofs.WorkingSet.Elements
import Footprint.Proofs.WorkingSet.Replies
import Footprint.Proofs.Grid.Floors
import Footprint.Proofs.Tally.History
import Footprint.Proofs.Tally.Cuts
import Footprint.Proofs.Text.Grammar
import Footprint.Proofs.Trace.Lines
import Footprint.Proofs.Trace.Contents
import Footprint.Proofs.Trace.Windows
import Footprint.Proofs.Trace.Entries
import Footprint.Proofs.Trace.Durations
import Footprint.Proofs.Trace.Transcript
import Footprint.Proofs.Trace.Deliveries
import Footprint.Proofs.Trace.Lockstep
import Footprint.Proofs.Measurement.Lines
import Footprint.Proofs.Measurement.Modes
import Footprint.Proofs.Tally.Blocks
import Footprint.Proofs.Measurement.Faults
import Footprint.Proofs.Trace.Limits
import Footprint.Proofs.Measurement.Limits
import Footprint.Proofs.Synthetic.RoundTrip
import Footprint.Proofs.Trace.LineEnds
import Footprint.Proofs.Measurement.LineEnds
import Footprint.Proofs.Measurement.Numbers
import Footprint.Proofs.Measurement.Concatenation
import Footprint.Proofs.Measurement.Order
import Footprint.Proofs.Measurement.Balance
import Footprint.Proofs.Measurement.Collected
import Footprint.Proofs.Host.Disk
import Footprint.Proofs.Host.Directories
import Footprint.Proofs.CommandLine.Reports
import Footprint.Proofs.CommandLine.Failures
import Footprint.Proofs.CommandLine.Results
import Footprint.Proofs.Json.Forms
import Footprint.Proofs.Json.Acceptance
import Footprint.Proofs.CommandLine.ReportText
import Footprint.Proofs.Synthetic.Bounds
import Footprint.Proofs.Synthetic.Measured
import Footprint.Proofs.CommandLine.Extras
