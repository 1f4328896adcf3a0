import DebugConsole.Channel.Basic
import DebugConsole.Channel.Framing
import DebugConsole.Channel.Submission
import DebugConsole.Numeral.Real
import DebugConsole.Numeral.Shortest
import DebugConsole.Numeral.Whole
import DebugConsole.Process.Encoding
import DebugConsole.Process.Fault
import DebugConsole.Process.Handle
import DebugConsole.Process.Launch
import DebugConsole.Process.Signal
import DebugConsole.Proofs.Channel.Abandonment
import DebugConsole.Proofs.Channel.Accounting
import DebugConsole.Proofs.Channel.Balance
import DebugConsole.Proofs.Channel.Books
import DebugConsole.Proofs.Channel.Causality
import DebugConsole.Proofs.Channel.Chronicle
import DebugConsole.Proofs.Channel.Commands
import DebugConsole.Proofs.Channel.Completion
import DebugConsole.Proofs.Channel.Consistency
import DebugConsole.Proofs.Channel.Correlation
import DebugConsole.Proofs.Channel.Delivery
import DebugConsole.Proofs.Channel.Dialogue
import DebugConsole.Proofs.Channel.Interruption
import DebugConsole.Proofs.Channel.Isolation
import DebugConsole.Proofs.Channel.Operations
import DebugConsole.Proofs.Channel.Overtaking
import DebugConsole.Proofs.Channel.Progress
import DebugConsole.Proofs.Channel.Quiet
import DebugConsole.Proofs.Framing.Chunks
import DebugConsole.Proofs.Framing.Cuts
import DebugConsole.Proofs.Framing.Draining
import DebugConsole.Proofs.Framing.Independence
import DebugConsole.Proofs.Framing.Lines
import DebugConsole.Proofs.Framing.RoundTrip
import DebugConsole.Proofs.Framing.Runs
import DebugConsole.Proofs.Framing.Severed
import DebugConsole.Proofs.Numeral.Reals
import DebugConsole.Proofs.Numeral.Spelling
import DebugConsole.Proofs.Process.Decoding
import DebugConsole.Proofs.Process.Merging
import DebugConsole.Proofs.Process.Reaping
import DebugConsole.Proofs.Response.Dumps
import DebugConsole.Proofs.Response.Echo
import DebugConsole.Proofs.Response.Failure
import DebugConsole.Proofs.Response.Frames
import DebugConsole.Proofs.Response.Listings
import DebugConsole.Proofs.Response.Places
import DebugConsole.Proofs.Response.Rows
import DebugConsole.Proofs.Service.Idleness
import DebugConsole.Proofs.Service.Stopping
import DebugConsole.Proofs.Session.Acts
import DebugConsole.Proofs.Session.Aftermath
import DebugConsole.Proofs.Session.Background
import DebugConsole.Proofs.Session.Bridges
import DebugConsole.Proofs.Session.Bridging
import DebugConsole.Proofs.Session.Bystanders
import DebugConsole.Proofs.Session.Connecting
import DebugConsole.Proofs.Session.Contention
import DebugConsole.Proofs.Session.Coverage
import DebugConsole.Proofs.Session.Dealings
import DebugConsole.Proofs.Session.Desertion
import DebugConsole.Proofs.Session.Displacement
import DebugConsole.Proofs.Session.Exchange
import DebugConsole.Proofs.Session.Execution
import DebugConsole.Proofs.Session.Fleet
import DebugConsole.Proofs.Session.Giving
import DebugConsole.Proofs.Session.Greeting
import DebugConsole.Proofs.Session.HandOver
import DebugConsole.Proofs.Session.Hearing
import DebugConsole.Proofs.Session.Killing
import DebugConsole.Proofs.Session.Ledgers
import DebugConsole.Proofs.Session.Lifecycle
import DebugConsole.Proofs.Session.Notes
import DebugConsole.Proofs.Session.Notices
import DebugConsole.Proofs.Session.Parting
import DebugConsole.Proofs.Session.Provenance
import DebugConsole.Proofs.Session.Release
import DebugConsole.Proofs.Session.Replacement
import DebugConsole.Proofs.Session.Replies
import DebugConsole.Proofs.Session.Restoration
import DebugConsole.Proofs.Session.Retention
import DebugConsole.Proofs.Session.Scripts
import DebugConsole.Proofs.Session.Sequences
import DebugConsole.Proofs.Session.Steadiness
import DebugConsole.Proofs.Session.Strays
import DebugConsole.Proofs.Session.Subsiding
import DebugConsole.Proofs.Session.Succession
import DebugConsole.Proofs.Session.Takeover
import DebugConsole.Proofs.Session.Texts
import DebugConsole.Proofs.Session.Turns
import DebugConsole.Proofs.Session.Untold
import DebugConsole.Proofs.Session.Upkeep
import DebugConsole.Proofs.Session.Whereabouts
import DebugConsole.Proofs.Settings
import DebugConsole.Proofs.Text.Blanks
import DebugConsole.Proofs.Text.Capitals
import DebugConsole.Proofs.Variable.Balance
import DebugConsole.Proofs.Variable.Bytes
import DebugConsole.Proofs.Variable.Characters
import DebugConsole.Proofs.Variable.Compression
import DebugConsole.Proofs.Variable.Escapes
import DebugConsole.Proofs.Variable.Expansion
import DebugConsole.Proofs.Variable.Members
import DebugConsole.Proofs.Variable.Nodes
import DebugConsole.Proofs.Variable.Numbers
import DebugConsole.Proofs.Variable.Passage
import DebugConsole.Proofs.Variable.Pieces
import DebugConsole.Proofs.Variable.Printed
import DebugConsole.Proofs.Variable.Recognition
import DebugConsole.Proofs.Variable.RoundTrip
import DebugConsole.Proofs.Variable.Segmentation
import DebugConsole.Rehearsal.Child
import DebugConsole.Rehearsal.Console
import DebugConsole.Rehearsal.Debugger
import DebugConsole.Rehearsal.Timeline
import DebugConsole.Rehearsal.World
import DebugConsole.Response.Command
import DebugConsole.Response.Decode
import DebugConsole.Response.Grammar
import DebugConsole.Response.Report
import DebugConsole.Service.Basic
import DebugConsole.Service.Step
import DebugConsole.Session.Basic
import DebugConsole.Session.Execution
import DebugConsole.Session.Lifecycle
import DebugConsole.Session.RunControl
import DebugConsole.Session.State
import DebugConsole.Session.Step
import DebugConsole.Settings
import DebugConsole.Text.Blank
import DebugConsole.Text.Cut
import DebugConsole.Text.Digit
import DebugConsole.Text.FileName
import DebugConsole.Text.Lines
import DebugConsole.Text.Path
import DebugConsole.Text.Printable
import DebugConsole.Text.Quoted
import DebugConsole.Text.Ranges
import DebugConsole.Text.Upper
import DebugConsole.Text.Word
import DebugConsole.Toolchain.Basic
import DebugConsole.Variable.Basic
import DebugConsole.Variable.CharArray
import DebugConsole.Variable.Decode
import DebugConsole.Variable.Literal
import DebugConsole.Variable.Malformed
import DebugConsole.Variable.Segments
