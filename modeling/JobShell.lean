import JobShell.Builtin
import JobShell.Command
import JobShell.Command.Parser
import JobShell.Completion
import JobShell.Diagnostics
import JobShell.Files
import JobShell.Highlight
import JobShell.History
import JobShell.Job
import JobShell.Job.Listing
import JobShell.Job.Ref
import JobShell.Job.Table
import JobShell.Main
import JobShell.Message
import JobShell.Options
import JobShell.Process
import JobShell.Process.Image
import JobShell.Process.Kernel
import JobShell.Process.Launch
import JobShell.Process.Program
import JobShell.Process.Status
import JobShell.Process.Surroundings
import JobShell.Process.Work
import JobShell.Script
import JobShell.Script.Parser
import JobShell.Shell
import JobShell.Shell.Editor
import JobShell.Shell.Evaluation
import JobShell.Shell.Handler
import JobShell.Shell.Host
import JobShell.Shell.Interaction
import JobShell.Shell.Invocation
import JobShell.Shell.PlainEditor
import JobShell.Shell.Session
import JobShell.Signal
import JobShell.Signal.Disposition
import JobShell.Signal.Mask
import JobShell.Text.Blank
import JobShell.Text.Decimal
import JobShell.Text.Literal
import JobShell.Text.Pieces
import JobShell.Text.Utf8
import JobShell.Token
import JobShell.Token.Lexer
import JobShell.Proofs.Table.Invariant
import JobShell.Proofs.Table.Runs
import JobShell.Proofs.Shell.Act
import JobShell.Proofs.Shell.Trace
import JobShell.Proofs.Shell.Handling
import JobShell.Proofs.Shell.Wait
import JobShell.Proofs.Shell.Course
import JobShell.Proofs.Shell.Prompt
import JobShell.Proofs.Shell.Reaping
import JobShell.Proofs.Token.Readings
import JobShell.Proofs.Token.Rest
import JobShell.Proofs.Token.Modes
import JobShell.Proofs.Command.Grammar
import JobShell.Proofs.Command.RoundTrip
import JobShell.Proofs.Process.Collecting
import JobShell.Proofs.Shell.Coalescing
import JobShell.Proofs.Highlight.Lossless
import JobShell.Proofs.Shell.Refusal
import JobShell.Proofs.Shell.Keeping
import JobShell.Proofs.Shell.Signalling
import JobShell.Proofs.Text.Lines
import JobShell.Proofs.Shell.Unread
import JobShell.Proofs.Shell.Rest
import JobShell.Proofs.Shell.Talk
import JobShell.Proofs.Shell.Reading
import JobShell.Proofs.Shell.Conversation
import JobShell.Proofs.Table.BoundedMap
import JobShell.Proofs.Table.Reference
import JobShell.Proofs.Process.Launching
import JobShell.Proofs.Shell.Forwarding
import JobShell.Proofs.Command.Background
import JobShell.Proofs.Files
import JobShell.Proofs.Process.Obstacles
import JobShell.Proofs.Shell.Failing
import JobShell.Proofs.Text.Messages
import JobShell.Proofs.Shell.Announcing
import JobShell.Proofs.Command.Settling
import JobShell.Proofs.Command.Marked
import JobShell.Proofs.Command.Spacing
import JobShell.Proofs.Highlight.Program
import JobShell.Proofs.Text.Sinks
import JobShell.Proofs.Text.Buffer
import JobShell.Proofs.Text.Cutting
import JobShell.Proofs.Table.Listing
import JobShell.Proofs.Shell.Listing
import JobShell.Proofs.Options
import JobShell.Proofs.Shell.Enduring
import JobShell.Proofs.Token.Positions
import JobShell.Proofs.Signal.Nesting
import JobShell.Proofs.Shell.Masking
import JobShell.Proofs.History
import JobShell.Proofs.Process.Input
import JobShell.Proofs.Shell.Remembering
import JobShell.Proofs.Text.Whole
import JobShell.Proofs.Shell.Telling
