import LineShell.Config
import LineShell.Config.Json
import LineShell.Config.Json.Number
import LineShell.Config.Json.Quoted
import LineShell.Config.Json.Scan
import LineShell.Config.Loader
import LineShell.Config.Settings
import LineShell.Disk
import LineShell.Double
import LineShell.Double.Shortest
import LineShell.ErrorReport
import LineShell.ErrorReport.Named
import LineShell.Failure
import LineShell.Launch
import LineShell.LineBuffer
import LineShell.Log.Entry
import LineShell.Log.Journal
import LineShell.Log.Level
import LineShell.Log.Recent
import LineShell.Log.Record
import LineShell.Log.Timestamp
import LineShell.Lookup
import LineShell.Main
import LineShell.Os.Call
import LineShell.Os.World
import LineShell.Path
import LineShell.Program
import LineShell.Program.Run
import LineShell.Proofs.Child.Acts
import LineShell.Proofs.Child.Services
import LineShell.Proofs.Child.Shell
import LineShell.Proofs.Config.Acceptance
import LineShell.Proofs.Config.Reading
import LineShell.Proofs.Config.Reports
import LineShell.Proofs.Line.Exactness
import LineShell.Proofs.Line.History
import LineShell.Proofs.Line.Pieces
import LineShell.Proofs.Line.Storage
import LineShell.Proofs.Line.Tokens
import LineShell.Proofs.Os.Interrupts
import LineShell.Proofs.Os.World
import LineShell.Proofs.Program.Agreement
import LineShell.Proofs.Program.Custody
import LineShell.Proofs.Program.Ensures
import LineShell.Proofs.Program.Footprint
import LineShell.Proofs.Program.Notes
import LineShell.Proofs.Program.Reach
import LineShell.Proofs.Program.Relates
import LineShell.Proofs.Program.Run
import LineShell.Proofs.Services.Host
import LineShell.Proofs.Services.HostRun
import LineShell.Proofs.Services.InMemory
import LineShell.Proofs.Services.Mirror
import LineShell.Proofs.Services.View
import LineShell.Proofs.Shell.Blocks
import LineShell.Proofs.Shell.ChildEndings
import LineShell.Proofs.Shell.Children
import LineShell.Proofs.Shell.Completion
import LineShell.Proofs.Shell.Descriptors
import LineShell.Proofs.Shell.Exit
import LineShell.Proofs.Shell.Footprint
import LineShell.Proofs.Shell.HostAgreement
import LineShell.Proofs.Shell.Lockstep
import LineShell.Proofs.Shell.Lookup
import LineShell.Proofs.Shell.LookupAgreement
import LineShell.Proofs.Shell.Reader
import LineShell.Proofs.Shell.Rounds
import LineShell.Proofs.Shell.Seen
import LineShell.Proofs.Shell.Source
import LineShell.Proofs.Shell.Start
import LineShell.Proofs.Shell.Tour
import LineShell.Proofs.Shell.WorkingDirectory
import LineShell.Proofs.Text.Utf8
import LineShell.Service
import LineShell.Services.Fault
import LineShell.Services.Host
import LineShell.Services.InMemory
import LineShell.Shell
import LineShell.Shell.Builtin
import LineShell.Shell.Child
import LineShell.Shell.Session
import LineShell.Text
import LineShell.Text.Printable
import LineShell.Text.Quoted
import LineShell.Text.UpperCase
import LineShell.Text.Utf8
import LineShell.Value
import LineShell.Value.Render
import LineShell.Proofs.Services.Interrupts
import LineShell.Proofs.Services.Waiting
import LineShell.Proofs.Shell.Interrupts
import LineShell.Proofs.Text.RoundTrip
import LineShell.Proofs.Shell.AsWritten
import LineShell.Proofs.Shell.Refusals
import LineShell.Proofs.Shell.Bytes
import LineShell.Proofs.Program.MoreRounds
import LineShell.Proofs.Shell.Termination
import LineShell.Proofs.Program.Passage
import LineShell.Proofs.Shell.Publication
import LineShell.Proofs.Shell.Inheritance
import LineShell.Proofs.Program.Interruptible
import LineShell.Proofs.Shell.BrokenOff
import LineShell.Proofs.Shell.Resumption
import LineShell.Proofs.Text.Separators
import LineShell.Proofs.Line.AsText
import LineShell.Proofs.Line.Markers
import LineShell.Proofs.Shell.ChangeDirectory
import LineShell.Proofs.Double.Rounding
import LineShell.Proofs.Double.Clock
import LineShell.Proofs.Services.Deadline
import LineShell.Proofs.Program.Between
import LineShell.Proofs.Shell.GivenBack
import LineShell.Proofs.Shell.Pace
import LineShell.Proofs.Program.Alike
import LineShell.Proofs.Services.Piped
import LineShell.Proofs.Shell.PipedInput
import LineShell.Proofs.Program.Sequel
import LineShell.Proofs.Shell.Sequel
import LineShell.Proofs.Shell.Unmade
import LineShell.Proofs.Shell.Crowded
import LineShell.Proofs.Shell.CutShort
import LineShell.Proofs.Shell.Unread
import LineShell.Proofs.Shell.SearchOrder
import LineShell.Proofs.Shell.Foreground
import LineShell.Proofs.Services.Reading
import LineShell.Proofs.Services.Writing
import LineShell.Proofs.Shell.Unopened
import LineShell.Proofs.Config.Sections
import LineShell.Proofs.Config.Dictionary
import LineShell.Proofs.Config.Loading
import LineShell.Proofs.Config.Keys
import LineShell.Proofs.Line.Lifetime
import LineShell.Proofs.Line.Shortened
import LineShell.Proofs.Log.Recent
import LineShell.Proofs.Log.Delivery
import LineShell.Proofs.Log.SettingUp
