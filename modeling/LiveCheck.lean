import LiveCheck.Check.Control
import LiveCheck.Check.Engine
import LiveCheck.Check.Event
import LiveCheck.Check.Fault
import LiveCheck.Check.Phase
import LiveCheck.Check.Session
import LiveCheck.Check.Turn
import LiveCheck.CommandLine.Arguments
import LiveCheck.CommandLine.Report
import LiveCheck.CommandLine.Run
import LiveCheck.Compiler.Behaviour
import LiveCheck.Compiler.Command
import LiveCheck.Disk.Basic
import LiveCheck.Disk.Planting
import LiveCheck.Json.Basic
import LiveCheck.Json.Literal
import LiveCheck.Json.Reader
import LiveCheck.Json.String
import LiveCheck.Json.Writer
import LiveCheck.Listing.Basic
import LiveCheck.Listing.Block
import LiveCheck.Listing.Line
import LiveCheck.Listing.Marker
import LiveCheck.Listing.Record
import LiveCheck.LogSinks
import LiveCheck.Machine
import LiveCheck.Main
import LiveCheck.Number.Binary64
import LiveCheck.Number.Decimal
import LiveCheck.Number.DecimalText
import LiveCheck.Number.Numeral
import LiveCheck.Path.Basic
import LiveCheck.Proofs.Check.Act
import LiveCheck.Proofs.Check.Advance
import LiveCheck.Proofs.Check.Apart
import LiveCheck.Proofs.Check.Completion
import LiveCheck.Proofs.Check.Containment
import LiveCheck.Proofs.Check.Drain
import LiveCheck.Proofs.Check.Exclusion
import LiveCheck.Proofs.Check.Footprint
import LiveCheck.Proofs.Check.Handover
import LiveCheck.Proofs.Check.Happening
import LiveCheck.Proofs.Check.History
import LiveCheck.Proofs.Check.Independence
import LiveCheck.Proofs.Check.Ledger
import LiveCheck.Proofs.Check.Lifecycle
import LiveCheck.Proofs.Check.Lockstep
import LiveCheck.Proofs.Check.Lone
import LiveCheck.Proofs.Check.Mirror
import LiveCheck.Proofs.Check.Order
import LiveCheck.Proofs.Check.Ownership
import LiveCheck.Proofs.Check.Prompt
import LiveCheck.Proofs.Check.Provenance
import LiveCheck.Proofs.Check.Registry
import LiveCheck.Proofs.Check.Roster
import LiveCheck.Proofs.Check.Run
import LiveCheck.Proofs.Check.Saved
import LiveCheck.Proofs.Check.Schedule
import LiveCheck.Proofs.Check.Shape
import LiveCheck.Proofs.Check.Source
import LiveCheck.Proofs.Check.Stopping
import LiveCheck.Proofs.Check.Tally
import LiveCheck.Proofs.Check.Turn
import LiveCheck.Proofs.Check.Verdict
import LiveCheck.Proofs.CommandLine.Once
import LiveCheck.Proofs.Disk
import LiveCheck.Proofs.Disk.Change
import LiveCheck.Proofs.Disk.Directory
import LiveCheck.Proofs.Disk.Making
import LiveCheck.Proofs.Disk.Place
import LiveCheck.Proofs.Json.Ascii
import LiveCheck.Proofs.Json.Faults
import LiveCheck.Proofs.Json.Number
import LiveCheck.Proofs.Json.ReadBack
import LiveCheck.Proofs.Json.String
import LiveCheck.Proofs.Listing.Append
import LiveCheck.Proofs.Listing.Block
import LiveCheck.Proofs.Listing.Collected
import LiveCheck.Proofs.Listing.Group
import LiveCheck.Proofs.Listing.Layout
import LiveCheck.Proofs.Listing.LeadingDigits
import LiveCheck.Proofs.Listing.Marker
import LiveCheck.Proofs.Listing.Message
import LiveCheck.Proofs.Listing.Passage
import LiveCheck.Proofs.Listing.Printed
import LiveCheck.Proofs.Listing.PrintedLine
import LiveCheck.Proofs.Listing.ReadBack
import LiveCheck.Proofs.Listing.Sort
import LiveCheck.Proofs.Listing.Stepwise
import LiveCheck.Proofs.Listing.Stops
import LiveCheck.Proofs.Number.Shortest
import LiveCheck.Proofs.Path
import LiveCheck.Proofs.Settings.Fallback
import LiveCheck.Proofs.Settings.Persistence
import LiveCheck.Proofs.Source.LineIndex
import LiveCheck.Proofs.Source.Location
import LiveCheck.Proofs.Source.Placing
import LiveCheck.Proofs.Source.Returns
import LiveCheck.Proofs.Table
import LiveCheck.Proofs.Text.Character
import LiveCheck.Proofs.Text.Join
import LiveCheck.Proofs.Text.Line
import LiveCheck.Proofs.Text.Piece
import LiveCheck.Proofs.Text.Utf8
import LiveCheck.Proofs.Text.Visible
import LiveCheck.Proofs.Viewer.Carets
import LiveCheck.Proofs.Viewer.Line
import LiveCheck.Proofs.Viewer.Navigation
import LiveCheck.Proofs.Viewer.Peek
import LiveCheck.Proofs.Viewer.Rows
import LiveCheck.Proofs.Viewer.Settling
import LiveCheck.Proofs.Viewer.StyledText
import LiveCheck.Proofs.Watch
import LiveCheck.Settings.Basic
import LiveCheck.Settings.Fault
import LiveCheck.Source.Diagnostic
import LiveCheck.Source.Kind
import LiveCheck.Source.LineIndex
import LiveCheck.Table
import LiveCheck.Text.Basic
import LiveCheck.Text.Blank
import LiveCheck.Text.Digit
import LiveCheck.Text.Line
import LiveCheck.Text.LowerCase
import LiveCheck.Text.Printable
import LiveCheck.Text.Quoted
import LiveCheck.Text.Range
import LiveCheck.Text.Utf8
import LiveCheck.Viewer.Basic
import LiveCheck.Viewer.Key
import LiveCheck.Viewer.Peek
import LiveCheck.Viewer.Row
import LiveCheck.Viewer.SourceState
import LiveCheck.Viewer.StatusBar
import LiveCheck.Viewer.StyledText
import LiveCheck.Watch
