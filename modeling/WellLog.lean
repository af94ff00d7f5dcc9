import WellLog.Binary64
import WellLog.CharSet
import WellLog.CharSet.Bytes
import WellLog.CommandLine
import WellLog.Cursor
import WellLog.Decimal.Notation
import WellLog.Decimal.Shortest
import WellLog.Error
import WellLog.FrameData
import WellLog.Image.Primitive
import WellLog.Image.Record
import WellLog.Image.SetBody
import WellLog.Image.Tape
import WellLog.Inspection
import WellLog.Journal
import WellLog.Json.Document
import WellLog.Json.Token
import WellLog.LoadSettings
import WellLog.LoadSettings.Json
import WellLog.LogicalFile
import WellLog.LogicalStream
import WellLog.Main
import WellLog.Medium
import WellLog.Object
import WellLog.ObjectSet.Component
import WellLog.ObjectSet.Parser
import WellLog.Pattern
import WellLog.Pattern.Automaton
import WellLog.Pattern.Bracket
import WellLog.Pattern.Escape
import WellLog.Pattern.Group
import WellLog.Pattern.Named
import WellLog.Pattern.Parser
import WellLog.Pattern.Reading
import WellLog.Pattern.Regex
import WellLog.Pattern.Simplify
import WellLog.Pool
import WellLog.Pool.Link
import WellLog.Record
import WellLog.Record.Scan
import WellLog.Report
import WellLog.Report.Json
import WellLog.Schema
import WellLog.Schema.Standard
import WellLog.Segment
import WellLog.Segmentation
import WellLog.StorageLabel
import WellLog.TapeMark
import WellLog.Text.Blank
import WellLog.Text.Pad
import WellLog.Text.Quoted
import WellLog.Text.Utf8
import WellLog.Track
import WellLog.Unicode.Age
import WellLog.Unicode.Break
import WellLog.Unicode.Case
import WellLog.Unicode.Category
import WellLog.Unicode.NamedSet
import WellLog.Unicode.Property
import WellLog.Unicode.Query
import WellLog.Unicode.Script
import WellLog.Unicode.Table
import WellLog.Value
import WellLog.Value.Code
import WellLog.Value.Decoder
import WellLog.VisibleRecord
import WellLog.CharSet.Lemmas
import WellLog.Proofs.Medium
import WellLog.Proofs.Track.Feed
import WellLog.Proofs.LogicalStream.Outlook
import WellLog.Proofs.LogicalStream.Position
import WellLog.Proofs.Segment
import WellLog.Proofs.Record.Layout
import WellLog.Proofs.LogicalStream.Packing
import WellLog.Proofs.Record.RoundTrip
import WellLog.Proofs.Track.Order
import WellLog.Proofs.LogicalStream.Order
import WellLog.Proofs.Record.Bounds
import WellLog.Proofs.LogicalStream.Twins
import WellLog.Proofs.Record.Twins
import WellLog.Proofs.Record.Progress
import WellLog.Proofs.Track.Probe
import WellLog.Proofs.Segmentation.Steps
import WellLog.Proofs.Segmentation.Calls
import WellLog.Proofs.Segmentation.Turns
import WellLog.Proofs.Segmentation.Progress
import WellLog.Proofs.Image.Tape
import WellLog.Proofs.Segmentation.Twins
import WellLog.Proofs.Segmentation.Framing
import WellLog.Proofs.LogicalFile.Layout
import WellLog.Proofs.Segmentation.Sections
import WellLog.Proofs.Segmentation.RoundTrip
import WellLog.Proofs.Record.Chain
import WellLog.Proofs.Record.Reread
import WellLog.Proofs.LogicalStream.Flat
import WellLog.Proofs.Mirror
import WellLog.Proofs.Track.Beside
import WellLog.Proofs.LogicalStream.Beside
import WellLog.Proofs.Record.Beside
import WellLog.Proofs.Segmentation.Beside
import WellLog.Proofs.Segmentation.Media
import WellLog.Proofs.Record.Damage
import WellLog.Proofs.Segmentation.Damage
import WellLog.Proofs.Decode.Spelling
import WellLog.Proofs.ObjectSet.Grammar
import WellLog.Proofs.Decode.Lookahead
import WellLog.Proofs.Decode.Progress
import WellLog.Proofs.ObjectSet.Acceptance
import WellLog.Proofs.ObjectSet.Consistency
import WellLog.Proofs.Text.Utf8
import WellLog.Proofs.Image.Primitive
import WellLog.Proofs.Image.SetBody
import WellLog.Proofs.Text.Order
import WellLog.Proofs.Pool.Declared
import WellLog.Proofs.Pool.Bucket
import WellLog.Proofs.Pool.Sound
import WellLog.Proofs.Pool.Query
import WellLog.Proofs.Pool.Linking
import WellLog.Proofs.Pool.History
import WellLog.Proofs.Pool.Slots
import WellLog.Proofs.Pool.Conservation
import WellLog.Proofs.Track.Reading
import WellLog.Proofs.Track.Resume
import WellLog.Proofs.Image.Unrolling
import WellLog.Proofs.LogicalStream.Truncation
import WellLog.Proofs.Record.Complete
import WellLog.Proofs.Record.Truncation
import WellLog.Proofs.Pool.Caching
import WellLog.Proofs.Segmentation.Caching
import WellLog.Proofs.Inspection
import WellLog.Proofs.ObjectSet.Inheritance
import WellLog.Proofs.Value.Numbers
import WellLog.Proofs.Pool.Decision
import WellLog.Proofs.Pool.Renewal
import WellLog.Proofs.Pool.Identity
import WellLog.Proofs.Record.Frames
import WellLog.Proofs.Segmentation.Frames
import WellLog.Proofs.Track.InStep
import WellLog.Proofs.Track.Finding
import WellLog.Proofs.Track.Failure
import WellLog.Proofs.LogicalStream.Stall
import WellLog.Proofs.Record.Stall
import WellLog.Proofs.LogicalStream.Fault
import WellLog.Proofs.Track.Succession
import WellLog.Proofs.Pattern.Brackets
import WellLog.Proofs.Pattern.Matching
import WellLog.Proofs.Pattern.Groups
import WellLog.Proofs.Pattern.Anchoring
import WellLog.Proofs.Pattern.Literal
import WellLog.Proofs.Pool.Folding
