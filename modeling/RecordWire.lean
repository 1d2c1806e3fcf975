import RecordWire.Accessor
import RecordWire.Catalog
import RecordWire.Chat.Demo
import RecordWire.Chat.Packet
import RecordWire.Chat.Server
import RecordWire.Codec.Binary
import RecordWire.Codec.Error
import RecordWire.Codec.Scalar
import RecordWire.Codec.Text
import RecordWire.Collection.Adapter
import RecordWire.Collection.Cursor
import RecordWire.Float.Format
import RecordWire.Float.Read
import RecordWire.Float.Round
import RecordWire.Float.Scaled
import RecordWire.Float.Shortest
import RecordWire.Main
import RecordWire.Protocol.Dispatch
import RecordWire.Protocol.Error
import RecordWire.Protocol.Pump
import RecordWire.Protocol.Registry
import RecordWire.Protocol.Session
import RecordWire.Proofs.BinaryRoundTrip
import RecordWire.Proofs.StreamCursor
import RecordWire.Proofs.Delivery
import RecordWire.Proofs.DispatchMap
import RecordWire.Proofs.Framing
import RecordWire.Proofs.Registration
import RecordWire.Proofs.Streams
import RecordWire.Proofs.Typed
import RecordWire.Proofs.Utf8
import RecordWire.Proofs.WireForm
import RecordWire.Proofs.TextRoundTrip
import RecordWire.Proofs.TextTokens
import RecordWire.Proofs.TextGrammar
import RecordWire.Proofs.RecordFile
import RecordWire.Proofs.Capacity
import RecordWire.Proofs.OnlineUsers
import RecordWire.Proofs.Transcript
import RecordWire.Proofs.ReadingSteps
import RecordWire.Proofs.Overwrite
import RecordWire.Proofs.Truncation
import RecordWire.Proofs.PartialRead
import RecordWire.Proofs.Sets
import RecordWire.Proofs.Canonical
import RecordWire.Proofs.TextSpacing
import RecordWire.Proofs.TextCut
import RecordWire.Proofs.SizingBounds
import RecordWire.Proofs.TypeChecks
import RecordWire.Proofs.DecoderRuns
import RecordWire.Proofs.CollectionWalk
import RecordWire.Schema.Descriptor
import RecordWire.Schema.Inspect
import RecordWire.Schema.Shape
import RecordWire.Schema.Summary
import RecordWire.Stream.Basic
import RecordWire.Stream.Error
import RecordWire.Stream.Growable
import RecordWire.Stream.Sizing
import RecordWire.Stream.Slice
import RecordWire.Text.Blank
import RecordWire.Text.Escape
import RecordWire.Text.Extender
import RecordWire.Text.Printable
import RecordWire.Text.Quote
import RecordWire.Text.Reader
import RecordWire.Text.Utf8
import RecordWire.Unified
import RecordWire.Value
import RecordWire.Word
