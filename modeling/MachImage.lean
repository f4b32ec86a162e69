import MachImage.Main
import MachImage.Log.Date
import MachImage.ByteOrder
import MachImage.Proofs.Decoder.Run
import MachImage.Proofs.Decoder.Relocation
import MachImage.Proofs.Layout.Moved
import MachImage.Proofs.LoadCommand.Relocation
import MachImage.Proofs.Slice.Relocation
import MachImage.Proofs.Image.Truncation
import MachImage.Proofs.Text.Utf8
import MachImage.Proofs.Decoder.Reading
import MachImage.Proofs.Universal.Container
import MachImage.Proofs.Layout.Declared
import MachImage.Proofs.LoadCommand.Written
import MachImage.Proofs.LoadCommand.RoundTrip
import MachImage.Proofs.Layout.RoundTrip
import MachImage.Proofs.Decoder.Inherited
import MachImage.Proofs.LoadCommand.Inherited
import MachImage.Proofs.Decoder.Spelling
import MachImage.Proofs.Layout.Recorded
import MachImage.Proofs.Slice.Raw
import MachImage.Proofs.Image.Sections
import MachImage.Proofs.Slice.Names
import MachImage.Proofs.Slice.Stubs
import MachImage.Proofs.Image.Failure
import MachImage.Proofs.Universal.Independence
import MachImage.Proofs.Layout.Framing
import MachImage.Proofs.Reader.History
import MachImage.Proofs.Decoder.Extent
import MachImage.Proofs.LoadCommand.Extent
import MachImage.Proofs.LoadCommand.OwnBytes
import MachImage.Proofs.Image.Counts
import MachImage.Proofs.Reader.Session
import MachImage.Proofs.Slice.Diagnostics
import MachImage.Proofs.Image.StubChoice
import MachImage.Proofs.Image.Detection
import MachImage.Proofs.Layout.Retained
import MachImage.Proofs.Decoder.Mirror
import MachImage.Proofs.LoadCommand.Mirror
import MachImage.Proofs.Slice.Mirror
import MachImage.Proofs.Image.Twin
import MachImage.Proofs.Text.Lossy
import MachImage.Proofs.Symbol.Resolution
import MachImage.Proofs.Layout.Reordering
import MachImage.Proofs.Layout.Insertion
import MachImage.Proofs.Slice.StubSource
import MachImage.Proofs.LoadCommand.Text
import MachImage.Proofs.Reader.Recognition
import MachImage.Proofs.Slice.Register
import MachImage.Proofs.StubSize.Spelling
import MachImage.Proofs.Mangling.Language
import MachImage.Proofs.Report.HexDump
import MachImage.Proofs.CommandLine.Console
import MachImage.Proofs.Decoder.Exact
import MachImage.Proofs.Text.Name
import MachImage.Proofs.CommandLine.Lines
import MachImage.Proofs.CommandLine.Ending
