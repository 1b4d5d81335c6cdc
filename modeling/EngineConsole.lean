import EngineConsole.Command.Folder
import EngineConsole.Main
import EngineConsole.Message.Buffer
import EngineConsole.Message.Compare
import EngineConsole.Proofs.Bytes.Delivery
import EngineConsole.Proofs.Number.Codec
import EngineConsole.Proofs.Record.Codec
import EngineConsole.Proofs.Record.Frame
import EngineConsole.Proofs.Record.Merge
import EngineConsole.Proofs.Message.Capacity
import EngineConsole.Proofs.Message.Frames
import EngineConsole.Proofs.Bytes.Uptake
import EngineConsole.Proofs.Console.Sizes
import EngineConsole.Proofs.Message.Overlay
import EngineConsole.Proofs.Console.RoundTrip
import EngineConsole.Proofs.Record.Reach
import EngineConsole.Proofs.Record.Invariant
import EngineConsole.Proofs.Message.Containment
import EngineConsole.Proofs.Console.Containment
import EngineConsole.Proofs.Record.Overflow
import EngineConsole.Proofs.Message.Overflow
import EngineConsole.Proofs.Console.Overlay
import EngineConsole.Proofs.Record.Simulation
import EngineConsole.Proofs.Bytes.Requests
import EngineConsole.Proofs.Bytes.View
import EngineConsole.Proofs.Message.Simulation
import EngineConsole.Proofs.Record.Span
import EngineConsole.Proofs.Console.Spans
import EngineConsole.Proofs.Record.Repetition
import EngineConsole.Proofs.Record.Passage
import EngineConsole.Proofs.Message.Failure
import EngineConsole.Proofs.Console.Failure
import EngineConsole.Proofs.Bytes.Handover
import EngineConsole.Proofs.Message.Streaming
import EngineConsole.Proofs.Bytes.Filling
import EngineConsole.Proofs.Console.Encoding
import EngineConsole.Proofs.Message.Places
import EngineConsole.Proofs.Console.Patch
import EngineConsole.Proofs.Record.Refusal
import EngineConsole.Proofs.Message.Refusal
import EngineConsole.Proofs.Console.Refusal
import EngineConsole.Proofs.Message.Concatenation
import EngineConsole.Proofs.Console.Concatenation
import EngineConsole.Proofs.Record.Truncation
import EngineConsole.Proofs.Message.Truncation
import EngineConsole.Proofs.Console.Truncation
import EngineConsole.Proofs.Record.Reordering
import EngineConsole.Proofs.Message.Reordering
import EngineConsole.Proofs.Console.Reordering
import EngineConsole.Proofs.Record.Supply
import EngineConsole.Proofs.Console.Supply
import EngineConsole.Proofs.Bytes.Memory
import EngineConsole.Proofs.Number.Spelling
import EngineConsole.Proofs.Capture.Entries
import EngineConsole.Proofs.Capture.Walk
import EngineConsole.Proofs.Capture.Report
import EngineConsole.Proofs.Message.Listing
import EngineConsole.Proofs.Console.Listing
import EngineConsole.Proofs.Record.Obstruction
import EngineConsole.Proofs.Record.Respelling
import EngineConsole.Proofs.Message.Respelling
import EngineConsole.Proofs.Console.Respelling
import EngineConsole.Proofs.Message.Elements
import EngineConsole.Proofs.Console.Elements
import EngineConsole.Proofs.Record.Mixture
import EngineConsole.Proofs.Record.Session
import EngineConsole.Proofs.Message.Selection
import EngineConsole.Proofs.Console.Selection
import EngineConsole.Proofs.Number.Groups
import EngineConsole.Proofs.Record.Acceptance
import EngineConsole.Proofs.Message.Descent
import EngineConsole.Proofs.Message.Leftover
import EngineConsole.Proofs.Console.Leftover
import EngineConsole.Proofs.Record.Room
import EngineConsole.Proofs.Message.Notices
import EngineConsole.Proofs.Console.Notices
import EngineConsole.Proofs.Bytes.Skipping
import EngineConsole.Proofs.Record.Scratch
import EngineConsole.Proofs.Console.Sharpness
