import TransportStream.CommandLine.Run
import TransportStream.Main
import TransportStream.Proofs.Backlog.Delivery
import TransportStream.Proofs.Reader.Reachable
import TransportStream.Proofs.Reader.WholeStream
import TransportStream.Proofs.Source.Reading
import TransportStream.Reader.Opening
import TransportStream.Report.Rendering
import TransportStream.Sample
import TransportStream.Proofs.Reader.Sequential
import TransportStream.Proofs.Detection
import TransportStream.Proofs.Reader.Passing
import TransportStream.Proofs.Reader.History
import TransportStream.Proofs.Reader.Alignment
import TransportStream.Proofs.Reader.Faults
import TransportStream.Proofs.Reader.Balance
import TransportStream.Proofs.Reader.Refusal
import TransportStream.Proofs.Reader.Draining
import TransportStream.Proofs.Reader.Located
import TransportStream.Proofs.Report.Inspection
import TransportStream.Proofs.Report.PidTable
import TransportStream.Proofs.Report.Separation
import TransportStream.Proofs.Reader.Interspersed
import TransportStream.Proofs.Reader.Tapering
import TransportStream.Proofs.Reader.OneChunk
import TransportStream.Proofs.Reader.Measured
import TransportStream.Proofs.Sample.Contents
import TransportStream.Proofs.Sample.ReadBack
import TransportStream.Proofs.CommandLine.Inspecting
import TransportStream.Proofs.CommandLine.Agreement
import TransportStream.Proofs.Detection.Whereabouts
import TransportStream.Proofs.Detection.Causes
import TransportStream.Proofs.Packet.Grammar
import TransportStream.Proofs.Packet.Agreement
import TransportStream.Proofs.Reader.Barred
import TransportStream.Proofs.Reader.ChunkOffsets
import TransportStream.Proofs.Reader.OpeningOrder
import TransportStream.Proofs.Report.ReadBack
import TransportStream.Proofs.Source.Composition
import TransportStream.Proofs.ChunkBuffer
import TransportStream.Proofs.Reader.Turns
import TransportStream.Proofs.Reader.Journal
