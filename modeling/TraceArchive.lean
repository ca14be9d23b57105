import TraceArchive.Archive
import TraceArchive.Codec.Link
import TraceArchive.Codec.Predicate
import TraceArchive.Codec.Request
import TraceArchive.Codec.Span
import TraceArchive.Diagnostic.Sink
import TraceArchive.Json.Printer
import TraceArchive.Json.Reader
import TraceArchive.Report.Merge
import TraceArchive.Span.Report
import TraceArchive.Text.Hex.Value
import TraceArchive.Proofs.Search.Trace
import TraceArchive.Proofs.Search.Traces
import TraceArchive.Proofs.Span.RoundTrip
import TraceArchive.Proofs.Tree.SingleRoot
import TraceArchive.Proofs.SpanMap.Refinement
import TraceArchive.Proofs.Report.OneSided
import TraceArchive.Proofs.Report.Shared
import TraceArchive.Proofs.Report.Absorbing
import TraceArchive.Proofs.SpanMap.Repeating
import TraceArchive.Proofs.Ingest.Effect
import TraceArchive.Proofs.Ingest.Ancestors
import TraceArchive.Proofs.Ingest.Origins
import TraceArchive.Proofs.Ingest.Repeating
import TraceArchive.Proofs.Ingest.Failing
import TraceArchive.Proofs.Search.Arranging
import TraceArchive.Proofs.Trace.Counting
import TraceArchive.Proofs.Tree.Arrival
import TraceArchive.Proofs.Report.Interchanging
import TraceArchive.Proofs.Trace.Ties
import TraceArchive.Proofs.Report.Division
import TraceArchive.Proofs.Trace.Balance
import TraceArchive.Proofs.Report.Summary
import TraceArchive.Proofs.Report.Timing
import TraceArchive.Proofs.Trace.Linking
import TraceArchive.Proofs.Report.Covering
import TraceArchive.Proofs.Report.Addressing
import TraceArchive.Proofs.Report.Keeping
import TraceArchive.Proofs.Search.Agreeing
import TraceArchive.Proofs.Search.Naming
import TraceArchive.Proofs.Search.Confining
import TraceArchive.Proofs.Trace.Completing
import TraceArchive.Proofs.Tree.Diagnostics
import TraceArchive.Proofs.Id
import TraceArchive.Proofs.Codec.Span
import TraceArchive.Proofs.Codec.Predicate
import TraceArchive.Proofs.Request.Query
import TraceArchive.Proofs.Trace.Partition
