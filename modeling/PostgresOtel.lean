import PostgresOtel.Context.Scope
import PostgresOtel.Exporter.Registration
import PostgresOtel.Producer.Contexts
import PostgresOtel.Producer.ErrorStack
import PostgresOtel.Producer.Owners
import PostgresOtel.Producer.Sampling
import PostgresOtel.Producer.Subxacts
import PostgresOtel.Producer.Brackets
import PostgresOtel.Parallel.Workers
import PostgresOtel.Parallel.LeaderReads
import PostgresOtel.Plpgsql.Resync
import PostgresOtel.Sdt.Pairing
import PostgresOtel.Trace.Scoping
import PostgresOtel.Trace.Liveness
import PostgresOtel.Trace.Sortwrap
import PostgresOtel.Trace.PlanSpans
import PostgresOtel.Trace.Leader
import PostgresOtel.Trace.Parentage
import PostgresOtel.Client.Active
import PostgresOtel.Trace.Leaks
import PostgresOtel.Trace.Lifo
import PostgresOtel.Trace.Uses
import PostgresOtel.Context.TraceparentText
import PostgresOtel.Context.SpanContextWire
import PostgresOtel.Producer.Activations
import PostgresOtel.Producer.Unwinding
import PostgresOtel.Producer.SpanMemory
import PostgresOtel.Producer.SpanAttrs
import PostgresOtel.Producer.Formatted
import PostgresOtel.Trace.CursorRun
import PostgresOtel.Exporter.JsonLines
import PostgresOtel.Producer.RatioSampling
import PostgresOtel.Context.CommentBounds
import PostgresOtel.Context.CommentPairs
import PostgresOtel.Trace.CommentText
import PostgresOtel.Exporter.Resource
import PostgresOtel.Producer.Isolation
import PostgresOtel.Producer.ErrorExport
import PostgresOtel.Producer.AccountRuns
import PostgresOtel.Trace.PlanShape
import PostgresOtel.Trace.PlanPath
import PostgresOtel.Trace.ChildParents
import PostgresOtel.Producer.LeakedActivations
import PostgresOtel.Client.Plain
import PostgresOtel.Exporter.DemoFile
import PostgresOtel.Sdt.OnProducer
import PostgresOtel.Producer.Births
import PostgresOtel.Producer.ClosedHandles
