import OpentelemetryExt.OtelExporter.Shards
import OpentelemetryExt.OtelExporter.Frames
import OpentelemetryExt.Lib.Delimited
import OpentelemetryExt.Ini
import OpentelemetryExt.Sdk
import OpentelemetryExt.ZendHook.Redis
import OpentelemetryExt.ZendHook.Memcached
import OpentelemetryExt.ZendHook.Pdo
import OpentelemetryExt.ZendHook.Mysqli
import OpentelemetryExt.ZendHook.Yar
import OpentelemetryExt.ZendHook.Error
import OpentelemetryExt.ZendHook.Curl
import OpentelemetryExt.ZendHook.Transparent
import OpentelemetryExt.ZendHook.Registry
import OpentelemetryExt.ZendHook.Unhooking
import OpentelemetryExt.ZendHook.Extraction
import OpentelemetryExt.Session
import OpentelemetryExt.Session.Hooks
import OpentelemetryExt.Session.Start
import OpentelemetryExt.Session.Events
import OpentelemetryExt.Session.Guard
import OpentelemetryExt.Session.Slots
import OpentelemetryExt.Session.Phases
import OpentelemetryExt.Session.Aged
import OpentelemetryExt.Session.Afresh
import OpentelemetryExt.Session.Density
import OpentelemetryExt.Session.Trace
import OpentelemetryExt.Session.Chain
import OpentelemetryExt.Session.HeaderStore
import OpentelemetryExt.Session.Ledger
import OpentelemetryExt.Session.HeaderLists
import OpentelemetryExt.Provider.Steps
import OpentelemetryExt.Provider.Sampling
import OpentelemetryExt.Provider.TraceParent
import OpentelemetryExt.Provider.Views
import OpentelemetryExt.Provider.Baggage
import OpentelemetryExt.Provider.Relay
import OpentelemetryExt.Session.Inner
import OpentelemetryExt.Session.Footprint
import OpentelemetryExt.Lib.Growing
import OpentelemetryExt.Session.Journal
import OpentelemetryExt.Session.Reflection
import OpentelemetryExt.Session.Exported
import OpentelemetryExt.Session.EventLog
import OpentelemetryExt.Session.Tree
import OpentelemetryExt.Session.Outcomes
import OpentelemetryExt.Session.CallStack
import OpentelemetryExt.Session.Ended
import OpentelemetryExt.Session.Charged
import OpentelemetryExt.Session.ServiceName
import OpentelemetryExt.Session.HeaderLines
import OpentelemetryExt.Provider.Resampling
import OpentelemetryExt.Session.Consumers
import OpentelemetryExt.Provider.Agreement
import OpentelemetryExt.Session.Cycles
import OpentelemetryExt.Session.Verdicts
import OpentelemetryExt.Session.Reentrancy
import OpentelemetryExt.Lib.Relational
import OpentelemetryExt.Provider.Bodies
import OpentelemetryExt.Provider.Slotted
import OpentelemetryExt.Provider.Twin
import OpentelemetryExt.Provider.Interleaved
import OpentelemetryExt.Provider.Elapsed
import OpentelemetryExt.Stacktrace
import OpentelemetryExt.ZendHook.Target
import OpentelemetryExt.OtelExporter.Receivers
import OpentelemetryExt.Timer
import OpentelemetryExt.Timer.Tasks
import OpentelemetryExt.Sdk.Totality
import OpentelemetryExt.Session.HeaderArrays
import OpentelemetryExt.ZendHook.Response
import OpentelemetryExt.ZendHook.Connection
import OpentelemetryExt.ZendHook.Statement
import OpentelemetryExt.Lib.Channel
import OpentelemetryExt.OtelExporter.Accounts
import OpentelemetryExt.OtelExporter.Families
import OpentelemetryExt.OtelExporter.Pool
import OpentelemetryExt.OtelExporter.Collector
import OpentelemetryExt.Session.RemoteCalls
