import LocationServer.Addin
import LocationServer.Base
import LocationServer.Concurrency.ChunkQueue
import LocationServer.Concurrency.GridCalls
import LocationServer.Concurrency.GridReachability
import LocationServer.Concurrency.HandOff
import LocationServer.Concurrency.QueryAnswers
import LocationServer.Concurrency.QueryCalls
import LocationServer.Concurrency.QueueConservation
import LocationServer.Concurrency.QueueDelivery
import LocationServer.Concurrency.QueueLifecycle
import LocationServer.Concurrency.QueueThreads
import LocationServer.Concurrency.StoreAgreement
import LocationServer.Concurrency.StoreCalls
import LocationServer.Foundation.CommutingSteps
import LocationServer.Foundation.CountedLoop
import LocationServer.Foundation.Decimal
import LocationServer.Foundation.Declarations
import LocationServer.Foundation.Delimited
import LocationServer.Foundation.Enumeration
import LocationServer.Foundation.Floating
import LocationServer.Foundation.FormEncoding
import LocationServer.Foundation.Journal
import LocationServer.Foundation.ModularWindow
import LocationServer.Foundation.Selection
import LocationServer.Foundation.ShiftReduce
import LocationServer.Foundation.StepSystem
import LocationServer.Foundation.Threads
import LocationServer.Foundation.Tokens
import LocationServer.Foundation.Utf16
import LocationServer.Foundation.Utf8
import LocationServer.Foundation.ValidTables
import LocationServer.Foundation.WriteBehind
import LocationServer.Foundation.Xml
import LocationServer.Foundation.XmlAttributes
import LocationServer.Foundation.XmlContent
import LocationServer.Geo
import LocationServer.Grid.AgeFilter
import LocationServer.Grid.AxisIndex
import LocationServer.Grid.CellId
import LocationServer.Grid.Cells
import LocationServer.Grid.Ordering
import LocationServer.Grid.Pruning
import LocationServer.Grid.Range
import LocationServer.Grid.Records
import LocationServer.Grid.RegionLimit
import LocationServer.Http
import LocationServer.Http.FormRequest
import LocationServer.Http.Parameters
import LocationServer.Http.QueryString
import LocationServer.Http.Response
import LocationServer.Http.ResponseShape
import LocationServer.Idl.Codec
import LocationServer.Idl.Generator
import LocationServer.Idl.Hygiene
import LocationServer.Idl.Identifier
import LocationServer.Idl.Lexer
import LocationServer.Idl.Parser
import LocationServer.Idl.ParserAgreement
import LocationServer.Idl.ParserSafety
import LocationServer.Idl.RoundTrip
import LocationServer.Idl.Scoping
import LocationServer.Idl.Sequences
import LocationServer.Idl.Syntax
import LocationServer.Idl.Tables
import LocationServer.Idl.Totality
import LocationServer.Idl.Types
import LocationServer.Map
import LocationServer.Message
import LocationServer.Message.Decoding
import LocationServer.Message.Members
import LocationServer.Message.Storage
import LocationServer.Mongo
import LocationServer.Pool
import LocationServer.Query
import LocationServer.Rpc.Arguments
import LocationServer.Rpc.BufferBound
import LocationServer.Rpc.Callbacks
import LocationServer.Rpc.Completion
import LocationServer.Rpc.Connection
import LocationServer.Rpc.Correlation
import LocationServer.Rpc.Dispatch
import LocationServer.Rpc.Envelope
import LocationServer.Rpc.Iterations
import LocationServer.Rpc.OwnCalls
import LocationServer.Rpc.ReadLoop
import LocationServer.Rpc.Renaming
import LocationServer.Rpc.Sequence
import LocationServer.Rpc.Session
import LocationServer.Rpc.SessionAnswers
import LocationServer.Rpc.SessionNumbers
import LocationServer.Rpc.SessionSafety
import LocationServer.Rpc.StrayText
import LocationServer.Rpc.WakeUp
import LocationServer.Rpc.Wire
import LocationServer.Rpc.WireMessages
import LocationServer.Rpc.WireRuns
import LocationServer.Rpc.WireSession
import LocationServer.Server
import LocationServer.Server.Completeness
import LocationServer.Server.CurrentRecords
import LocationServer.Server.Generations
import LocationServer.Server.Indexing
import LocationServer.Server.Pipeline
import LocationServer.Server.PlainConfig
import LocationServer.Server.Shutdown
import LocationServer.Server.Startup
import LocationServer.Sync
import LocationServer.Sync.Accounting
import LocationServer.Sync.Divergence
import LocationServer.Sync.Recovery
import LocationServer.Sync.Runs
import LocationServer.Text
import LocationServer.TinyXml.Messages
import LocationServer.TinyXml.Parsing
import LocationServer.TinyXml.Reading
import LocationServer.TinyXml.Safety
import LocationServer.TinyXml.Spelling
import LocationServer.TinyXml.Stamp
