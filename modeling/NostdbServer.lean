import NostdbServer.Lib.OrdMap
import NostdbServer.Lib.Run
import NostdbServer.Lib.Script
import NostdbServer.Lib.Utf8
import NostdbServer.Diagnostic
import NostdbServer.Json
import NostdbServer.JsonText
import NostdbServer.Frame
import NostdbServer.Message
import NostdbServer.Decoding
import NostdbServer.Catalog
import NostdbServer.CatalogRoundTrip
import NostdbServer.CatalogRepair
import NostdbServer.CatalogGrammar
import NostdbServer.Session
import NostdbServer.SlotHistory
import NostdbServer.Engine
import NostdbServer.Response
import NostdbServer.Serve
import NostdbServer.Machine
import NostdbServer.Lib.Ledger
import NostdbServer.Commits
import NostdbServer.CatalogMutation
import NostdbServer.StoreFailure
import NostdbServer.Effects
import NostdbServer.Lifecycle
import NostdbServer.Handling
import NostdbServer.CatalogNames
import NostdbServer.QueryDatabase
import NostdbServer.Replies
import NostdbServer.Correlation
import NostdbServer.Handshake
import NostdbServer.Codes
import NostdbServer.Outstanding
import NostdbServer.FailStop
import NostdbServer.Refinement
import NostdbServer.FrameRoundTrip
import NostdbServer.FrameScan
import NostdbServer.Ending
import NostdbServer.TooLarge
import NostdbServer.AutoCommit
import NostdbServer.CatalogHistory
import NostdbServer.WakeUp
import NostdbServer.Chunking
import NostdbServer.Endpoint
import NostdbServer.Daemon
import NostdbServer.Served
import NostdbServer.Client
import NostdbServer.Lib.Nesting
import NostdbServer.CatalogTruncation
import NostdbServer.CatalogRegister
import NostdbServer.CatalogCrash
import NostdbServer.Lib.Register
