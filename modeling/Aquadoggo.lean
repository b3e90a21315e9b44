import Aquadoggo.Library.Transition
import Aquadoggo.Library.AssocList
import Aquadoggo.Library.OptionList
import Aquadoggo.Library.Blake3
import Aquadoggo.Data.Types
import Aquadoggo.Db.Tables
import Aquadoggo.Db.Stores
import Aquadoggo.Db.Writes
import Aquadoggo.Materializer.Reduce
import Aquadoggo.Replication.Message
import Aquadoggo.Replication.LogHeight
import Aquadoggo.Replication.EntryOrder
import Aquadoggo.Replication.Session
import Aquadoggo.Replication.SessionRuns
import Aquadoggo.Replication.Manager
import Aquadoggo.Replication.SessionTable
import Aquadoggo.Replication.TwoPeers
import Aquadoggo.Materializer.Worker
import Aquadoggo.Materializer.TaskStatus
import Aquadoggo.Materializer.GarbageCollection
import Aquadoggo.Library.Base58
import Aquadoggo.Query.Cursor
import Aquadoggo.Library.Like
import Aquadoggo.Query.Filter
import Aquadoggo.Query.Sql
import Aquadoggo.Query.Store
import Aquadoggo.Query.Paginate
import Aquadoggo.Query.Reference
import Aquadoggo.Replication.Requests
import Aquadoggo.Replication.Diff
import Aquadoggo.Library.SortedSet
import Aquadoggo.Replication.SchemaIdSet
import Aquadoggo.Query.FilterOrder
import Aquadoggo.Replication.TargetSet
import Aquadoggo.Library.Text
import Aquadoggo.Db.OperationRows
import Aquadoggo.Db.RowsRoundTrip
import Aquadoggo.Library.Except
import Aquadoggo.Library.Cbor
import Aquadoggo.Replication.Wire
import Aquadoggo.Db.Blob
import Aquadoggo.Replication.Convergence
import Aquadoggo.Replication.Coverage
import Aquadoggo.Replication.Handling
import Aquadoggo.Api.Migration
import Aquadoggo.Query.Convert
import Aquadoggo.Network.Handler
import Aquadoggo.Network.HandlerOrder
import Aquadoggo.Replication.Service
import Aquadoggo.Replication.ServiceRuns
import Aquadoggo.Replication.LocalSessions
import Aquadoggo.Replication.ServiceStores
import Aquadoggo.Replication.ServiceSends
import Aquadoggo.Network.Behaviour
import Aquadoggo.Network.Stack
