import Zbroker.Found.Transition
import Zbroker.Found.Feed
import Zbroker.Found.Codec
import Zbroker.Found.Waiters
import Zbroker.Found.Shared
import Zbroker.Found.Unwinding
import Zbroker.Found.Simulation
import Zbroker.Found.Forward
import Zbroker.Found.Ranking
import Zbroker.Found.Parallel
import Zbroker.Broker.Pagination
import Zbroker.Broker.Descending
import Zbroker.Broker.BatchPop
import Zbroker.Broker.Options
import Zbroker.Processor.Response
import Zbroker.Processor.Buffer
import Zbroker.Processor.DoRead
import Zbroker.Processor.BatchSize
import Zbroker.Queue.Threads
import Zbroker.Queue.Front
import Zbroker.Queue.Wakeups
import Zbroker.Queue.Contents
import Zbroker.Session.Read
import Zbroker.Session.Effect
import Zbroker.Session.ReadFeed
import Zbroker.Session.Delivery
import Zbroker.Session.AtMostOnce
import Zbroker.Session.Rewind
import Zbroker.Session.Order
import Zbroker.Session.NoMoreItem
import Zbroker.Session.Deadlock
import Zbroker.Session.QueryMutex
import Zbroker.Session.ReadEnds
import Zbroker.Session.ReadHang
import Zbroker.Session.ReadRequest
import Zbroker.Session.Write
import Zbroker.Session.Updates
import Zbroker.Session.WriteOrder
import Zbroker.Session.WriteEnds
import Zbroker.Packet.InPacket
import Zbroker.Packet.Decimal
import Zbroker.Packet.OutPacket
import Zbroker.Packet.RoundTrip
import Zbroker.Packet.ClientPacket
import Zbroker.Server.Connections
import Zbroker.Server.Refcount
import Zbroker.Server.Answer
import Zbroker.Server.Sharing
import Zbroker.Server.Ports
import Zbroker.Server.Socket
import Zbroker.Server.Reception
import Zbroker.Server.Pipelining
import Zbroker.Server.Lifetime
import Zbroker.Server.Orderly
import Zbroker.Server.Isolation
import Zbroker.Server.Served
import Zbroker.Server.Writes
import Zbroker.Server.Replies
import Zbroker.Server.Routing
import Zbroker.Server.Disconnect
import Zbroker.Server.FailedOpen
import Zbroker.Session.Operations
import Zbroker.Session.Reopened
import Zbroker.Broker.ConnectionText
import Zbroker.Client.Socket
import Zbroker.Client.Proxy
import Zbroker.Client.Reception
import Zbroker.Client.Retry
import Zbroker.Client.Calls
import Zbroker.Client.Returns
