import CPYuZe.Yolanda.ByteFifo
import CPYuZe.Yolanda.InterestSet
import CPYuZe.Yolanda.LiveCallbacks
import CPYuZe.Yolanda.WriteInterest
import CPYuZe.Yolanda.Framing
import CPYuZe.Yolanda.Shutdown
import CPYuZe.Yolanda.HeaderSection
import CPYuZe.Yolanda.ParserReturns
import CPYuZe.Yolanda.RequestRoundTrip
import CPYuZe.Yolanda.HeaderSlots
import CPYuZe.Yolanda.HeaderLookup
import CPYuZe.Yolanda.ResponseText
import CPYuZe.Yolanda.Persistence
import CPYuZe.Yolanda.PollTable
import CPYuZe.Yolanda.MissingChannel
import CPYuZe.Yolanda.Wakeup
import CPYuZe.Yolanda.Publication
import CPYuZe.Library.CondVar
import CPYuZe.ThreadPool.FixedThreadPool
import CPYuZe.AsioServer.ClientIp
import CPYuZe.Basis.BlockingQueue
import CPYuZe.Basis.CustomerData
import CPYuZe.Basis.StockFactory
import CPYuZe.ConnectionPool.Accounting
import CPYuZe.ConnectionPool.Waiting
import CPYuZe.Yolanda.Messages
import CPYuZe.Yolanda.Teardown
import CPYuZe.Yolanda.BufferGrowth
import CPYuZe.Yolanda.LineAgreement
import CPYuZe.Yolanda.LineEnds
import CPYuZe.Yolanda.Rejection
import CPYuZe.ConnectionPool.IdleOrder
import CPYuZe.ConnectionPool.Timeout
import CPYuZe.EpollServer.Reading
import CPYuZe.EpollServer.Accept
import CPYuZe.Yolanda.Names
import CPYuZe.Yolanda.Spreading
import CPYuZe.Yolanda.MapGrowth
import CPYuZe.ThreadPool.PoolObjects
import CPYuZe.Basis.TimedMutex
import CPYuZe.Library.Rotation
import CPYuZe.Library.CScan
import CPYuZe.Library.Crc
import CPYuZe.Library.Inet6
import CPYuZe.Library.TypeLengthValue
import CPYuZe.ProxyProtocol.AcceptedLines
import CPYuZe.ProxyProtocol.Create
import CPYuZe.ProxyProtocol.CreateBounds
import CPYuZe.ProxyProtocol.LineRoundTrip
import CPYuZe.ProxyProtocol.LookedUp
import CPYuZe.ProxyProtocol.Altered
import CPYuZe.ProxyProtocol.ParserRuns
import CPYuZe.ProxyProtocol.LineRuns
import CPYuZe.AsioServer.ProxyHeader
import CPYuZe.Yolanda.ThreadStart
import CPYuZe.AsioClient.Conversation
import CPYuZe.AsioClient.Echo
