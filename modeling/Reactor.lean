import Reactor.Net.BufferQueue
import Reactor.Net.BufferInput
import Reactor.Net.BufferSize
import Reactor.Net.FatalWrite
import Reactor.Net.FlowControl
import Reactor.Net.GracefulShutdown
import Reactor.Net.StringLifetime
import Reactor.Net.ConnectionDestroyed
import Reactor.Net.ServerDestroyed
import Reactor.Net.ClientStop
import Reactor.Net.Wakeup
import Reactor.Net.Quit
import Reactor.Net.EventLoopThread
import Reactor.Net.EpollInterest
import Reactor.Net.PollerAgreement
import Reactor.Net.PollIndex
import Reactor.Net.SendOverloads
import Reactor.Net.StateStores
import Reactor.Net.ConnectorReports
import Reactor.Net.ConnectorAccounting
import Reactor.Net.ConnectorProgress
import Reactor.Net.ConnectorStop
import Reactor.Base.TaskAccounting
import Reactor.Base.StopDeadlock
import Reactor.Timer.Arming
import Reactor.Http.Pipelining
import Reactor.Http.IncrementalParsing
import Reactor.Http.ResponseDecoding
import Reactor.Http.ParseVerdict
import Reactor.Http.BadRequest
import Reactor.Log.Stop
import Reactor.Log.AppendFile
import Reactor.Log.Durability
import Reactor.Log.Logger
import Reactor.Log.RawStream
import Reactor.Net.EchoServer
import Reactor.Net.ServerDescriptors
import Reactor.Net.ServerIsolation
import Reactor.Http.Wire
import Reactor.Net.ClientConnections
import Reactor.Log.LogFile
import Reactor.Net.Poll
import Reactor.Log.Blocks
import Reactor.Timer.Lifetime
import Reactor.Net.Backoff
import Reactor.Base.Thread
import Reactor.Net.ThreadTeardown
import Reactor.Http.Exchange
import Reactor.Net.ClientDestroyed
