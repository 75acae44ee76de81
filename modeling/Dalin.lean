import Dalin.Library.Transition
import Dalin.Net.OutputStream
import Dalin.Net.PollerEvents
import Dalin.Net.LoopRun
import Dalin.Net.ConnectionView
import Dalin.Net.LoopViews
import Dalin.Net.ConnectionLife
import Dalin.Net.CloseOnce
import Dalin.Net.RemovedChannel
import Dalin.Net.FailedWrites
import Dalin.Net.GracefulShutdown
import Dalin.Net.EventLoop
import Dalin.Library.OrderedSet
import Dalin.Net.TimerQueue
import Dalin.Net.TimerTables
import Dalin.Net.FunctorQueue
import Dalin.Net.LoopStartup
import Dalin.Base.ThreadPool
import Dalin.Base.ThreadPoolWaits
import Dalin.Base.ThreadPoolTasks
import Dalin.Net.TimerRun
import Dalin.Net.TimerAlarm
import Dalin.Net.TimerCancel
import Dalin.Net.Connector
import Dalin.Net.ConnectorRun
import Dalin.Net.ConnectorAttempts
import Dalin.Net.ClientRun
import Dalin.Net.ClientReconnect
import Dalin.Net.ClientReuse
import Dalin.Net.ServerLifecycle
import Dalin.Net.ServerRun
import Dalin.Net.PollerHeld
import Dalin.Net.ChannelTracking
import Dalin.Net.ChannelDeletion
import Dalin.Net.ByteQueue
import Dalin.Base.MutexLock
import Dalin.Net.PollerUse
import Dalin.Net.EventDispatch
import Dalin.Net.TimerRelease
import Dalin.Net.TimerBatch
import Dalin.Net.TimerStale
import Dalin.Net.InputDelivery
import Dalin.Net.Ownership
import Dalin.Net.Custody
import Dalin.Net.CustodySteps
import Dalin.Net.OwnedRuns
import Dalin.Net.WordBuffer
import Dalin.Net.WordBufferRun
import Dalin.Net.BufferShrink
import Dalin.Net.BufferRoom
import Dalin.Net.ConnectorSockets
import Dalin.Net.SocketLives
import Dalin.Net.SocketRuns
import Dalin.Library.Monitor
import Dalin.Library.MonitorWork
import Dalin.Base.TaskQueue
import Dalin.Base.PoolProgram
import Dalin.Base.PoolSteps
import Dalin.Base.PoolRefinement
import Dalin.Base.PoolStop
import Dalin.Base.CountDownLatch
import Dalin.Library.RoundRobin
import Dalin.Net.EventLoopThreadPool
import Dalin.Net.LoopHandOver
import Dalin.Net.PoolStart
import Dalin.Net.ServerBalance
import Dalin.Library.SameOrder
import Dalin.Net.SentMessages
import Dalin.Net.StreamLink
import Dalin.Net.TimerRate
import Dalin.Net.RetryBackoff
import Dalin.Library.Printf
import Dalin.Base.Timestamp
import Dalin.Net.InetAddress
