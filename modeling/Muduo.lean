import Muduo.Support.Queue
import Muduo.Source.BufferRuns
import Muduo.Guarantees.BufferQueue
import Muduo.Source.Channel
import Muduo.Source.TcpConnection
import Muduo.Source.Sending
import Muduo.Source.SendingExecution
import Muduo.Guarantees.OutgoingStream
import Muduo.Source.KqueuePoller
import Muduo.Source.KqueuePollerExecution
import Muduo.Guarantees.KqueueInterest
import Muduo.Source.PollPoller
import Muduo.Source.PollPollerExecution
import Muduo.Source.PollPollerRuns
import Muduo.Source.KqueuePollerRuns
import Muduo.Guarantees.PollersAlike
import Muduo.Guarantees.Wakeup
import Muduo.Guarantees.WakeupPipe
import Muduo.Source.Reactor
import Muduo.Source.ReactorLoop
import Muduo.Source.ReactorExecution
import Muduo.Source.ReactorRuns
import Muduo.Source.ReactorPollers
import Muduo.Guarantees.StateOrder
import Muduo.Guarantees.CloseOnce
import Muduo.Source.ReactorTeardown
import Muduo.Source.ReactorChannels
import Muduo.Guarantees.Teardown
import Muduo.Source.ReactorSending
import Muduo.Source.ReactorDelivery
import Muduo.Guarantees.HalfClose
import Muduo.Guarantees.TaskQueue
import Muduo.Guarantees.LoopShutdown
import Muduo.Guarantees.PollPollerSlots
import Muduo.Guarantees.MessageAfterDown
import Muduo.Source.ReactorEstablishing
import Muduo.Guarantees.ClosedSilence
import Muduo.Guarantees.NestedSends
import Muduo.Source.ReactorSharing
import Muduo.Source.ReactorCluster
import Muduo.Guarantees.ServerRemoval
import Muduo.Guarantees.WriteCompletion
import Muduo.Source.ReactorRemoval
import Muduo.Source.KqueuePollerLocality
import Muduo.Source.ReactorLifetime
import Muduo.Source.ReactorWatching
import Muduo.Guarantees.ConnectionLifetime
import Muduo.Source.ReactorServers
import Muduo.Source.ReactorServerRuns
import Muduo.Guarantees.ServerCycles
import Muduo.Guarantees.BufferBounds
import Muduo.Guarantees.BufferGrowth
import Muduo.Guarantees.SendNotices
import Muduo.Guarantees.HighWater
import Muduo.Guarantees.PollPollerReuse
import Muduo.Guarantees.KqueueRemoval
import Muduo.Guarantees.QuitRequests
import Muduo.Source.ReactorForcing
import Muduo.Guarantees.WriteInterest
import Muduo.Guarantees.HalfCloseDuty
import Muduo.Support.NamedTable
import Muduo.Source.TcpServer
import Muduo.Guarantees.ConnectionTable
import Muduo.Guarantees.PollPollerReports
import Muduo.Source.BufferWraps
import Muduo.Guarantees.BufferReservations
import Muduo.Guarantees.BufferShrinks
import Muduo.Source.Socket
import Muduo.Guarantees.DescriptorOwnership
import Muduo.Source.Acceptor
import Muduo.Guarantees.AcceptorSurvives
import Muduo.Source.ReactorOrder
import Muduo.Guarantees.SendOrder
import Muduo.Guarantees.UpFirst
import Muduo.Guarantees.SendAccount
import Muduo.Source.ReactorFaults
import Muduo.Source.ReactorRecords
import Muduo.Guarantees.NoOtherFault
import Muduo.Source.EventLoopThreadPool
import Muduo.Source.TcpServerStart
import Muduo.Source.TcpServerStartRuns
import Muduo.Guarantees.PooledDeployment
import Muduo.Guarantees.RoundRobin
import Muduo.Guarantees.ServerStart
import Muduo.Source.ReactorStreams
import Muduo.Source.TestServer
import Muduo.Source.TestServerRuns
import Muduo.Guarantees.Echo
import Muduo.Guarantees.ConnectionRelease
import Muduo.Source.ReactorWork
import Muduo.Source.ReactorProgress
import Muduo.Guarantees.BoundedWork
import Muduo.Source.ReactorReferences
import Muduo.Source.ReactorPipe
