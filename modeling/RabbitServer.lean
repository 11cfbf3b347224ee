import RabbitServer.Net.BufferReadFd
import RabbitServer.Net.EventLoop
import RabbitServer.Net.RemovedOnce
import RabbitServer.Http.Establishing
import RabbitServer.Http.Draining
import RabbitServer.Http.Segmentation
import RabbitServer.Net.GracefulClose
import RabbitServer.Net.Destroyed
import RabbitServer.Net.SendingThreads
import RabbitServer.Net.EventLoopThread
import RabbitServer.Net.RepeatedTimer
import RabbitServer.Net.OneShotTimer
import RabbitServer.Http.ClosingResponse
import RabbitServer.Http.Incremental
import RabbitServer.Http.ResponseStream
import RabbitServer.Http.HeaderSection
import RabbitServer.Http.Rendering
import RabbitServer.Http.RequestGrammar
import RabbitServer.Http.Isolation
import RabbitServer.Net.Acceptor
import RabbitServer.Net.TimerDestroyed
import RabbitServer.Http.Receiving
import RabbitServer.Net.BufferCapacity
import RabbitServer.Net.BufferPieces
import RabbitServer.Net.ChannelView
import RabbitServer.Http.HostedService
import RabbitServer.Net.StoppingLoop
import RabbitServer.Net.LoopPool
import RabbitServer.Net.ConnectionNames
import RabbitServer.Net.ChannelsHeld
import RabbitServer.Net.SharedExtrabuf
import RabbitServer.Net.HandshakeProgress
import RabbitServer.Http.Dialogue
import RabbitServer.Http.ServerSurvival
import RabbitServer.Http.WholeStream
import RabbitServer.Net.BufferedOutput
import RabbitServer.Net.PollingLoop
import RabbitServer.Net.AtRest
import RabbitServer.Base.MutexLock
import RabbitServer.Net.LockedLoop
import RabbitServer.Net.LoopProgress
