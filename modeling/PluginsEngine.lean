import PluginsEngine.Net.BufferQueue
import PluginsEngine.Event.Coherence
import PluginsEngine.Event.StaleDispatch
import PluginsEngine.Engine.FdMonitor
import PluginsEngine.Event.EventFd
import PluginsEngine.Net.TcpConnect
import PluginsEngine.Net.Backlog
import PluginsEngine.Library.Multimap
import PluginsEngine.Timer.Timer
import PluginsEngine.Timer.TimerQueue
import PluginsEngine.Timer.Conservation
import PluginsEngine.Timer.Arming
import PluginsEngine.Timer.Cover
import PluginsEngine.Event.Registration
import PluginsEngine.Net.HalfClose
import PluginsEngine.Net.CloseIsFinal
import PluginsEngine.Net.ConnectPool
import PluginsEngine.Net.Lifetime
import PluginsEngine.Net.SharedLoops
import PluginsEngine.Net.ServerProtocol
import PluginsEngine.Timer.TimerMutex
import PluginsEngine.Event.RunInLoop
import PluginsEngine.Plugin.PluginMap
import PluginsEngine.Plugin.PluginCreator
import PluginsEngine.Plugin.Search
import PluginsEngine.Plugin.Registered
import PluginsEngine.Adapter.IOContextAdapter
import PluginsEngine.Adapter.Waits
import PluginsEngine.Event.FailedAdd
import PluginsEngine.Event.Drivers
import PluginsEngine.Engine.Reports
import PluginsEngine.SignalMonitor.SignalMonitor
import PluginsEngine.Plugin.Existing
import PluginsEngine.Net.AddressText
import PluginsEngine.Net.BufferIndex
import PluginsEngine.Timer.DueTimers
import PluginsEngine.Timer.Termination
import PluginsEngine.Library.RoundRobin
import PluginsEngine.Thread.EventThreadPool
import PluginsEngine.Engine.TimedWait
import PluginsEngine.Event.WaitSize
import PluginsEngine.Net.AddressNames
import PluginsEngine.Adapter.Delivery
import PluginsEngine.Adapter.Registrations
import PluginsEngine.Library.Delimiter
import PluginsEngine.Net.Framing
import PluginsEngine.Net.AddressGrammar
import PluginsEngine.Thread.EventThread
import PluginsEngine.Library.Segments
import PluginsEngine.Plugin.PathList
import PluginsEngine.Library.MachineInt
import PluginsEngine.Timer.Deadline
import PluginsEngine.Library.Channel
import PluginsEngine.Net.Link
import PluginsEngine.Event.Watched
import PluginsEngine.Event.Wakeup
import PluginsEngine.Engine.Services
import PluginsEngine.Net.TcpAccept
import PluginsEngine.SignalMonitor.SignalProcess
import PluginsEngine.SignalMonitor.SignalDelivery
import PluginsEngine.Thread.InitReturns
import PluginsEngine.Net.ServerStreams
import PluginsEngine.Timer.TimerLoop
import PluginsEngine.Engine.PluginData
import PluginsEngine.Event.LoopRun
import PluginsEngine.Net.Descriptors
import PluginsEngine.Thread.Thread
import PluginsEngine.Thread.PoolThreads
import PluginsEngine.Net.PostedWrites
import PluginsEngine.Net.PostedLifetime
