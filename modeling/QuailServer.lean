import QuailServer.ConnectTunnel
import QuailServer.ConnectOrder
import QuailServer.GeneratedBytes
import QuailServer.RequestBody
import QuailServer.ResponseFraming
import QuailServer.ResponseOnce
import QuailServer.ResponseFlag
import QuailServer.HostPath
import QuailServer.SavedFormat
import QuailServer.SavedResponses
import QuailServer.HeaderLines
import QuailServer.StoreInvariant
import QuailServer.RejectedFiles
import QuailServer.ResponseStore
import QuailServer.StoreKeys
import QuailServer.LoaderAssertions
import QuailServer.SocketWakeups
import QuailServer.SessionRouting
import QuailServer.IncomingMessages
import QuailServer.OutgoingMessages
import QuailServer.VanishedStreams
import QuailServer.UniReplies
import QuailServer.BidirectionalEcho
import QuailServer.UnidirectionalEcho
import QuailServer.SigslotRuns
import QuailServer.MessageSignals
import QuailServer.ServedPages
import QuailServer.SavedPages
import QuailServer.DemoServer
import QuailServer.ReferenceCounted
import QuailServer.CopyOnWrite
import QuailServer.UriTemplates
import QuailServer.EchoWithoutFin
import QuailServer.EchoSession
import QuailServer.SpinMutex
import QuailServer.ScopedConnections
import QuailServer.ServerPages
import QuailServer.ServerLifetime
import QuailServer.ConnectionBlockers
