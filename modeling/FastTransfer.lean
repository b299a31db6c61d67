import FastTransfer.Core.Acknowledgement
import FastTransfer.Core.Approval
import FastTransfer.Core.CanonicalStream
import FastTransfer.Core.Completion
import FastTransfer.Core.Confinement
import FastTransfer.Core.CrashFreedom
import FastTransfer.Core.Exchange
import FastTransfer.Core.FlowControl
import FastTransfer.Core.Footprint
import FastTransfer.Core.Handshake
import FastTransfer.Core.History
import FastTransfer.Core.IncomingConnection
import FastTransfer.Core.Interruption
import FastTransfer.Core.Liveness
import FastTransfer.Core.Loopback
import FastTransfer.Core.PauseAgreement
import FastTransfer.Core.Resumption
import FastTransfer.Core.SenderProgress
import FastTransfer.Core.SessionFolder
import FastTransfer.Core.Survival
import FastTransfer.Core.Terminal
import FastTransfer.Core.Unstuck
import FastTransfer.Filesystem.DistinctPaths
import FastTransfer.Filesystem.Resume
import FastTransfer.Filesystem.UniqueName
import FastTransfer.Library.Framing
import FastTransfer.Network.BufferBound
import FastTransfer.Network.ChunkPayload
import FastTransfer.Network.PathSafety
import FastTransfer.Network.PeerTable
import FastTransfer.Network.Progress
import FastTransfer.Network.RoundTrip
import FastTransfer.Network.TcpConnection
import FastTransfer.Platform.PathDepth
