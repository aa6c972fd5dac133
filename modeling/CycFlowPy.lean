import CycFlowPy.Lib.Runs
import CycFlowPy.Lib.Ring
import CycFlowPy.Lib.KeepAlive
import CycFlowPy.Lib.Slices
import CycFlowPy.Lib.Utf8
import CycFlowPy.Lib.PyText
import CycFlowPy.Lib.Recent
import CycFlowPy.Lib.Monitor
import CycFlowPy.Model.Stream
import CycFlowPy.Model.StreamCleanup
import CycFlowPy.Model.StreamConnect
import CycFlowPy.Model.CbfArray
import CycFlowPy.Model.Channel
import CycFlowPy.Model.ReceiverGil
import CycFlowPy.Model.TcpServer
import CycFlowPy.Model.TcpServerThreads
import CycFlowPy.Model.BufferClients
import CycFlowPy.Model.RecordMemory
import CycFlowPy.Model.NumpyBridge
import CycFlowPy.Model.NameField
import CycFlowPy.Model.RecordPaths
import CycFlowPy.Model.Publish
import CycFlowPy.Model.ViewerTracks
import CycFlowPy.Model.ViewerWindow
import CycFlowPy.Model.PublishToViewer
import CycFlowPy.Model.ViewerSession
import CycFlowPy.Model.ServedBuffers
import CycFlowPy.Model.ProcessGil
import CycFlowPy.Model.LivePlot
import CycFlowPy.Model.NamedRule
import CycFlowPy.Model.DiscoveryDialog
import CycFlowPy.Model.Discover
import CycFlowPy.Model.RunningStats
import CycFlowPy.Model.StreamCopy
import CycFlowPy.Model.SnapshotRace
import CycFlowPy.Proofs.StreamDelivery
import CycFlowPy.Proofs.StreamWakeups
import CycFlowPy.Proofs.StreamCleanup
import CycFlowPy.Proofs.StreamConnect
import CycFlowPy.Proofs.CbfDrain
import CycFlowPy.Proofs.ChannelHistory
import CycFlowPy.Proofs.ReceiverGil
import CycFlowPy.Proofs.TcpServerCalls
import CycFlowPy.Proofs.TcpServerThreads
import CycFlowPy.Proofs.BufferClients
import CycFlowPy.Proofs.RecordMemory
import CycFlowPy.Proofs.RecordLayout
import CycFlowPy.Proofs.FieldBytes
import CycFlowPy.Proofs.NameField
import CycFlowPy.Proofs.RecordPaths
import CycFlowPy.Proofs.PublishLoop
import CycFlowPy.Proofs.PublishByName
import CycFlowPy.Proofs.ViewerTracks
import CycFlowPy.Proofs.ViewerWindow
import CycFlowPy.Proofs.PublishToViewer
import CycFlowPy.Proofs.Republish
import CycFlowPy.Proofs.StreamProgress
import CycFlowPy.Proofs.ViewerSession
import CycFlowPy.Proofs.ServedBuffers
import CycFlowPy.Proofs.ProcessGil
import CycFlowPy.Proofs.LivePlot
import CycFlowPy.Proofs.NamedRule
import CycFlowPy.Proofs.DiscoveryDialog
import CycFlowPy.Proofs.Discover
import CycFlowPy.Proofs.RunningStats
import CycFlowPy.Proofs.StreamCopy
import CycFlowPy.Proofs.SnapshotRace
