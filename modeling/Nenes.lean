import Nenes.Isolation
import Nenes.WholeFrames
import Nenes.Segmentation
import Nenes.Notifications
import Nenes.FileFrames
import Nenes.JoinGate
import Nenes.Monitor
import Nenes.JoinGrammar
import Nenes.RejectedChunks
import Nenes.NotificationPage
import Nenes.OperationDispatch
import Nenes.FileDispatch
import Nenes.Base.Json
import Nenes.SavedConfiguration
import Nenes.DirWatchService
import Nenes.WatchedDirectory
import Nenes.FileTransfer
import Nenes.FileLengths
import Nenes.FileSent
import Nenes.FileHandles
import Nenes.FileCommand
import Nenes.FileHeaders
import Nenes.StaleAgents
import Nenes.Broadcast
import Nenes.SessionIds
import Nenes.WatchLoop
import Nenes.WatchRegistration
import Nenes.RegistryLog
import Nenes.OperationCommand
import Nenes.MixedFrames
import Nenes.UncontendedChannels
import Nenes.FrameKinds
import Nenes.WebService
import Nenes.AccountedWrites
import Nenes.ClosedConnections
import Nenes.TelnetCommands
import Nenes.NotificationMenu
import Nenes.MonitorBroadcast
import Nenes.FilePage
import Nenes.Pages
import Nenes.RequestTermination
import Nenes.ListedAgents
import Nenes.ServedPages
import Nenes.BufferedWrites
import Nenes.PageFrames
import Nenes.SentEvents
import Nenes.Console
import Nenes.AttendedPages
