import Multiplex.ScreenCodec.Channel
import Multiplex.ScreenProtocol.Framing
import Multiplex.ScreenInput.Holding
import Multiplex.Relay.Server
import Multiplex.Relay.Reconnect
import Multiplex.Relay.RateLimit
import Multiplex.Store.FailedCommits
import Multiplex.Store.Clients
import Multiplex.Store.JournalReads
import Multiplex.SessionHost.ExchangeRuns
import Multiplex.SessionHost.RequestRuns
import Multiplex.SessionHost.Resizes
import Multiplex.ReplicationSecurity.AuthorityRuns
import Multiplex.ControllerListener.Reconciliation
import Multiplex.ControllerListener.Agreement
import Multiplex.Store.SessionRuns
import Multiplex.ControllerListener.SessionPageRuns
import Multiplex.ControllerListener.PaneWriters
import Multiplex.ControllerListener.PaneViewRuns
import Multiplex.ControllerListener.TmuxHostRuns
import Multiplex.ControllerListener.WireGrowth
import Multiplex.ControllerListener.CommandDelivery
import Multiplex.ControllerListener.ScreenTickets
import Multiplex.ControllerListener.FrameQueue
import Multiplex.MobileVault.DeviceRuns
import Multiplex.Desktop.ScreenSharingRuns
import Multiplex.UpdateTrust.TrustRuns
import Multiplex.ScreenSession.RepairOnce
import Multiplex.ScreenSession.RepairArithmetic
import Multiplex.ScreenCodec.CacheRuns
import Multiplex.ScreenCodec.Scrolls
import Multiplex.ScreenCodec.MotionRuns
import Multiplex.ScreenCodec.TilePayloads
import Multiplex.ScreenCodec.FailedBatches
import Multiplex.ScreenCodec.BatchSizes
import Multiplex.ScreenHost.VideoLink
import Multiplex.ScreenHost.Ladder
import Multiplex.Store.RecoveryActorRuns
import Multiplex.Domain.Activity
import Multiplex.Domain.Attention
import Multiplex.ControllerListener.RateLimit
import Multiplex.Domain.Notifications
import Multiplex.Domain.Transcript
import Multiplex.SessionHost.SnapshotFrames
import Multiplex.Store.ScanTails
import Multiplex.Store.Records
import Multiplex.Store.Continuity
import Multiplex.ControllerBindings.RoutePlan
import Multiplex.ScreenCodec.Scale
import Multiplex.ScreenCodec.TileBits
