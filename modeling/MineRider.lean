import MineRider.Soundness.BackoffDelays
import MineRider.Soundness.BlockPositions
import MineRider.Soundness.Callbacks
import MineRider.Soundness.ChunkReads
import MineRider.Soundness.CipherLink
import MineRider.Soundness.CollisionScan
import MineRider.Soundness.CommandSessions
import MineRider.Soundness.CompletedOutcomes
import MineRider.Soundness.Drags
import MineRider.Soundness.EventRelay
import MineRider.Soundness.FrameLimits
import MineRider.Soundness.Hotbar
import MineRider.Soundness.Lifecycle
import MineRider.Soundness.Loops
import MineRider.Soundness.MovementReports
import MineRider.Soundness.NbtResources
import MineRider.Soundness.PanelChildren
import MineRider.Soundness.PanelLines
import MineRider.Soundness.PlayerReports
import MineRider.Soundness.QueueClosing
import MineRider.Soundness.QueuePeaks
import MineRider.Soundness.RandomLook
import MineRider.Soundness.Reconfiguration
import MineRider.Soundness.Redaction
import MineRider.Soundness.Registry
import MineRider.Soundness.Respawns
import MineRider.Soundness.Retries
import MineRider.Soundness.ScoreboardCounts
import MineRider.Soundness.ServerHash
import MineRider.Soundness.SharedSizes
import MineRider.Soundness.SharedUpdates
import MineRider.Soundness.Socks5
import MineRider.Soundness.TextEncodings
import MineRider.Soundness.TimerRefinement
import MineRider.Soundness.TraceDiff
import MineRider.Soundness.TraceSymbols
import MineRider.Soundness.WindowEvents
import MineRider.Soundness.WireNumbers
