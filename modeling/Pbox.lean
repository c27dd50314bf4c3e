import Pbox.Core.Identity
import Pbox.Core.MetadataRoundTrip
import Pbox.Core.ConfigSetters
import Pbox.Relay.WakeUp
import Pbox.Relay.Authority
import Pbox.Agent.Broadcast
import Pbox.Agent.Resize
import Pbox.Agent.Registry
import Pbox.Agent.SessionStart
import Pbox.Agent.ExecOutput
import Pbox.Agent.Incoming
import Pbox.Agent.Durable
import Pbox.Agent.TerminalKeys
import Pbox.Agent.TerminalModes
import Pbox.Agent.ProcessGroup
import Pbox.Forward.Progress
import Pbox.Files.Exact
import Pbox.Files.Atomic
import Pbox.Files.UploadTiming
import Pbox.Reverse.Delivery
import Pbox.Cli.Paste
import Pbox.Cli.SshInput
import Pbox.Cli.Inventory
import Pbox.Cli.DeletionMarkers
import Pbox.Cli.RecipeLock
import Pbox.Cli.RecipeRecords
import Pbox.Cli.ProvenanceRace
import Pbox.Cli.VmidRace
import Pbox.Cli.AgentUpdate
import Pbox.Cli.SnapshotRepair
import Pbox.Cli.DiscoveryFaults
import Pbox.Cli.Deletion
import Pbox.Cli.SshOutcome
import Pbox.Cli.BootstrapSafety
import Pbox.Cli.BootstrapRecovery
import Pbox.Cli.RelayCleanup
import Pbox.Core.VmidRange
import Pbox.Lib.Replace
import Pbox.Cli.PveToken
import Pbox.Cli.RecipeSource
import Pbox.Cli.ImageGrammar
import Pbox.Agent.Workspace
import Pbox.Agent.SendOutput
import Pbox.Cli.Rfb
import Pbox.Cli.RfbScreen
import Pbox.Cli.DesktopControl
import Pbox.Agent.TerminalHistory
import Pbox.Lib.PosixShell
import Pbox.Cli.ShellQuote
import Pbox.Cli.Completions
import Pbox.Cli.TaskLog
import Pbox.Cli.Titles
import Pbox.Cli.CloneNotes
import Pbox.Lib.Descent
import Pbox.Lib.FileTree
import Pbox.Cli.LocalTree
import Pbox.Cli.LocalWalk
import Pbox.Files.PathText
import Pbox.Cli.RecipeTree
import Pbox.Cli.RecipeConfinement
import Pbox.Cli.RecipeCatalog
import Pbox.Cli.RemoteCopy
import Pbox.Cli.RemoteFiles
import Pbox.Lib.Ecma48
import Pbox.Cli.Viewport
import Pbox.Cli.SessionViewer
import Pbox.Cli.SessionScreen
import Pbox.Cli.SessionRows
import Pbox.Cli.RecipeCache
import Pbox.Cli.CacheIntegrity
import Pbox.Cli.RecipeHistory
import Pbox.Cli.RecipeFreshness
import Pbox.Cli.RecipeRecovery
import Pbox.Lib.Spacing
import Pbox.Agent.Supervisor
import Pbox.Agent.Supervision
import Pbox.Lib.Rearrange
import Pbox.Cli.Placement
import Pbox.Cli.PlacementOrder
import Pbox.Lib.Dialogue
import Pbox.Cli.Lifecycle
import Pbox.Cli.LifecycleOrder
import Pbox.Cli.LifecycleRuns
