import AiTools.Daemon.FrameDecoder
import AiTools.Daemon.Session.PauseGate
import AiTools.Daemon.Checkpointer.Persist
import AiTools.Daemon.Checkpointer.Dirty
import AiTools.Daemon.Server.OneSession
import AiTools.Client.ExitDelivery
import AiTools.Client.RequestOutcomes
import AiTools.Client.PauseRecords
import AiTools.Whip.LiveAssignment
import AiTools.Whip.DependencyGraph
import AiTools.Whip.GraphLayers
import AiTools.Whip.AssignedOnce
import AiTools.Whip.RemotePruning
import AiTools.Whip.ArchiveIndex
import AiTools.Whip.Archiving
import AiTools.Vaultkey.SyncMutation
import AiTools.GitDiff.MultiHunk
import AiTools.Vaultkey.SlotBinding
import AiTools.Vaultkey.VaultContents
import AiTools.Grove.MissionSafety
import AiTools.Grove.ConfigSaves
import AiTools.Irc.InboxSafety
import AiTools.Irc.PresenceSafety
import AiTools.Terminal.PasteFrames
import AiTools.Webform.RoundTrip
import AiTools.Grove.ProjectSafety
import AiTools.Client.ReplayGate
import AiTools.Daemon.Session.PtyWriterSafety
import AiTools.Grove.TabStore
import AiTools.Grove.DiffStore
import AiTools.Daemon.History.ColdState
import AiTools.Grove.ProjectStore
import AiTools.Daemon.Session.PendingRecords
import AiTools.Daemon.History.IdCodecs
import AiTools.GitDiff.ConflictRanges
import AiTools.Daemon.ModeState.WellFormed
import AiTools.Daemon.EmulatorProcess
import AiTools.Daemon.EnsureRunning
import AiTools.Daemon.Session.ExitOrder
import AiTools.Grove.SourceSyncSafety
import AiTools.GitDiff.ContextLoading
import AiTools.Grove.PreferencesStore
import AiTools.Grove.ProjectRegistry
import AiTools.Terminal.PtySizes
import AiTools.Grove.FileBrowserStore
import AiTools.GitDiff.Discarding
import AiTools.Grove.FileListings
import AiTools.Upgrade.Install
import AiTools.Grove.BrowserStore
import AiTools.Daemon.AgentBadges
import AiTools.Grove.AgentHooks
import AiTools.Grove.ShellEnv
import AiTools.Daemon.SnapshotTail
import AiTools.Rewind.Kept
import AiTools.Grove.MissionAgreement
import AiTools.Rewind.Viewer
import AiTools.Grove.SplitTreeLaws
import AiTools.Grove.WorktreeTreeShown
import AiTools.Whip.IrcNames
import AiTools.Vaultkey.Panics
import AiTools.Terminal.PasteSplit
import AiTools.Terminal.InputOrder
import AiTools.Terminal.PtyReconcile
import AiTools.GitDiff.Intraline
import AiTools.Redit.Store
import AiTools.Client.ColdRestore
import AiTools.Grove.BroadcastStore
import AiTools.Pipemd.Sanitize
