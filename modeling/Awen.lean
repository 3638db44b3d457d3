import Awen.Workbench.Reload
import Awen.Shared.JsRuntime
import Awen.Shared.DateTime
import Awen.Shared.Path
import Awen.Orchestration.Events
import Awen.Shared.ChangeRequestUrl
import Awen.Shared.ThreadPullRequests
import Awen.Orchestration.Projector
import Awen.Orchestration.Commands
import Awen.Orchestration.CommandInvariants
import Awen.Orchestration.Decider
import Awen.Shared.PlainRuntime
import Awen.Library.EventSourcing
import Awen.Library.SequencedLog
import Awen.Library.Runs
import Awen.Library.Thinning
import Awen.Orchestration.ThreadFold
import Awen.Orchestration.PlannedEvents
import Awen.Orchestration.ThreadRuns
import Awen.Orchestration.ProjectRuns
import Awen.Orchestration.TitleRuns
import Awen.Orchestration.OpenRequests
import Awen.Orchestration.SettledThreads
import Awen.Orchestration.Engine
import Awen.Orchestration.CommandReceipts
import Awen.Orchestration.EventDelivery
import Awen.Orchestration.LiveCoalescer
import Awen.Orchestration.ThreadReducer
import Awen.Orchestration.ClientThreads
import Awen.Orchestration.BatchedItems
import Awen.Library.Table
import Awen.Library.Unicode
import Awen.Library.Scanner
import Awen.Library.LongestSuffix
import Awen.Orchestration.ThreadTables
import Awen.Orchestration.ThreadProjections
import Awen.Orchestration.LifecycleAgreement
import Awen.Orchestration.LinkAgreement
import Awen.Orchestration.DismissedLinks
import Awen.Workbench.TabHistory
import Awen.Workbench.TabSteps
import Awen.Workbench.DropHistory
import Awen.Workbench.WelcomeRuns
import Awen.Workbench.LayoutSwitch
import Awen.Terminal.TerminalOutput
import Awen.Terminal.OutputReader
import Awen.Terminal.HistorySanitizer
import Awen.Terminal.BoundedHistory
import Awen.Terminal.HistoryLimits
import Awen.Terminal.SessionHistory
import Awen.Terminal.KeptSequences
import Awen.Terminal.HistoryReplay
import Awen.Orchestration.SessionLifecycle
import Awen.Orchestration.ActiveTurn
import Awen.Library.Occurrences
import Awen.Composer.ContextReferences
import Awen.Composer.EnvelopeTags
import Awen.Composer.ProviderProjection
import Awen.Orchestration.TurnRows
import Awen.Orchestration.CheckpointWorkers
import Awen.Orchestration.CheckpointNumbers
import Awen.Connection.Supervisor
import Awen.Connection.LastIntent
import Awen.Orchestration.OpenQuestions
import Awen.Orchestration.Settlement
import Awen.Orchestration.RepeatedCommands
import Awen.Library.VersionLog
import Awen.Project.WorktreeSetup
import Awen.Project.SetupTracker
import Awen.Project.SetupStreams
import Awen.Project.SetupRuns
import Awen.Auth.SessionStore
import Awen.Auth.SessionTokens
import Awen.Auth.LiveSessions
import Awen.Orchestration.LiveStreamBudget
import Awen.Library.Batches
import Awen.Shared.KeyedCoalescingWorker
import Awen.Orchestration.ActivityIndex
import Awen.Shared.PullRequestChains
import Awen.Orchestration.PinOrderKeys
import Awen.Orchestration.QueuedThreads
import Awen.Workbench.DecodedTabs
import Awen.Workbench.SessionRepair
import Awen.Workbench.LayoutMoves
import Awen.Library.Boxes
import Awen.Workbench.LayoutGeometry
import Awen.Workbench.PaneTiling
import Awen.Library.TextLines
import Awen.Orchestration.BufferedText
import Awen.Orchestration.AssistantDeliveries
import Awen.Orchestration.ShellReads
import Awen.Terminal.OutputWindow
import Awen.Library.LeftChains
import Awen.Keybindings.WhenExpression
import Awen.Keybindings.Shortcut
import Awen.Keybindings.WhenPrinter
import Awen.Keybindings.RuleCodec
import Awen.Composer.CleanLabels
import Awen.Composer.ReferenceRoundTrip
import Awen.Subagents.Fold
import Awen.Subagents.RowEffects
import Awen.Subagents.Lifecycle
import Awen.Subagents.FoldRuns
import Awen.Subagents.ConsistentLifecycles
import Awen.Library.CallTrees
import Awen.Library.IndexLoop
import Awen.WorkLog.CommandSplit
import Awen.WorkLog.CommandTokens
import Awen.WorkLog.CommandCalls
import Awen.WorkLog.ShellTokens
import Awen.Shared.StringUnits
import Awen.Subagents.AgentPanel
import Awen.Library.SemverPrecedence
import Awen.Shared.Semver
import Awen.Shared.VersionTexts
import Awen.Shared.SemverOrder
import Awen.Shared.DelimitedPreview
import Awen.Shared.DelimitedTables
import Awen.Library.FirstGreatest
import Awen.Project.ProjectGroups
import Awen.Timeline.Entries
import Awen.Timeline.IncrementalEntries
import Awen.Timeline.TimelineRows
import Awen.Library.PercentEncoding
import Awen.Library.Matches
import Awen.Citations.AssistantCitations
import Awen.Citations.CitationHrefs
import Awen.Citations.CitationTexts
import Awen.Limits.LimitAccounts
import Awen.Limits.PooledAccounts
import Awen.Limits.LimitViews
import Awen.Search.RankedResults
import Awen.Composer.QueuedMessages
import Awen.Library.Transducers
import Awen.Library.TextDecoder
import Awen.Vcs.OutputCapture
import Awen.Timeline.TurnDiffTree
import Awen.Timeline.TurnDiffTreeFiles
import Awen.Timeline.TurnDiffTreePaths
import Awen.Library.Decimals
import Awen.Vcs.GitStatus
import Awen.Vcs.StatusNames
import Awen.Vcs.GitConfig
import Awen.Vcs.ConfigValues
import Awen.Vcs.OriginUrl
import Awen.Panel.RightPanel
import Awen.Panel.RightPanelForm
import Awen.Panel.RightPanelRuns
import Awen.Panel.DismissedDevices
import Awen.Orchestration.EventBatches
import Awen.Orchestration.ReadModelForm
import Awen.Search.QueryMatches
