import BrickTrace.Lib.OrderedMap
import BrickTrace.Lib.Runs
import BrickTrace.Lib.Loops
import BrickTrace.Lib.HighWater
import BrickTrace.Lib.HubReplicas
import BrickTrace.Lib.Interleaving
import BrickTrace.Lib.FirstSeen
import BrickTrace.Lib.LastWrite
import BrickTrace.Lib.TwoSidedLinks
import BrickTrace.Lib.LikePattern
import BrickTrace.Lib.LimitedMerge
import BrickTrace.Lib.LineFrames
import BrickTrace.Lib.Distinct
import BrickTrace.Lib.StableSort
import BrickTrace.Lib.TreeWalk
import BrickTrace.Lib.Turns
import BrickTrace.Lib.PercentCoding
import BrickTrace.Lib.Phrases
import BrickTrace.Lib.MarkedBlocks
import BrickTrace.Lib.KeyedRows
import BrickTrace.Lib.NumberedRows
import BrickTrace.Lib.Select
import BrickTrace.Lib.SharedLists
import BrickTrace.Lib.KeyedLists
import BrickTrace.Lib.TomlTree
import BrickTrace.Lib.ShellWords
import BrickTrace.Lib.ShellCommands
import BrickTrace.Lib.SqlText
import BrickTrace.Lib.CursorPages
import BrickTrace.Lib.CaseFolding
import BrickTrace.Lib.AsciiCase
import BrickTrace.Lib.Utf8Slices
import BrickTrace.Lib.Pieces
import BrickTrace.Lib.Numerals
import BrickTrace.Lib.Varint
import BrickTrace.Lib.NulFields
import BrickTrace.Lib.Noninterference
import BrickTrace.Lib.LossyText
import BrickTrace.Lib.Rfc3339
import BrickTrace.Lib.Rfc3339Years
import BrickTrace.Lib.Rfc3339Order
import BrickTrace.Lib.Rfc3339RoundTrip
import BrickTrace.Lib.ReferenceGraph
import BrickTrace.Lib.OffsetPages
import BrickTrace.Lib.Json
import BrickTrace.Lib.JsonFields
import BrickTrace.Lib.JsonRecords
import BrickTrace.Lib.JsonValues
import BrickTrace.Lib.JsonText
import BrickTrace.Lib.Fallible
import BrickTrace.Lib.Links
import BrickTrace.Lib.Parents
import BrickTrace.Lib.PairedCalls
import BrickTrace.Lib.FiledItems
import BrickTrace.Protocol.Ids
import BrickTrace.Protocol.Text
import BrickTrace.Protocol.Event
import BrickTrace.Protocol.Payloads
import BrickTrace.Protocol.PayloadCodecs
import BrickTrace.Protocol.EventCodec
import BrickTrace.Protocol.SourceSessionCodec
import BrickTrace.Core.IndexTypes
import BrickTrace.Core.Index
import BrickTrace.Core.IndexRecords
import BrickTrace.Core.IndexLinks
import BrickTrace.Core.IndexHierarchy
import BrickTrace.Core.IndexTimes
import BrickTrace.Core.BuiltEvents
import BrickTrace.Core.IndexEvidence
import BrickTrace.Core.SqliteSchema
import BrickTrace.Core.SqliteIndex
import BrickTrace.Core.SqliteScript
import BrickTrace.Core.SqliteKeys
import BrickTrace.Core.SqliteRefinement
import BrickTrace.Core.RuntimeBlame
import BrickTrace.Core.SessionSearch
import BrickTrace.Core.SqliteQuery
import BrickTrace.Core.SqliteAnswers
import BrickTrace.Core.LocalEventStore
import BrickTrace.Core.LocalEventIds
import BrickTrace.Core.LogOrder
import BrickTrace.Core.SessionChunkReads
import BrickTrace.Core.AttachmentStore
import BrickTrace.Core.Liveness
import BrickTrace.Core.TailLines
import BrickTrace.Core.TurnMessages
import BrickTrace.Core.CauseRefs
import BrickTrace.Core.DiffNumstat
import BrickTrace.Core.DiffSummary
import BrickTrace.Core.DiffSummaryHash
import BrickTrace.Core.UnifiedHunks
import BrickTrace.Core.EventChunks
import BrickTrace.Core.ChunkRoundTrip
import BrickTrace.Core.MetadataDb
import BrickTrace.Core.SourceSessionEvent
import BrickTrace.Core.SourceSessionChunks
import BrickTrace.Core.LineEvidence
import BrickTrace.Core.FileSessionBlame
import BrickTrace.Core.FileTouchTimes
import BrickTrace.Core.ShellEdits
import BrickTrace.Core.ShellEditPlaces
import BrickTrace.Core.CodexPatches
import BrickTrace.Core.LineProvenance
import BrickTrace.Core.LineIndexing
import BrickTrace.Core.TextMatches
import BrickTrace.Core.LineSessions
import BrickTrace.Core.SourceRoots
import BrickTrace.Core.IndexCache
import BrickTrace.Core.Blame
import BrickTrace.Core.BlameAttribution
import BrickTrace.Core.BlameWorking
import BrickTrace.Core.BlamePorcelain
import BrickTrace.Core.LineHistory
import BrickTrace.Core.CountRanges
import BrickTrace.Core.RootBlobIds
import BrickTrace.Core.Explain
import BrickTrace.Core.ExplainMerge
import BrickTrace.Core.ExplainTimeline
import BrickTrace.Core.ExplainOrder
import BrickTrace.Core.FileAnchors
import BrickTrace.Server.Auth
import BrickTrace.Server.Store
import BrickTrace.Server.Append
import BrickTrace.Server.RepoOrg
import BrickTrace.Server.Members
import BrickTrace.Server.Index
import BrickTrace.Server.Routes
import BrickTrace.Server.MemberGate
import BrickTrace.Server.RepoOrgAgreement
import BrickTrace.Server.ConcurrentStore
import BrickTrace.Server.BindingDurability
import BrickTrace.Server.AppendRace
import BrickTrace.Server.PushRace
import BrickTrace.Server.AppendRuns
import BrickTrace.Server.Pagination
import BrickTrace.Server.GateTarget
import BrickTrace.Server.TenantIsolation
import BrickTrace.Server.TokenCommands
import BrickTrace.Server.TokenLifecycle
import BrickTrace.Sync.Client
import BrickTrace.Sync.Commands
import BrickTrace.Sync.Convergence
import BrickTrace.Sync.RepeatedPull
import BrickTrace.Sync.FailedPull
import BrickTrace.Sync.PulledRows
import BrickTrace.Sync.Supabase
import BrickTrace.Sync.SupabaseListing
import BrickTrace.Sync.SupabaseRace
import BrickTrace.Sync.Wire
import BrickTrace.Importers.TraceFiles
import BrickTrace.Cli.OrgiiSource
import BrickTrace.Cli.CursorAgentSource
import BrickTrace.Sync.ChunkColumns
import BrickTrace.Cli.History
import BrickTrace.Cli.NativeSource
import BrickTrace.Cli.NewestFiles
import BrickTrace.Cli.RefreshRuns
import BrickTrace.Cli.RefreshIsolation
import BrickTrace.Cli.RefreshCoverage
import BrickTrace.Cli.RefreshWatermark
import BrickTrace.Cli.RefreshFaults
import BrickTrace.Cli.RefreshChunks
import BrickTrace.Cli.RefreshFiles
import BrickTrace.Cli.FileSessions
import BrickTrace.Cli.ComposerSessions
import BrickTrace.Cli.SourceTimes
import BrickTrace.Cli.SourcePlans
import BrickTrace.Cli.MemoryFile
import BrickTrace.Cli.HookFiles
import BrickTrace.Cli.ClaudeHook
import BrickTrace.Cli.CodexHook
import BrickTrace.Cli.WindsurfHook
import BrickTrace.Cli.HookRuns
import BrickTrace.Cli.HookCycles
import BrickTrace.Cli.McpConfig
import BrickTrace.Cli.McpServers
import BrickTrace.Cli.CodexConfig
import BrickTrace.Cli.CodexCalls
import BrickTrace.Cli.Skill
import BrickTrace.Cli.ComposerLinks
import BrickTrace.Cli.ComposerFamilies
import BrickTrace.Cli.CursorContent
import BrickTrace.Cli.TranscriptChunks
import BrickTrace.Cli.ClaudeTranscripts
import BrickTrace.Cli.CodexTranscripts
import BrickTrace.Cli.CodexShellCalls
import BrickTrace.Cli.TranscriptOrder
import BrickTrace.Cli.TranscriptGrowth
import BrickTrace.Cli.ClaudeToolCalls
import BrickTrace.Cli.RefreshRoots
import BrickTrace.Cli.RefreshRepeats
import BrickTrace.Cli.ReadSession
import BrickTrace.Cli.ExplainAnchors
import BrickTrace.Cli.ExplainDrivers
import BrickTrace.Cli.ExplainFinish
import BrickTrace.Cli.ExplainHook
import BrickTrace.Cli.LiveBroadcast
import BrickTrace.Cli.McpLoop
