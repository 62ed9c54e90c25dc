import LogRelay.Scenario.Host
import LogRelay.Settings.Load
import LogRelay.Marker.Audit
import LogRelay.Abi.Encode
import LogRelay.Chain.LogJson
import LogRelay.Logging.Logbook
import LogRelay.Proofs.History
import LogRelay.Proofs.Operations
import LogRelay.Proofs.RegistryPairs
import LogRelay.Proofs.ControlStep
import LogRelay.Proofs.Run
import LogRelay.Proofs.Routing
import LogRelay.Proofs.Grants
import LogRelay.Proofs.Coverage
import LogRelay.Proofs.Stream
import LogRelay.Proofs.Stages
import LogRelay.Proofs.Flow
import LogRelay.Proofs.Conservation
import LogRelay.Proofs.Notices
import LogRelay.Proofs.Notifications
import LogRelay.Proofs.Requests
import LogRelay.Proofs.Leases
import LogRelay.Proofs.Holding
import LogRelay.Proofs.TearDown
import LogRelay.Proofs.Feed
import LogRelay.Proofs.Attendance
import LogRelay.Proofs.Listening
import LogRelay.Proofs.Harvests
import LogRelay.Proofs.NoGap
import LogRelay.Proofs.CallerStep
import LogRelay.Proofs.Calls
import LogRelay.Proofs.Shutdown
import LogRelay.Proofs.Forwarding
import LogRelay.Proofs.StopContract
import LogRelay.Proofs.Repetition
import LogRelay.Proofs.UsableSettings
import LogRelay.Proofs.MarkerKeys
import LogRelay.Proofs.MarkerOrder
import LogRelay.Proofs.MarkerStores
import LogRelay.Proofs.JsonTokens
import LogRelay.Proofs.StrayItems
import LogRelay.Proofs.JsonValues
import LogRelay.Proofs.Deduplication
import LogRelay.Proofs.TextBytes
import LogRelay.Proofs.Calendar
import LogRelay.Proofs.TimestampText
import LogRelay.Proofs.JsonText
import LogRelay.Proofs.LogText
import LogRelay.Proofs.StoreRefinement
import LogRelay.Proofs.BlockRanges
import LogRelay.Proofs.PositionalDecoding
import LogRelay.Proofs.WellTyped
import LogRelay.Proofs.HeadTail
import LogRelay.Proofs.WordCodec
import LogRelay.Proofs.DataRoundTrip
import LogRelay.Proofs.ResolvedTypes
import LogRelay.Proofs.EncodedLogs
import LogRelay.Proofs.DirectiveText
import LogRelay.Proofs.Filtering
import LogRelay.Proofs.Mailing
import LogRelay.Proofs.Queue
import LogRelay.Proofs.Linearity
import LogRelay.Proofs.PendingCount
import LogRelay.Proofs.MissingReports
import LogRelay.Proofs.Gate
import LogRelay.Proofs.NetEffect
import LogRelay.Proofs.DecodingListeners
import LogRelay.Proofs.Draining
import LogRelay.Proofs.Coalescing
import LogRelay.Proofs.Attempts
import LogRelay.Proofs.LateAnswers
import LogRelay.Proofs.Retrying
import LogRelay.Proofs.Fetching
import LogRelay.Proofs.FailureDetection
import LogRelay.Proofs.SetUpFailure
import LogRelay.Proofs.SelectorTable
import LogRelay.Proofs.SettingPlaces
import LogRelay.Proofs.ProperTables
import LogRelay.Proofs.NodeSettings
import LogRelay.Proofs.EnvironmentPlaces
import LogRelay.Proofs.SettingValues
import LogRelay.Proofs.Precedence
import LogRelay.Proofs.AddedVariable
import LogRelay.Proofs.ShellNames
import LogRelay.Proofs.TextSettings
