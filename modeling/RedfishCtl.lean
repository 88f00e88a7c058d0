import RedfishCtl.ActionMetadata
import RedfishCtl.BiosConfig
import RedfishCtl.BiosProfile
import RedfishCtl.BodyMatching
import RedfishCtl.Checksums
import RedfishCtl.CommandExit
import RedfishCtl.CommandRegistry
import RedfishCtl.ConnectionChains
import RedfishCtl.ContractTool
import RedfishCtl.CorpusTreeAliases
import RedfishCtl.CorpusTreeLinks
import RedfishCtl.CorpusTreeOrder
import RedfishCtl.CorpusTreePortable
import RedfishCtl.CorpusTreeWrite
import RedfishCtl.DeleteTargets
import RedfishCtl.DiscoveryReach
import RedfishCtl.DispatchChains
import RedfishCtl.EndpointCacheProgress
import RedfishCtl.EndpointRuns
import RedfishCtl.Explorer
import RedfishCtl.ExporterCredentials
import RedfishCtl.FindIds
import RedfishCtl.FleetDashboard
import RedfishCtl.FleetMetrics
import RedfishCtl.MetricSeries
import RedfishCtl.MockPreconditions
import RedfishCtl.MockReplay
import RedfishCtl.MockReset
import RedfishCtl.NodeProfileApproval
import RedfishCtl.NodeProfileCoherence
import RedfishCtl.NormalForms
import RedfishCtl.PackCorpusAgain
import RedfishCtl.PartialFailure
import RedfishCtl.QueryIsolation
import RedfishCtl.RaidConversion
import RedfishCtl.RedactionStrictness
import RedfishCtl.ResponseCacheProgress
import RedfishCtl.ScrapeLiveness
import RedfishCtl.ServiceIdentity
import RedfishCtl.Singleton
import RedfishCtl.TaskWait
import RedfishCtl.TelemetryWriters
import RedfishCtl.Volumes
import RedfishCtl.WaitBound
import RedfishCtl.WriteLog
