import SmartHome.Mqtt.Conservation
import SmartHome.Mqtt.LedgerRuns
import SmartHome.Mqtt.Consumer.Safety
import SmartHome.Mqtt.Consumer.Windows
import SmartHome.HostObserver.Safety
import SmartHome.PeopleLifecycle.Safety
import SmartHome.Mqtt.Delivery
import SmartHome.TaskControl.Safety
import SmartHome.ReaderBinding.Safety
import SmartHome.NodeRedAdmin.Safety
import SmartHome.NodeRedAdmin.Reverse
import SmartHome.ComponentRepair.Effects
import SmartHome.StorageMaintenance.Safety
import SmartHome.NativeEvents.Delivery
import SmartHome.SecurityLight.Safety
import SmartHome.ResidentNotifications.Acceptance
import SmartHome.ZigbeeRoutes.Safety
import SmartHome.MemoryGuardian.Safety
import SmartHome.SourceWriter.Safety
import SmartHome.HaNotices.Collector
import SmartHome.HaNotices.Size
import SmartHome.Mqtt.Native.Stamps
import SmartHome.CodexUsage.Incremental
import SmartHome.Lib.Base64
import SmartHome.Lib.Current
import SmartHome.Lib.JsonNesting
import SmartHome.Lib.JsonSort
import SmartHome.Lib.Latest
import SmartHome.Lib.Number
import SmartHome.Lib.Runs
import SmartHome.Lib.Spaced
import SmartHome.Mqtt.Consumer.CheckpointForm
import SmartHome.Mqtt.Consumer.CommitToken
import SmartHome.Mqtt.SourceTime
import SmartHome.NativeEvents.Opportunity
import SmartHome.PeopleRefresh.Backoff
import SmartHome.PublicBindings.Age
import SmartHome.SecurityLight.Cache
import SmartHome.SecurityLight.Converge
import SmartHome.SecurityLight.Probes
import SmartHome.SharedHistory.Recovery
import SmartHome.StorageHistory.Analyze
import SmartHome.StorageHistory.Coverage
import SmartHome.NodeRedAdmin.Fields
import SmartHome.SharedHistory.Isolation
import SmartHome.DeploymentFiles.Foreign
import SmartHome.DeploymentFiles.Runs
import SmartHome.Maintenance.Append
import SmartHome.Maintenance.Controller
import SmartHome.Maintenance.Dispatch
import SmartHome.Maintenance.Runs
import SmartHome.Maintenance.Sizes
import SmartHome.Maintenance.Execution
