import Aioscpu.Framework.Machine
import Aioscpu.Framework.Precedes
import Aioscpu.Framework.DepthFirst
import Aioscpu.Framework.Dict
import Aioscpu.Framework.Objects
import Aioscpu.Framework.Heapq
import Aioscpu.Framework.Clock
import Aioscpu.Framework.LexicalPath
import Aioscpu.Framework.PyStr
import Aioscpu.Framework.Folds
import Aioscpu.Framework.Json
import Aioscpu.Framework.Daemon
import Aioscpu.Kernel.EventBus
import Aioscpu.Kernel.EventDelivery
import Aioscpu.Kernel.Scheduler
import Aioscpu.Kernel.SchedulerSafety
import Aioscpu.Services.JobQueue
import Aioscpu.Services.JobConservation
import Aioscpu.Services.JobPriority
import Aioscpu.Kernel.Permissions
import Aioscpu.Kernel.PermissionHistory
import Aioscpu.Kernel.Api
import Aioscpu.Kernel.ApiCapabilities
import Aioscpu.Kernel.Override
import Aioscpu.Kernel.OverrideProtection
import Aioscpu.Kernel.OverrideAudit
import Aioscpu.Kernel.Privilege
import Aioscpu.Hal.Hal
import Aioscpu.Kernel.HardwareMode
import Aioscpu.Kernel.HardwareConsent
import Aioscpu.Bridge.HostBridge
import Aioscpu.Services.Registry
import Aioscpu.Services.LoadOrder
import Aioscpu.Services.Autostart
import Aioscpu.Services.InstanceOwnership
import Aioscpu.Services.Manager
import Aioscpu.Services.ManagerFrames
import Aioscpu.Services.SingleWorker
import Aioscpu.Services.StopEvents
import Aioscpu.Services.Rests
import Aioscpu.Kernel.Watchdog
import Aioscpu.Kernel.WatchdogFrames
import Aioscpu.Kernel.OperatorStops
import Aioscpu.Kernel.WatchdogPace
import Aioscpu.Kernel.BoundedRestarts
import Aioscpu.Services.HealthMonitor
import Aioscpu.Services.SelfHealing
import Aioscpu.Services.Abandonment
import Aioscpu.Services.WebTerminal
import Aioscpu.Vnet.NodeIdentity
import Aioscpu.Vnet.PeerRegistry
import Aioscpu.Vnet.PeerPersistence
import Aioscpu.Vnet.Mesh
import Aioscpu.Vnet.Coordinator
import Aioscpu.Vnet.PeerIdentity
import Aioscpu.Vnet.BackgroundLoops
import Aioscpu.Services.CommandChannel
import Aioscpu.Vnet.Announcement
import Aioscpu.Vnet.CommandCenter
import Aioscpu.Vnet.Deregistration
import Aioscpu.Framework.Traced
import Aioscpu.Services.CommandHandler
import Aioscpu.Services.RemoteControl
import Aioscpu.Framework.FileSystem
import Aioscpu.Services.StorageService
import Aioscpu.Services.StorageConfinement
import Aioscpu.Services.StorageOverlay
import Aioscpu.Framework.Deque
import Aioscpu.Services.LoggingService
import Aioscpu.Services.LogDurability
import Aioscpu.Services.LogSubscription
import Aioscpu.Services.ScheduledQueue
import Aioscpu.Services.RestartSafety
import Aioscpu.Kernel.KernelLoop
import Aioscpu.Kernel.IntervalLaw
import Aioscpu.Kernel.IdleBackoff
import Aioscpu.Framework.FileTree
import Aioscpu.Tools.Manifest
import Aioscpu.Tools.ManifestExactness
import Aioscpu.Tools.ManifestSelfCheck
import Aioscpu.Framework.FileCopy
import Aioscpu.Services.Snapshots
import Aioscpu.Services.RollbackAtomicity
import Aioscpu.Services.SnapshotHistory
import Aioscpu.Build.Assembly
import Aioscpu.Services.BuildService
import Aioscpu.Services.IntegrityCheck
import Aioscpu.Services.Rebuild
import Aioscpu.Build.BuildScript
import Aioscpu.Framework.Rounding
import Aioscpu.Models.ModelManager
import Aioscpu.Models.ActiveModel
import Aioscpu.Models.MemoryBudget
import Aioscpu.Aura.Memory
import Aioscpu.Aura.Aura
import Aioscpu.Aura.QueryResilience
import Aioscpu.Framework.ConfigParser
import Aioscpu.Framework.Template
import Aioscpu.Services.ModuleBuilder
import Aioscpu.Services.DescriptorRoundTrip
import Aioscpu.Services.PackageManager
import Aioscpu.Services.RegistryTruth
import Aioscpu.Services.RetryLaw
import Aioscpu.Kernel.Debugger
import Aioscpu.Kernel.DebugDiscipline
import Aioscpu.Hal.BusAgreement
import Aioscpu.Hal.Storage
import Aioscpu.Kernel.StorageRoundTrip
import Aioscpu.Kernel.Config
import Aioscpu.Kernel.ConfigLayers
import Aioscpu.Kernel.ConfigPrecedence
import Aioscpu.Kernel.ConfigRobustness
import Aioscpu.Kernel.ConfigReload
import Aioscpu.Kernel.TickLoop
import Aioscpu.Kernel.TickLaw
import Aioscpu.Services.CircuitBreaker
import Aioscpu.Vnet.PeerMerge
import Aioscpu.Vnet.PartialUpdate
import Aioscpu.Vnet.CommandCenterResponses
import Aioscpu.Services.ListingAgreement
import Aioscpu.Models.ScanCompleteness
import Aioscpu.Aura.PromptAssembly
import Aioscpu.Aura.MemoryAtomicity
import Aioscpu.Framework.Format
import Aioscpu.Services.TemplateRendering
import Aioscpu.Services.ScaffoldAtomicity
import Aioscpu.Services.NameSanitising
import Aioscpu.Framework.Like
import Aioscpu.Hal.FileStore
import Aioscpu.Services.LogRing
import Aioscpu.Services.LogQuery
import Aioscpu.Services.UnitFile
import Aioscpu.Bridge.RootedPaths
import Aioscpu.Kernel.ShutdownLaw
import Aioscpu.Shell.FileCommands
import Aioscpu.Framework.Interpreter
import Aioscpu.Framework.OsCalls
import Aioscpu.Framework.TextFile
import Aioscpu.Shell.Shell
import Aioscpu.Framework.Sessions
import Aioscpu.Shell.History
import Aioscpu.Kernel.EventViews
import Aioscpu.Services.WebEvents
import Aioscpu.Aura.WorldView
import Aioscpu.Aura.MemorySessions
import Aioscpu.Shell.Consent
import Aioscpu.Shell.Plugins
import Aioscpu.Hal.StorageRefinement
import Aioscpu.Framework.Refinement
import Aioscpu.Framework.FiniteMap
import Aioscpu.Services.JobProgress
import Aioscpu.Vnet.Bootstrap
import Aioscpu.Services.WebShell
