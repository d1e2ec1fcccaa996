import EovpnPro.Runs
import EovpnPro.Rollback
import EovpnPro.Resolution
import EovpnPro.Traces
import EovpnPro.Raising
import EovpnPro.Sources
import EovpnPro.SourceHandles
import EovpnPro.Subscriptions
import EovpnPro.PyText
import EovpnPro.PyInt
import EovpnPro.Directories
import EovpnPro.ConfigSource
import EovpnPro.ConfigImport
import EovpnPro.ConfigReplacement
import EovpnPro.OverlappingImports
import EovpnPro.ArchiveExtraction
import EovpnPro.ArchiveSelection
import EovpnPro.ImportAgreement
import EovpnPro.IpAddress
import EovpnPro.SourceHosts
import EovpnPro.ProfileAudit
import EovpnPro.Settings
import EovpnPro.Credentials
import EovpnPro.FileTrees
import EovpnPro.ResetBackup
import EovpnPro.ResetRestore
import EovpnPro.BackupChoice
import EovpnPro.RestoreFailure
import EovpnPro.Events
import EovpnPro.BackendSwitch
import EovpnPro.AutoConnect
import EovpnPro.SpeedOrder
import EovpnPro.OvpnParser
import EovpnPro.EndpointLocality
import EovpnPro.ProtoOrder
import EovpnPro.OvpnSyntax
import EovpnPro.AuditSpelling
import EovpnPro.AuthGate
import EovpnPro.SpeedTest
import EovpnPro.NetworkMonitor
import EovpnPro.DisplayedSpeed
import EovpnPro.IpLookup
import EovpnPro.OtpDialog
import EovpnPro.OpenVpn3Status
import EovpnPro.OpenVpn3Backend
import EovpnPro.OpenVpn3Watch
import EovpnPro.SessionSubscriptions
import EovpnPro.NmWorker
import EovpnPro.NmOperations
import EovpnPro.NmStages
import EovpnPro.PrivateCopies
import EovpnPro.AuditGate
import EovpnPro.NmCancel
import EovpnPro.AppState
import EovpnPro.WindowEvents
import EovpnPro.CascadeController
import EovpnPro.MainWindow
import EovpnPro.AttemptFlag
import EovpnPro.OpenVpn3Desk
import EovpnPro.NmDesk
import EovpnPro.AttemptLedger
import EovpnPro.CascadeLedger
import EovpnPro.CandidateFate
import EovpnPro.CascadeAdvance
import EovpnPro.CascadeTeardown
import EovpnPro.AutoReconnect
import EovpnPro.ManualDisconnect
import EovpnPro.NmNotifications
import EovpnPro.NmNative
import EovpnPro.NmSystem
import EovpnPro.ForeignProfiles
import EovpnPro.OrphanedProfiles
import EovpnPro.TeardownScope
import EovpnPro.WorkerThreads
import EovpnPro.TempProfile
import EovpnPro.StaleCallbacks
import EovpnPro.CascadeMoves
import EovpnPro.CascadePaths
import EovpnPro.AttemptRecords
import EovpnPro.SuccessAttribution
import EovpnPro.FrozenDeadline
import EovpnPro.FinishedRuns
import EovpnPro.CascadeProgress
import EovpnPro.CascadeFrame
import EovpnPro.MeasurementFrame
import EovpnPro.PreparingPhase
import EovpnPro.TimerHandles
import EovpnPro.BackupHistory
import EovpnPro.EditablePath
import EovpnPro.StarredRows
import EovpnPro.BackendSessions
import EovpnPro.IpDisplay
import EovpnPro.Attention
import EovpnPro.SignIn
import EovpnPro.WindowClose
import EovpnPro.SettingsPage
import EovpnPro.LatencyLabels
import EovpnPro.ForgottenPasswords
import EovpnPro.OrphanedSessions
