import MailPanel.BackupArchive
import MailPanel.EffectRun
import MailPanel.ImageSwap
import MailPanel.KeyedOverlay
import MailPanel.ImageMerge
import MailPanel.Updater
import MailPanel.UpdaterCalls
import MailPanel.UpdaterLockstep
import MailPanel.RowTable
import MailPanel.IsoTime
import MailPanel.McpStore
import MailPanel.McpConnections
import MailPanel.McpTokens
import MailPanel.McpClients
import MailPanel.McpAuthorization
import MailPanel.McpBearer
import MailPanel.StepRun
import MailPanel.McpMachine
import MailPanel.McpEvolution
import MailPanel.McpServices
import MailPanel.McpFlows
import MailPanel.McpSteps
import MailPanel.McpSingleUse
import MailPanel.McpConsent
import MailPanel.EventHistory
import MailPanel.McpReissue
import MailPanel.McpQuiet
import MailPanel.McpMailbox
import MailPanel.McpBarred
import MailPanel.McpRefresh
import MailPanel.McpCredential
import MailPanel.BackupDestination
import MailPanel.BackupRetention
import MailPanel.BackupsRepository
import MailPanel.BackupStores
import MailPanel.BackupTasks
import MailPanel.BackupUploader
import MailPanel.BackupsService
import MailPanel.BackupMachine
import MailPanel.BackupSteps
import MailPanel.BackupInvariants
import MailPanel.BackupForeign
import MailPanel.BackupDeletion
import MailPanel.BackupSweep
import MailPanel.BackupUploads
import MailPanel.BackupStuck
import MailPanel.BackupPrune
import MailPanel.McpOperations
import MailPanel.McpSending
import MailPanel.AuthStore
import MailPanel.AuthService
import MailPanel.AuthMachine
import MailPanel.AuthSteps
import MailPanel.AuthEnabled
import MailPanel.AuthEviction
import MailPanel.JobRunner
import MailPanel.JobSteps
import MailPanel.JobOrder
import MailPanel.JobEnding
import MailPanel.AliasesService
import MailPanel.AliasResolution
import MailPanel.RestoreTarGuard
import MailPanel.RestoreCheck
import MailPanel.McpResource
import MailPanel.NumberText
import MailPanel.ConfigSchema
import MailPanel.ConfigLoad
import MailPanel.ChunkReader
import MailPanel.RestoreTarComplete
import MailPanel.RestoreTarMagic
import MailPanel.SieveText
import MailPanel.SieveValidator
import MailPanel.StreamDemux
import MailPanel.Dialogue
import MailPanel.ImapServer
import MailPanel.McpExchange
import MailPanel.McpSendLimits
import MailPanel.McpSendOutcome
import MailPanel.McpTrash
import MailPanel.McpTrashDelete
import MailPanel.MailSemaphore
import MailPanel.McpPaging
import MailPanel.StaleImages
import MailPanel.Utf8Cuts
import MailPanel.ContainerLogs
import MailPanel.IpText
import MailPanel.SafeFetch
import MailPanel.McpCreate
import MailPanel.McpConnectionLimit
import MailPanel.Calendar
import MailPanel.IsoInstant
import MailPanel.McpExpiry
import MailPanel.Utf16Text
import MailPanel.Base64Url
import MailPanel.MessageRefs
import MailPanel.PercentText
import MailPanel.McpClientAuth
import MailPanel.ConfigSettings
import MailPanel.ConfigRollback
import MailPanel.FtpUpload
import MailPanel.RestoreGate
import MailPanel.S3Multipart
import MailPanel.DmsValidators
import MailPanel.DmsCommands
import MailPanel.DmsEnvironment
import MailPanel.Glob
import MailPanel.DmsRecords
import MailPanel.XmlText
import MailPanel.S3Listing
import MailPanel.UrlPath
import MailPanel.S3Versions
import MailPanel.S3Deletion
import MailPanel.BackupSites
import MailPanel.ConfigStartup
import MailPanel.TryFinally
import MailPanel.ColdBackup
import MailPanel.BackupScheduler
import MailPanel.AuthLockout
import MailPanel.AliasEdit
import MailPanel.TrimmedText
import MailPanel.ConfigParsers
import MailPanel.ConfigFormats
import MailPanel.ConfigReading
import MailPanel.OrderedMatch
import MailPanel.Fail2banList
import MailPanel.Fail2banTokens
import MailPanel.AutoresponderSieve
import MailPanel.SieveGrammar
import MailPanel.AutoresponderGrammar
import MailPanel.AutoresponderCheck
import MailPanel.ToolRateLimiter
import MailPanel.Notifications
import MailPanel.SpfLookups
import MailPanel.SpfEvaluation
import MailPanel.DatabaseTransactions
import MailPanel.Migrations
import MailPanel.GuardedDialogue
import MailPanel.Visibility
import MailPanel.BrokerCalls
import MailPanel.BrokerOperations
import MailPanel.BrokerConfinement
import MailPanel.PercentEscape
import MailPanel.SigV4
import MailPanel.LineReader
import MailPanel.StartTls
