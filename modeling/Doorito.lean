import Doorito.Common.Backoff
import Doorito.Common.CleanupDrain
import Doorito.Common.CleanupSafety
import Doorito.Common.CrashedRuns
import Doorito.Common.DeliveredRows
import Doorito.Common.DeliverySpec
import Doorito.Common.DueEvents
import Doorito.Common.EmissionKeys
import Doorito.Common.EventLocks
import Doorito.Common.OutboxRest
import Doorito.Common.RequestLog
import Doorito.Common.RetryBudget
import Doorito.Common.RowShape
import Doorito.Frontend.Attribution
import Doorito.Frontend.LoginDetour
import Doorito.Frontend.RegisteredLogins
import Doorito.Frontend.RegistrationForms
import Doorito.Frontend.UploadAnswers
import Doorito.Portal.BatchCreation
import Doorito.Portal.BatchStatus
import Doorito.Portal.BlobLimits
import Doorito.Portal.CleanupReport
import Doorito.Portal.Completion
import Doorito.Portal.CompletionProgress
import Doorito.Portal.DispatchedUploads
import Doorito.Portal.ExpiredFiles
import Doorito.Portal.ExpiryRuns
import Doorito.Portal.ExpiryWarnings
import Doorito.Portal.ExpiryWindow
import Doorito.Portal.FileBlobs
import Doorito.Portal.FileDrain
import Doorito.Portal.FileEvents
import Doorito.Portal.PartAtomicity
import Doorito.Portal.PartCounts
import Doorito.Portal.PlannedStatements
import Doorito.Portal.Retention
import Doorito.Portal.SessionLifecycle
import Doorito.Portal.SessionOutcome
import Doorito.Portal.StoredFiles
import Doorito.Portal.SweepCounts
import Doorito.Portal.TimestampRuns
