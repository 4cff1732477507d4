import SdkApi.AuthorizationCoverage
import SdkApi.KeysetPagination
import SdkApi.CacheTenancy
import SdkApi.NoStaleRead
import SdkApi.GraphqlConfinement
import SdkApi.JobCancellation
import SdkApi.MessageSettlement
import SdkApi.KafkaCommits
import SdkApi.CredentialCompleteness
import SdkApi.RefreshRotation
import SdkApi.AssertionReplay
import SdkApi.SessionRoundTrip
import SdkApi.TokenAcceptance
import SdkApi.ApiKeyGrants
import SdkApi.RoleGrants
import SdkApi.RateWindows
import SdkApi.CallbackDelivery
import SdkApi.StoreEquivalence
import SdkApi.ListTotals
import SdkApi.PagePartition
import SdkApi.RejectionCosts
import SdkApi.OutboxAtomicity
import SdkApi.CachedFiles
import SdkApi.FileUploads
import SdkApi.CsrfExclusions
import SdkApi.PolicyGroups
import SdkApi.RedirectOrigins
import SdkApi.CachedVerdicts
import SdkApi.CallbackTargets
import SdkApi.MigrationFiles
import SdkApi.QueryScanning
import SdkApi.ModelParsing
import SdkApi.BatchInserts
import SdkApi.Bulkheads
import SdkApi.DriverAgreement
import SdkApi.HiddenFields
import SdkApi.JobExecutions
import SdkApi.JobInvariants
import SdkApi.ListQueries
import SdkApi.StatusStreams
import SdkApi.PatchKeys
import SdkApi.DeclaredResponses
import SdkApi.GrpcChains
import SdkApi.OutboxProgress
import SdkApi.RecordedOutcomes
import SdkApi.RefreshForms
import SdkApi.RequestMetrics
import SdkApi.RetryAttempts
import SdkApi.StaleFallback
import SdkApi.SeededModel
import SdkApi.ProtoFiles
import SdkApi.FileNames
import SdkApi.OriginChecks
import SdkApi.SpoolCleanup
import SdkApi.SafeRequests
