import Flowdular.Lib.Worklist
import Flowdular.Lib.Pool
import Flowdular.Workflows.PreviewAgreement
import Flowdular.Workflows.EvidencePolicy
import Flowdular.Workflows.CompileSoundness
import Flowdular.Workflows.EventProjection
import Flowdular.Workflows.Lease
import Flowdular.Lib.Delimited
import Flowdular.Lib.HashChain
import Flowdular.Workflows.JsonText
import Flowdular.Workflows.Audit
import Flowdular.Documents.TemplateUndeclared
import Flowdular.Audit.Repository
import Flowdular.Lib.Crew
import Flowdular.Audit.Holds
import Flowdular.Audit.Services
import Flowdular.Audit.Withhold
import Flowdular.Audit.SubjectKeys
import Flowdular.Kernel.ModuleRegistry
import Flowdular.Kernel.ModuleOrder
import Flowdular.Lib.Record
import Flowdular.Auth.Members
import Flowdular.Auth.Owners
import Flowdular.Auth.ApiTokens
import Flowdular.Auth.StaysOut
import Flowdular.Auth.Roles
import Flowdular.Auth.HandsOut
import Flowdular.Audit.Seal
import Flowdular.Lib.Charter
import Flowdular.Audit.SealVerify
import Flowdular.Audit.SealChain
import Flowdular.Audit.SealRuns
import Flowdular.Audit.SealSafe
import Flowdular.Audit.SealNames
import Flowdular.Audit.SealPass
import Flowdular.Audit.SealSound
import Flowdular.Audit.SealLines
import Flowdular.Audit.SealComplete
import Flowdular.Auth.RoleScopes
import Flowdular.Auth.Links
import Flowdular.Auth.SecondFactor
import Flowdular.Auth.ExternalIdentities
import Flowdular.Agents.Jobs
import Flowdular.Agents.JobsSettle
import Flowdular.Approvals.Requests
import Flowdular.Approvals.Quorum
import Flowdular.Lib.Civil
import Flowdular.Metering.Usage
import Flowdular.Metering.Accounting
import Flowdular.Audit.Zip
import Flowdular.Documents.Zip
import Flowdular.Documents.ZipRoundTrip
import Flowdular.Lib.Events
import Flowdular.Server.JobRunner
import Flowdular.Server.JobRunnerSafe
import Flowdular.Server.JobRunnerWakes
import Flowdular.Lib.LocalClock
import Flowdular.Lib.StableSort
import Flowdular.Workflows.CanonicalForm
import Flowdular.Connectors.CallDigest
import Flowdular.Workflows.MappingWrites
import Flowdular.Workflows.CompiledValues
import Flowdular.Import.Csv
import Flowdular.Contracts.Variables
import Flowdular.Kernel.VariableRegistry
import Flowdular.Storage.Reseal
import Flowdular.Database.DryRun
import Flowdular.Import.PathsAgree
import Flowdular.Harness.SchemaExact
import Flowdular.Auth.SignInFailures
import Flowdular.Auth.Lockout
import Flowdular.Agents.SavesKept
import Flowdular.Workflows.Rollups
import Flowdular.Workflows.RunAuthority
import Flowdular.Agents.EventStream
import Flowdular.Agents.GrantUses
import Flowdular.Metering.LimitHistory
import Flowdular.Approvals.Expiry
import Flowdular.Automations.Cron
import Flowdular.Automations.CronSlots
import Flowdular.Automations.TimeZoneFollower
import Flowdular.Connectors.AddressBlock
import Flowdular.Connectors.CallPath
import Flowdular.Documents.Pages
import Flowdular.Documents.ZipContained
import Flowdular.Server.ListExport
import Flowdular.Lib.Keyset
import Flowdular.Server.Pagination
