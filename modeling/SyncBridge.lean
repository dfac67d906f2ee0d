import SyncBridge.Foundation.Async
import SyncBridge.Foundation.Pool
import SyncBridge.Foundation.Monitor
import SyncBridge.Foundation.Ownership
import SyncBridge.Foundation.Picking
import SyncBridge.Foundation.Rely
import SyncBridge.Foundation.Lookups
import SyncBridge.Foundation.Windows
import SyncBridge.JavaScript
import SyncBridge.Schema
import SyncBridge.Store
import SyncBridge.Services.Jobs
import SyncBridge.Services.SyncRuns
import SyncBridge.Intake.Columns
import SyncBridge.Intake.Custody
import SyncBridge.Intake.Duplicates
import SyncBridge.Intake.FanOut
import SyncBridge.Intake.Finality
import SyncBridge.Intake.Retries
import SyncBridge.Runs.Archived
import SyncBridge.Runs.Custody
import SyncBridge.Runs.Counters
import SyncBridge.Runs.Counted
import SyncBridge.Runs.Evaluation
import SyncBridge.Runs.Finished
import SyncBridge.Schedule.Exclusion
import SyncBridge.Schedule.NextRun
import SyncBridge.Schedule.Overwrites
import SyncBridge.Access.ConfigPolicy
import SyncBridge.Access.ReadAccess
import SyncBridge.Access.WebhookData
import SyncBridge.Cursor.FailedRecords
import SyncBridge.Cursor.Progress
import SyncBridge.Auth.SingleUse
import SyncBridge.Services.CronUtils
import SyncBridge.Web.Session
import SyncBridge.Transformations.Engine
import SyncBridge.Transformations.StoredMappings
import SyncBridge.Transformations.Fields
import SyncBridge.Transformations.Required
import SyncBridge.Runs.Modes
import SyncBridge.Runs.Preview
import SyncBridge.Runs.Redelivery
import SyncBridge.Schedule.EarliestRun
import SyncBridge.Schedule.CronAccepted
import SyncBridge.Schedule.CronFields
import SyncBridge.Transformations.Language
import SyncBridge.Schedule.Horizon
import SyncBridge.Schedule.PollTicks
import SyncBridge.Schedule.PollCycle
import SyncBridge.Schedule.HostClock
import SyncBridge.Cursor.Filter
import SyncBridge.Cursor.BatchOrder
import SyncBridge.Transformations.PathLaws
import SyncBridge.Http.RetryTimes
import SyncBridge.Http.LimitedRoutes
import SyncBridge.Http.LogRedaction
import SyncBridge.Intake.SensitiveHeaders
import SyncBridge.Integrity.Lineage
import SyncBridge.Integrity.Isolation
import SyncBridge.Access.Authority
import SyncBridge.Access.Views
import SyncBridge.Audit.Answers
import SyncBridge.Runs.Settled
import SyncBridge.Auth.Continuity
