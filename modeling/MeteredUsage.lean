import MeteredUsage.Library.Execution
import MeteredUsage.Library.OrderedLog
import MeteredUsage.Library.Keyed
import MeteredUsage.Library.Replay
import MeteredUsage.Library.Outcome
import MeteredUsage.Library.Transaction
import MeteredUsage.Values
import MeteredUsage.Changes.Table
import MeteredUsage.Changes.Delivery
import MeteredUsage.QuotaActions.Store
import MeteredUsage.QuotaActions.Claim
import MeteredUsage.QuotaActions.Service
import MeteredUsage.QuotaActions.Invariant
import MeteredUsage.QuotaActions.Exclusive
import MeteredUsage.QuotaActions.Keys
import MeteredUsage.QuotaActions.Ownership
import MeteredUsage.Json
import MeteredUsage.Collector.Cliproxy
import MeteredUsage.Collector.Retention
import MeteredUsage.Store.Sql
import MeteredUsage.Store.Schema
import MeteredUsage.Store.Accounts
import MeteredUsage.Store.Continuations
import MeteredUsage.Store.Snapshots
import MeteredUsage.Store.AccountWrites
import MeteredUsage.Store.Plans
import MeteredUsage.Store.Credentials
import MeteredUsage.Store.Windows
import MeteredUsage.Store.Quota
import MeteredUsage.Store.Events
import MeteredUsage.Store.Response
import MeteredUsage.Store.Ingest
import MeteredUsage.Store.Cost
import MeteredUsage.Store.Sources
import MeteredUsage.Store.Commands
import MeteredUsage.Store.Validity
import MeteredUsage.Store.Frames
import MeteredUsage.Store.Statements
import MeteredUsage.Store.Locality
import MeteredUsage.Store.Landing
import MeteredUsage.Store.Links
import MeteredUsage.Store.Views
import MeteredUsage.Store.Apart
import MeteredUsage.Store.Upkeep
import MeteredUsage.Store.Merged
import MeteredUsage.Store.Announcements
import MeteredUsage.Store.Evidence
import MeteredUsage.Store.Intake
import MeteredUsage.Store.Commits
import MeteredUsage.Store.Exhaustion
import MeteredUsage.Store.Redelivery
import MeteredUsage.Collector.LiteLlm
import MeteredUsage.Collector.Polling
import MeteredUsage.Collector.Repolling
import MeteredUsage.Collector.Lateness
import MeteredUsage.Changes.LongPoll
import MeteredUsage.Store.Prices
import MeteredUsage.Store.Sparing
import MeteredUsage.Store.Provenance
import MeteredUsage.Store.Repricing
import MeteredUsage.Store.CostMap
import MeteredUsage.Library.Versions
import MeteredUsage.Store.SyncedPrices
import MeteredUsage.Store.Charges
import MeteredUsage.Usage.Stream
import MeteredUsage.Usage.Once
import MeteredUsage.Usage.Overtaken
import MeteredUsage.Library.Interaction
import MeteredUsage.Gateway.Adapters
import MeteredUsage.Gateway.Requests
import MeteredUsage.Ids
import MeteredUsage.Store.Resync
import MeteredUsage.Library.FixedWidth
import MeteredUsage.Library.Calendar
import MeteredUsage.Codec
import MeteredUsage.QuotaActions.Reuse
import MeteredUsage.Store.SeenWindows
import MeteredUsage.Library.Sightings
import MeteredUsage.Store.Listings
import MeteredUsage.Store.Arrivals
import MeteredUsage.Store.WindowSteps
import MeteredUsage.Analytics.FrozenCosts
import MeteredUsage.Store.Registered
import MeteredUsage.Gateway.Spending
import MeteredUsage.Billing.Periods
import MeteredUsage.Billing.Leverage
import MeteredUsage.Library.Untouched
import MeteredUsage.Store.Recovery
import MeteredUsage.Store.Deadlines
import MeteredUsage.Store.Backoff
import MeteredUsage.Library.Utf8
import MeteredUsage.Collector.Resp
import MeteredUsage.Collector.Wire
import MeteredUsage.Gateway.Numbers
import MeteredUsage.Gateway.CodexWindows
import MeteredUsage.Store.Samples
import MeteredUsage.Library.GreedyWindows
import MeteredUsage.Quota.Predictions
import MeteredUsage.Quota.OpenedOnUse
import MeteredUsage.Quota.NextWindow
import MeteredUsage.Store.Replaced
import MeteredUsage.Gateway.ResetGrants
import MeteredUsage.Library.OrderedMap
import MeteredUsage.Collector.Accounting
import MeteredUsage.Collector.Secrets
import MeteredUsage.Store.Origins
import MeteredUsage.Store.PriceList
import MeteredUsage.Store.Thresholds
import MeteredUsage.Analytics.Filter
import MeteredUsage.Analytics.Shift
import MeteredUsage.Store.Replacements
import MeteredUsage.Library.Thinning
import MeteredUsage.Analytics.Sample
import MeteredUsage.Library.Reading
import MeteredUsage.Analytics.HealthBuckets
import MeteredUsage.Analytics.Polls
import MeteredUsage.Library.Months
import MeteredUsage.Billing.Tiling
import MeteredUsage.Store.PlanEdits
import MeteredUsage.Library.Groups
import MeteredUsage.Analytics.Totals
import MeteredUsage.Analytics.Series
import MeteredUsage.Analytics.SeriesRows
import MeteredUsage.Analytics.Grid
import MeteredUsage.Library.CheckedSums
import MeteredUsage.Collector.Additions
import MeteredUsage.Analytics.RunningSums
import MeteredUsage.Analytics.TokenSums
import MeteredUsage.Library.Numerals
import MeteredUsage.IdTexts
import MeteredUsage.Library.Base64
import MeteredUsage.Quota.Base64Url
import MeteredUsage.Library.Codes
import MeteredUsage.Store.RecordHash
import MeteredUsage.Library.Paging
import MeteredUsage.Library.Minting
import MeteredUsage.Store.Minted
import MeteredUsage.Usage.Pages
import MeteredUsage.Usage.Walks
import MeteredUsage.Store.Deliveries
import MeteredUsage.Store.Reversals
import MeteredUsage.Store.Following
import MeteredUsage.Gateway.Respent
import MeteredUsage.Gateway.Unattended
import MeteredUsage.Analytics.Charts
import MeteredUsage.Analytics.Sessions
import MeteredUsage.Http.Auth
import MeteredUsage.Store.Restarts
import MeteredUsage.Quota.Calibrations
import MeteredUsage.Analytics.Summaries
import MeteredUsage.Gateway.Readers
import MeteredUsage.Gateway.Refreshes
