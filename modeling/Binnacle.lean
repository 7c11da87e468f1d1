import Binnacle.Storage.RollupHistory
import Binnacle.Storage.Resurrection
import Binnacle.Storage.Gaps
import Binnacle.Api.Live
import Binnacle.Alerts.Attribution
import Binnacle.Alerts.PauseAlert
import Binnacle.Alerts.Reload
import Binnacle.Alerts.Selection
import Binnacle.Alerts.Thresholds
import Binnacle.Alerts.Withdrawal
import Binnacle.Outbound.Policy
import Binnacle.Auth.Setup
import Binnacle.Auth.Mfa
import Binnacle.Settings.Wiring
import Binnacle.Alerts.Inodes
import Binnacle.Api.Exports
import Binnacle.Notifications.Transient
import Binnacle.Notifications.Backoff
import Binnacle.Notifications.WellFormed
import Binnacle.Notifications.Queue
import Binnacle.Notifications.Faults
import Binnacle.Metrics.Bookkeeping
import Binnacle.Checks.Reservations
import Binnacle.Collector.Churn
import Binnacle.Auth.RetryAfter
import Binnacle.Diagnostics.Bundle
import Binnacle.Resources.Names
import Binnacle.Diagnostics.Processes
import Binnacle.Collector.MountTables
