import Splite.Fiscal.Allocation
import Splite.Auth.Sessions
import Splite.Fx.Age
import Splite.Mercantil.Charge
import Splite.Ledger.Evidence
import Splite.Quotas
import Splite.SplitEngine
import Splite.Fairness
import Splite.Ledger.Floor
import Splite.Ledger.Shares
import Splite.Ledger.Stranded
import Splite.Ledger.Deliveries
import Splite.Ledger.Voiding
import Splite.Ledger.Idempotency
import Splite.Fiscal.Builder
import Splite.Fiscal.Snapshot
import Splite.Fiscal.Documents
import Splite.Fiscal.Invoicing
import Splite.Fiscal.Runs
import Splite.Fiscal.Requests
import Splite.Fiscal.Once
import Splite.Fiscal.DeadEnds
import Splite.Fiscal.Late
import Splite.Fiscal.Drift
import Splite.Fiscal.Series
import Splite.Fiscal.Drafts
import Splite.Fiscal.Itemised
import Splite.Fiscal.Claimed
import Splite.Ledger.Opened
import Splite.Fiscal.Bags
import Splite.Fiscal.Declared
import Splite.Fiscal.Agreement
import Splite.Fiscal.Adding
import Splite.Fiscal.ServiceShare
import Splite.Fiscal.Portions
import Splite.Fiscal.Export
import Splite.Platform.Calendar
import Splite.Platform.Charges
import Splite.Platform.Balance
import Splite.Platform.Renewal
import Splite.Platform.Reminders
import Splite.Platform.Anchor
import Splite.Platform.Rif
import Splite.Ledger.Orders
import Splite.Ledger.Activity
import Splite.Bank.Match
import Splite.Bank.Reconciliation
import Splite.Bank.OneToOne
import Splite.Bank.Contested
import Splite.Bank.Amounts
import Splite.Bank.Ingest
import Splite.Mercantil.Rows
import Splite.Mercantil.Amounts
import Splite.Mercantil.Backfill
import Splite.Ledger.MenuPrice
import Splite.Lib.Refusal
import Splite.Staff.Owners
import Splite.Platform.Periods
import Splite.Ledger.Tips
import Splite.Auth.Operators
import Splite.Lib.Owing
import Splite.Fiscal.Mail
import Splite.Lib.Spending
import Splite.Auth.Factors
import Splite.Staff.Invitations
import Splite.Auth.Passwords
import Splite.Platform.Notices
import Splite.Auth.Guests
import Splite.Auth.Base32
import Splite.Lib.CheckDigit
import Splite.Platform.Rif
import Splite.Lib.Unique
import Splite.Platform.Onboarding
import Splite.Lib.Journal
import Splite.Ledger.Journal
import Splite.Platform.Tenants
import Splite.Lib.Query
import Splite.Lib.Sealing
import Splite.Bank.ProviderConfigs
import Splite.Bank.Rotation
import Splite.Lib.Silent
import Splite.Fx.Purge
import Splite.Lib.Expiring
import Splite.Lib.Backed
import Splite.Lib.Monitor
import Splite.Auth.Limiter
import Splite.Auth.Throttle
