import ReceiptScanner.ReadCommitted.Rows
import ReceiptScanner.ReadCommitted.Database
import ReceiptScanner.ReadCommitted.Statement
import ReceiptScanner.ReadCommitted.Program
import ReceiptScanner.ReadCommitted.System
import ReceiptScanner.ReadCommitted.Processes
import ReceiptScanner.ReadCommitted.Interference
import ReceiptScanner.ReadCommitted.Integrity
import ReceiptScanner.ReadCommitted.Logic
import ReceiptScanner.ReadCommitted.Invariant
import ReceiptScanner.ReadCommitted.Soundness
import ReceiptScanner.ReadCommitted.Session
import ReceiptScanner.ReadCommitted.Scope
import ReceiptScanner.ReadCommitted.Rules
import ReceiptScanner.ReadCommitted.Footprint
import ReceiptScanner.ReadCommitted.Inserts
import ReceiptScanner.ReadCommitted.Evidence
import ReceiptScanner.Receipts.Kinds
import ReceiptScanner.Receipts.Errors
import ReceiptScanner.Receipts.JsonInput
import ReceiptScanner.Receipts.LedgerInput
import ReceiptScanner.Receipts.Rounding
import ReceiptScanner.Store.Tables
import ReceiptScanner.Store.Task
import ReceiptScanner.Services.ItemService
import ReceiptScanner.Services.ReceiptService
import ReceiptScanner.Services.ReferenceDataService
import ReceiptScanner.Services.AuthService
import ReceiptScanner.Services.AuthController
import ReceiptScanner.Services.ScanWorker
import ReceiptScanner.Services.AnthropicScanProvider
import ReceiptScanner.Services.AnthropicTransport
import ReceiptScanner.Numerals.Strto
import ReceiptScanner.Numerals.Nearest
import ReceiptScanner.Percent.Encoding
import ReceiptScanner.Matching.Keyed
import ReceiptScanner.Windows.Meter
import ReceiptScanner.Storage.S3ImageStore
import ReceiptScanner.Tools.GoldenHarness
import ReceiptScanner.Application
import ReceiptScanner.Runs.Labels
import ReceiptScanner.Runs.Promise
import ReceiptScanner.Runs.Rules
import ReceiptScanner.Runs.Items
import ReceiptScanner.Runs.Reference
import ReceiptScanner.Runs.Receipts
import ReceiptScanner.Runs.Scan
import ReceiptScanner.Runs.Verified
import ReceiptScanner.Runs.Batches
import ReceiptScanner.Runs.Deposits
import ReceiptScanner.Runs.Edits
import ReceiptScanner.Runs.Atomic
import ReceiptScanner.Ledger.Identity
import ReceiptScanner.Ledger.Tokens
import ReceiptScanner.Ledger.Claims
import ReceiptScanner.Ledger.Images
import ReceiptScanner.Ledger.ImageOrder
import ReceiptScanner.Ledger.ImageCap
import ReceiptScanner.Ledger.Duplicates
import ReceiptScanner.Ledger.Objects
import ReceiptScanner.Ledger.Deletion
import ReceiptScanner.Ledger.Validity
import ReceiptScanner.Ledger.Sides
import ReceiptScanner.Ledger.Settlement
import ReceiptScanner.Ledger.Reviewed
import ReceiptScanner.Ledger.Tenants
import ReceiptScanner.Ledger.Budget
import ReceiptScanner.Ledger.Offsets
import ReceiptScanner.Ledger.Stamps
import ReceiptScanner.Ledger.Verdict
import ReceiptScanner.Ledger.Replay
import ReceiptScanner.Ledger.Resend
import ReceiptScanner.Ledger.Review
import ReceiptScanner.Ledger.Extraction
import ReceiptScanner.Ledger.Backlog
import ReceiptScanner.Ledger.Atomicity
import ReceiptScanner.ReadCommitted.Follow
import ReceiptScanner.ReadCommitted.Stages
import ReceiptScanner.ReadCommitted.Calls
import ReceiptScanner.ReadCommitted.Onsets
import ReceiptScanner.ReadCommitted.Uniqueness
import ReceiptScanner.ReadCommitted.Alone
import ReceiptScanner.ReadCommitted.Regions
import ReceiptScanner.ReadCommitted.Twins
import ReceiptScanner.Services.ReceiptController
import ReceiptScanner.Tenancy.Estate
import ReceiptScanner.Tenancy.Services
import ReceiptScanner.Tenancy.Owners
import ReceiptScanner.Tenancy.Noninterference
import ReceiptScanner.Accounts.Access
import ReceiptScanner.Accounts.Sessions
import ReceiptScanner.Accounts.Expiry
import ReceiptScanner.Accounts.Resets
import ReceiptScanner.Accounts.SingleUse
import ReceiptScanner.Accounts.Confirmations
import ReceiptScanner.Accounts.Logout
import ReceiptScanner.Accounts.Limits
import ReceiptScanner.Accounts.Attempts
import ReceiptScanner.Requests.Refusals
import ReceiptScanner.Requests.Resend
import ReceiptScanner.Requests.Dates
import ReceiptScanner.Requests.Patches
import ReceiptScanner.Requests.Equivalents
import ReceiptScanner.Provider.Replies
import ReceiptScanner.Provider.Schema
import ReceiptScanner.Provider.Agreement
import ReceiptScanner.Provider.Magnitudes
import ReceiptScanner.Provider.Window
import ReceiptScanner.Provider.Names
import ReceiptScanner.Sql.Query
import ReceiptScanner.Sql.Order
import ReceiptScanner.Sql.Paging
import ReceiptScanner.Ledger.Pages
import ReceiptScanner.Stats.Views
import ReceiptScanner.Stats.Accounting
import ReceiptScanner.ReadCommitted.Bystander
import ReceiptScanner.Ledger.Immutable
import ReceiptScanner.ReadCommitted.Quota
import ReceiptScanner.Ledger.Slots
import ReceiptScanner.Accounts.Sources
import ReceiptScanner.Accounts.Provenance
import ReceiptScanner.ReadCommitted.Index
import ReceiptScanner.ReadCommitted.Serial
import ReceiptScanner.Accounts.Book
import ReceiptScanner.Accounts.Requests
import ReceiptScanner.Accounts.Visits
import ReceiptScanner.Accounts.Hiding
import ReceiptScanner.Services.AuthForms
import ReceiptScanner.Accounts.Forms
