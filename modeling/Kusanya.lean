import Kusanya.Guarantees.AuditTampering
import Kusanya.Guarantees.BackupCodes
import Kusanya.Guarantees.BillArithmetic
import Kusanya.Guarantees.BillBalances
import Kusanya.Guarantees.BillCreation
import Kusanya.Guarantees.BillTotals
import Kusanya.Guarantees.CallbackConfinement
import Kusanya.Guarantees.CallbackTotality
import Kusanya.Guarantees.ConflictingReports
import Kusanya.Guarantees.ControlNumbers
import Kusanya.Guarantees.CredentialLifecycle
import Kusanya.Guarantees.CurrencyCoherence
import Kusanya.Guarantees.DeadReferences
import Kusanya.Guarantees.DeliveredCallbacks
import Kusanya.Guarantees.DurableInitiation
import Kusanya.Guarantees.EncryptionMigrations
import Kusanya.Guarantees.EventCompleteness
import Kusanya.Guarantees.ExactSearch
import Kusanya.Guarantees.ExactlyOnce
import Kusanya.Guarantees.FirstLogin
import Kusanya.Guarantees.LastAdministrator
import Kusanya.Guarantees.Lifecycle
import Kusanya.Guarantees.Lockout
import Kusanya.Guarantees.MfaGate
import Kusanya.Guarantees.NumberReuse
import Kusanya.Guarantees.OutboxCompleteness
import Kusanya.Guarantees.PasswordBlindness
import Kusanya.Guarantees.PaymentFolding
import Kusanya.Guarantees.PlaceholderWrites
import Kusanya.Guarantees.PlatformFees
import Kusanya.Guarantees.RateLimiting
import Kusanya.Guarantees.ReadNoninterference
import Kusanya.Guarantees.ReceiptGeneration
import Kusanya.Guarantees.Reconciliation
import Kusanya.Guarantees.ReconciliationIsolation
import Kusanya.Guarantees.SettlementChains
import Kusanya.Guarantees.SettlementFinality
import Kusanya.Guarantees.TemplateNoninterference
import Kusanya.Guarantees.TotpVerification
import Kusanya.Guarantees.Unwinding
import Kusanya.Guarantees.WebhookDelivery
import Kusanya.Guarantees.WebhookSigning
import Kusanya.Invariants.Acts
import Kusanya.Invariants.Agreement
import Kusanya.Invariants.Concerns
import Kusanya.Invariants.Concurrent
import Kusanya.Model.Login
import Kusanya.Model.Sandbox
import Kusanya.Moves.Composed
import Kusanya.Moves.Persistence
import Kusanya.Moves.Retries
import Kusanya.ReadCommitted.Disciplined
import Kusanya.ReadCommitted.Logic
import Kusanya.ReadCommitted.PrimaryKeys
import Kusanya.ReadCommitted.Recorded
import Kusanya.Support.Growing
import Kusanya.Support.HashChain
import Kusanya.Support.JsonText
import Kusanya.Support.Sha256
import Kusanya.System.Accounting
import Kusanya.System.Agreement
import Kusanya.System.EveryRequest
import Kusanya.System.Isolation
import Kusanya.System.Retries
import Kusanya.System.RowIdentity
import Kusanya.System.Tenancy
