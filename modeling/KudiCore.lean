import KudiCore.Interleave.Prog
import KudiCore.Interleave.Table
import KudiCore.Interleave.Pool
import KudiCore.Interleave.Protocol
import KudiCore.Interleave.Run
import KudiCore.Interleave.Triple
import KudiCore.Interleave.InStep
import KudiCore.Runtime
import KudiCore.Shared.Amounts
import KudiCore.Interleave.History
import KudiCore.Execution
import KudiCore.Ledger.Recorder
import KudiCore.Ledger.RunningBalance
import KudiCore.Ledger.Clearing
import KudiCore.Compliance.Limits
import KudiCore.Accounts.Handlers
import KudiCore.Idempotency.Guard
import KudiCore.Transfers.Repository
import KudiCore.Transfers.InternalExecutor
import KudiCore.Transfers.FailedTransfer
import KudiCore.Transfers.ExternalTransfer
import KudiCore.Transfers.Sequential
import KudiCore.Concurrency.OptimisticLocking
import KudiCore.Concurrency.AccountWriters
import KudiCore.Concurrency.InternalTransfer
import KudiCore.Concurrency.LostUpdates
import KudiCore.Transfers.Clearing
import KudiCore.Concurrency.Conservation
import KudiCore.Idempotency.KeyCalls
import KudiCore.Idempotency.Protocol
import KudiCore.Idempotency.Callers
import KudiCore.Idempotency.Reclaim
import KudiCore.Idempotency.Completion
import KudiCore.Idempotency.Exclusion
import KudiCore.Idempotency.Outcomes
import KudiCore.Idempotency.Replay
import KudiCore.Compliance.KycProfile
import KudiCore.Accounts.Lifecycle
import KudiCore.Accounts.Opening
import KudiCore.Concurrency.Freezing
import KudiCore.Concurrency.KycGate
import KudiCore.Concurrency.MaxBalance
import KudiCore.Concurrency.Books
import KudiCore.Concurrency.BalanceLedger
import KudiCore.Concurrency.TransferLifecycle
import KudiCore.Transfers.LateFailure
import KudiCore.Concurrency.Deliveries
import KudiCore.Concurrency.Onboarding
import KudiCore.Identity.Rotation
import KudiCore.Identity.Revocation
import KudiCore.Identity.Sessions
import KudiCore.Compliance.Deduplication
import KudiCore.Compliance.AuditTrail
import KudiCore.Identity.Serializability
import KudiCore.Compliance.LimitCurrency
import KudiCore.Transfers.Postings
import KudiCore.Compliance.Watchlist
import KudiCore.Compliance.SanctionsReview
import KudiCore.Compliance.TierHistory
import KudiCore.Identity.Lockout
import KudiCore.Transfers.Ownership
import KudiCore.Transfers.Outages
import KudiCore.Transfers.Redelivery
import KudiCore.Transfers.Saga
import KudiCore.Transfers.Compensation
import KudiCore.Accounts.Nuban
import KudiCore.Seeding.Csv
import KudiCore.Seeding.SanctionsList
import KudiCore.Compliance.Spelling
import KudiCore.Mappers
import KudiCore.Interleave.Keeping
import KudiCore.Interleave.Provenance
import KudiCore.Concurrency.AccountRows
import KudiCore.Concurrency.TransferLimits
import KudiCore.Concurrency.SlidingWindow
import KudiCore.Concurrency.Authorship
import KudiCore.Gateway.Controllers
import KudiCore.Gateway.Authority
import KudiCore.Gateway.AccountRoutes
import KudiCore.Gateway.TransferRoutes
import KudiCore.Gateway.Confinement
import KudiCore.Gateway.KycRoutes
import KudiCore.Gateway.KycAuthority
import KudiCore.Gateway.KycConfinement
import KudiCore.Gateway.KycConfidentiality
