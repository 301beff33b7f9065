import ConfidentialBalances.Effect.Program
import ConfidentialBalances.Effect.System
import ConfidentialBalances.Effect.Transcript
import ConfidentialBalances.Effect.Within
import ConfidentialBalances.Effect.Parallel
import ConfidentialBalances.Effect.Choices
import ConfidentialBalances.Effect.History
import ConfidentialBalances.Effect.Interleaving
import ConfidentialBalances.Types
import ConfidentialBalances.Encryption
import ConfidentialBalances.Account
import ConfidentialBalances.Instruction
import ConfidentialBalances.Ledger
import ConfidentialBalances.Effects
import ConfidentialBalances.UnreadSettings
import ConfidentialBalances.Frame
import ConfidentialBalances.Client
import ConfidentialBalances.Landing
import ConfidentialBalances.MintSettings
import ConfidentialBalances.Exchanges
import ConfidentialBalances.Submissions
import ConfidentialBalances.ProofGeneration
import ConfidentialBalances.IdealProofs
import ConfidentialBalances.Configure
import ConfidentialBalances.Deposit
import ConfidentialBalances.ApplyPending
import ConfidentialBalances.Withdraw
import ConfidentialBalances.Staging
import ConfidentialBalances.Transfer
import ConfidentialBalances.TransferProtocol
import ConfidentialBalances.Operations
import ConfidentialBalances.TemporaryAccounts
import ConfidentialBalances.Rent
import ConfidentialBalances.Cleanup
import ConfidentialBalances.Tasks
import ConfidentialBalances.OperationEffects
import ConfidentialBalances.Synchronisation
import ConfidentialBalances.Decryption
import ConfidentialBalances.Overlap
import ConfidentialBalances.Credits
import ConfidentialBalances.DemoServer
import ConfidentialBalances.Signing
import ConfidentialBalances.Sight
import ConfidentialBalances.RecentEvents
import ConfidentialBalances.StagedProof
import ConfidentialBalances.PacketSize
import ConfidentialBalances.WithdrawOutcome
import ConfidentialBalances.Announcements
import ConfidentialBalances.EventStreams
import ConfidentialBalances.Preparation
import ConfidentialBalances.Funding
import ConfidentialBalances.Idempotence
import ConfidentialBalances.Readability
import ConfidentialBalances.BalanceReaders
import ConfidentialBalances.InlineProof
import ConfidentialBalances.Payment
import ConfidentialBalances.Bystander
import ConfidentialBalances.Preflight
import ConfidentialBalances.Arrivals
import ConfidentialBalances.AuditorAmounts
import ConfidentialBalances.ExistingMint
import ConfidentialBalances.Interference
import ConfidentialBalances.Endpoints
import ConfidentialBalances.Conduct
import ConfidentialBalances.JobConduct
import ConfidentialBalances.Concurrency
import ConfidentialBalances.Holdings
import ConfidentialBalances.Solvency
import ConfidentialBalances.Computation
import ConfidentialBalances.JobComputation
import ConfidentialBalances.LandedCalls
import ConfidentialBalances.Effect.Trail
import ConfidentialBalances.SharedAccounts
import ConfidentialBalances.OverlapRefinement
import ConfidentialBalances.Bank
import ConfidentialBalances.Linearization
import ConfidentialBalances.Completion
import ConfidentialBalances.Reporting
import ConfidentialBalances.JobReports
import ConfidentialBalances.LiveStreams
import ConfidentialBalances.Effect.Broadcast
import ConfidentialBalances.Json
import ConfidentialBalances.Subscribers
import ConfidentialBalances.Json.Bytes
import ConfidentialBalances.Environment
