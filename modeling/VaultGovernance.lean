import VaultGovernance.Action
import VaultGovernance.Asset.Basic
import VaultGovernance.Asset.Ledger
import VaultGovernance.Choice
import VaultGovernance.Claim.Basic
import VaultGovernance.Claim.Legacy
import VaultGovernance.Claim.Normalization
import VaultGovernance.CommandLine.Arguments
import VaultGovernance.CommandLine.Commands
import VaultGovernance.Configuration.Basic
import VaultGovernance.Configuration.Reading
import VaultGovernance.Error
import VaultGovernance.Form.Checked
import VaultGovernance.Form.Field
import VaultGovernance.Form.Issue
import VaultGovernance.Form.Scalar
import VaultGovernance.Http.Body
import VaultGovernance.Http.Detail
import VaultGovernance.Http.Endpoint
import VaultGovernance.Http.Reply
import VaultGovernance.Http.Representation
import VaultGovernance.Http.Request
import VaultGovernance.Http.Service
import VaultGovernance.Http.Url
import VaultGovernance.Json.Basic
import VaultGovernance.Json.Coerce
import VaultGovernance.Json.Literal
import VaultGovernance.Json.Reader
import VaultGovernance.Json.Writer
import VaultGovernance.Log.Entry
import VaultGovernance.Log.Level
import VaultGovernance.Log.Template
import VaultGovernance.Main
import VaultGovernance.Metrics.Event
import VaultGovernance.Metrics.Exposition
import VaultGovernance.Metrics.Path
import VaultGovernance.Migration.Chain
import VaultGovernance.Migration.ClaimColumns
import VaultGovernance.Migration.DistributedStatus
import VaultGovernance.Migration.GovernanceTables
import VaultGovernance.Migration.Revision
import VaultGovernance.Migration.Script
import VaultGovernance.Migration.SettingsTable
import VaultGovernance.Migration.SnapshotTable
import VaultGovernance.Migration.Statement
import VaultGovernance.Number.Binary64
import VaultGovernance.Number.Decimal
import VaultGovernance.Number.DecimalText
import VaultGovernance.Number.FixedText
import VaultGovernance.Number.Shortest
import VaultGovernance.OrderedMap
import VaultGovernance.Proofs.Action
import VaultGovernance.Proofs.Change.Basic
import VaultGovernance.Proofs.Operation
import VaultGovernance.Proofs.Rows
import VaultGovernance.Proposal.Ballot
import VaultGovernance.Proposal.Basic
import VaultGovernance.Proposal.Distribution
import VaultGovernance.Proposal.Lifecycle
import VaultGovernance.Proposal.Payload
import VaultGovernance.Session
import VaultGovernance.Settings.Basic
import VaultGovernance.Settings.Document
import VaultGovernance.Snapshot.Basic
import VaultGovernance.Snapshot.Recording
import VaultGovernance.Store.Basic
import VaultGovernance.Store.Column
import VaultGovernance.Store.Connection
import VaultGovernance.Store.Describe
import VaultGovernance.Store.Fixture
import VaultGovernance.Text.Blank
import VaultGovernance.Text.Digit
import VaultGovernance.Text.Integer
import VaultGovernance.Text.Pieces
import VaultGovernance.Text.Printable
import VaultGovernance.Text.Quoted
import VaultGovernance.Timestamp
import VaultGovernance.Uuid
import VaultGovernance.Vault.Basic
import VaultGovernance.Vault.Lifecycle
import VaultGovernance.Vote.Basic
import VaultGovernance.Vote.Casting
import VaultGovernance.Vote.Result
import VaultGovernance.Vote.Tally
import VaultGovernance.Proofs.Change.Ledger
import VaultGovernance.Proofs.Change.Governance
import VaultGovernance.Proofs.Change.Records
import VaultGovernance.Proofs.Change.Run
import VaultGovernance.Proofs.History
import VaultGovernance.Proofs.Identifiers
import VaultGovernance.Proofs.Balances
import VaultGovernance.Proofs.Voting
import VaultGovernance.Proofs.Counting
import VaultGovernance.Proofs.Outcome
import VaultGovernance.Proofs.Execution
import VaultGovernance.Proofs.Trail
import VaultGovernance.Proofs.ProposalHistory
import VaultGovernance.Proofs.VaultHistory
import VaultGovernance.Proofs.Payout
import VaultGovernance.Proofs.Rounding
import VaultGovernance.Proofs.Decision
import VaultGovernance.Proofs.Closing
import VaultGovernance.Proofs.AssetHistory
import VaultGovernance.Proofs.StoredPayload
import VaultGovernance.Proofs.References
import VaultGovernance.Proofs.Atomicity
import VaultGovernance.Proofs.Isolation
import VaultGovernance.Proofs.VoteOrder
import VaultGovernance.Proofs.Showable
import VaultGovernance.Proofs.Legible
import VaultGovernance.Proofs.Conversion
import VaultGovernance.Proofs.Backfill
import VaultGovernance.Proofs.Progress
import VaultGovernance.Proofs.Maps
import VaultGovernance.Proofs.SettingsMap
import VaultGovernance.Proofs.Counters
import VaultGovernance.Proofs.Committed
import VaultGovernance.Proofs.Admission
import VaultGovernance.Proofs.Listing
import VaultGovernance.Proofs.Enactment
import VaultGovernance.Proofs.Nearest
import VaultGovernance.Proofs.Magnitude
import VaultGovernance.Proofs.Shares
import VaultGovernance.Proofs.DecimalText
import VaultGovernance.Proofs.Requests
import VaultGovernance.Proofs.Quantities
import VaultGovernance.Proofs.Significant
import VaultGovernance.Proofs.Lovelace
import VaultGovernance.Proofs.InPlace
import VaultGovernance.Proofs.Spoiling
import VaultGovernance.Proofs.Advancement
import VaultGovernance.Proofs.Accounting
import VaultGovernance.Proofs.PayloadRules
import VaultGovernance.Proofs.DistributionCheck
import VaultGovernance.Proofs.Monotonicity
import VaultGovernance.Proofs.Percentages
import VaultGovernance.Proofs.Leading
import VaultGovernance.Proofs.AssetChange
import VaultGovernance.Proofs.Fees
import VaultGovernance.Proofs.PathNames
import VaultGovernance.Proofs.IntegerSpelling
import VaultGovernance.Proofs.CanonicalBalances
import VaultGovernance.Proofs.BallotOrder
