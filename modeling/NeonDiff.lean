import NeonDiff.Lib.Table
import NeonDiff.Lib.Program
import NeonDiff.Store.Ledger
import NeonDiff.Store.Approval
import NeonDiff.Store.Carry
import NeonDiff.Capacity.Exclusion
import NeonDiff.Commands.Polls
import NeonDiff.Commands.Trusted
import NeonDiff.Review.Hunks
import NeonDiff.Review.Representatives
import NeonDiff.Review.Answered
import NeonDiff.Recheck.FailClosed
import NeonDiff.Gate.Safety
import NeonDiff.Lease.Reserve
import NeonDiff.Heartbeat.Safety
import NeonDiff.License.Confluence
import NeonDiff.Admission.Live
import NeonDiff.Admission.Grace
import NeonDiff.Budget.Preview
import NeonDiff.Queue.Fence
import NeonDiff.Queue.Unfinished
import NeonDiff.Billing.Replay
import NeonDiff.Broker.Confinement
import NeonDiff.Broker.OneShot
import NeonDiff.Enrichment.Watermark
import NeonDiff.Receipts.Convergence
import NeonDiff.Retire.Safety
import NeonDiff.License.Entitlement
import NeonDiff.License.Seats
import NeonDiff.Issuance.Usable
import NeonDiff.Job.Released
import NeonDiff.License.OnePurchase
import NeonDiff.Sessions.Accounting
import NeonDiff.Sticky.Unique
import NeonDiff.Lease.Expiry
import NeonDiff.Lib.Fields
import NeonDiff.Lib.Binary64
import NeonDiff.Outcome.Calibration
import NeonDiff.Outcome.Observer
import NeonDiff.Outcome.PerFinding
import NeonDiff.Store.Cooldown
import NeonDiff.Enrichment.Posted
import NeonDiff.Enrichment.Overlap
import NeonDiff.Enrichment.Agreement
import NeonDiff.Events.Bounded
import NeonDiff.Events.Exact
import NeonDiff.AdmissionLedger.Calls
import NeonDiff.AdmissionLedger.Caps
import NeonDiff.AdmissionLedger.Loops
import NeonDiff.AdmissionLedger.Conserved
import NeonDiff.AdmissionLedger.Runs
import NeonDiff.Marker.Lifecycle
import NeonDiff.Marker.Recovered
import NeonDiff.LeaseClear.Model
import NeonDiff.LeaseClear.Sound
import NeonDiff.Lib.Regex
import NeonDiff.Lib.RegexSource
import NeonDiff.Lib.Replace
import NeonDiff.PathFilter.Model
import NeonDiff.PublicCommands.Cooldown
import NeonDiff.Shadow.Backfill
import NeonDiff.PathFilter.Exact
import NeonDiff.PathFilter.Filters
import NeonDiff.PreMerge.Model
import NeonDiff.PreMerge.Details
import NeonDiff.PreMerge.Isolation
import NeonDiff.PreMerge.Verdict
import NeonDiff.Broker.Liveness
import NeonDiff.ContextBudget.Chunks
import NeonDiff.Events.Framing
import NeonDiff.Lib.FileTree
import NeonDiff.Lib.JsonChecks
import NeonDiff.PathSafety.Boundary
import NeonDiff.Eval.Conserved
import NeonDiff.ZCode.Model
import NeonDiff.ZCode.Restored
import NeonDiff.Lib.Separators
import NeonDiff.Worktrees.Cleanup
import NeonDiff.Worktrees.Safety
import NeonDiff.Lib.Phrases
import NeonDiff.License.Canonical
import NeonDiff.Review.Attribution
import NeonDiff.Limiter.Model
import NeonDiff.Limiter.Window
import NeonDiff.MirrorLock.Model
import NeonDiff.MirrorLock.Safety
import NeonDiff.Outcome.Reverts
import NeonDiff.SevereReceipt.Scanner
import NeonDiff.SevereReceipt.Strict
import NeonDiff.Worker.Posted
import NeonDiff.Worker.Ownership
import NeonDiff.Worker.OneReview
import NeonDiff.Worker.AfterPost
import NeonDiff.Worker.Settled
import NeonDiff.Lib.JsonWriter
import NeonDiff.Review.StableText
import NeonDiff.Daemon.Beats
import NeonDiff.Discovery.Model
import NeonDiff.Discovery.Names
import NeonDiff.Discovery.Queued
import NeonDiff.Discovery.Scan
import NeonDiff.Discovery.Activation
