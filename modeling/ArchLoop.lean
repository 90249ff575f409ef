import ArchLoop.Proofs.FencedLanding
import ArchLoop.Proofs.LandingGate
import ArchLoop.Proofs.LeaseExclusion
import ArchLoop.Proofs.QueueConcurrency
import ArchLoop.Proofs.RemoteSafety
import ArchLoop.Reconciliation
import ArchLoop.BatchMerge
import ArchLoop.Proofs.DeliveryHold
import ArchLoop.Proofs.DriftRebuild
import ArchLoop.Proofs.LegacyAdoption
import ArchLoop.Proofs.PublicationOutbox
import ArchLoop.Proofs.TicketStatus
import ArchLoop.Proofs.Superseded
import ArchLoop.Proofs.BatchVerdict
import ArchLoop.Proofs.CheckoutProjection
import ArchLoop.Proofs.WorktreeExclusion
import ArchLoop.Proofs.RunOutcome
import ArchLoop.Proofs.TaskBranch
import ArchLoop.Proofs.BatchResume
import ArchLoop.Proofs.PolicyInit
import ArchLoop.Proofs.SandboxLease
import ArchLoop.Proofs.TaskWrites
import ArchLoop.Proofs.MigrationExclusion
import ArchLoop.Proofs.MigrationVerification
import ArchLoop.Proofs.MigrationRecovery
import ArchLoop.Lib.JsonRecord
import ArchLoop.Lib.Among
import ArchLoop.TaskBoard
import ArchLoop.Proofs.HandleLeases
import ArchLoop.Proofs.CleanupSafety
import ArchLoop.Proofs.WorktreeIdentity
import ArchLoop.BeadsStore
import ArchLoop.PrdDecomposition
import ArchLoop.TaskTransitions
import ArchLoop.Triage
import ArchLoop.Proofs.PrdApply
import ArchLoop.Proofs.TriageScope
import ArchLoop.Lib.CommitGraph
import ArchLoop.SandboxLifecycle
import ArchLoop.SandboxOwner
import ArchLoop.Proofs.TempBranch
import ArchLoop.Lib.Quoting
import ArchLoop.Lib.Stable
import ArchLoop.ProposalSession
import ArchLoop.Proofs.ProposalIntegrity
import ArchLoop.Proofs.SuffixInvalidation
import ArchLoop.QueueHeadLanding
import ArchLoop.Proofs.QueueHead
import ArchLoop.Proofs.SandboxOwner
import ArchLoop.TaskSync
import ArchLoop.TaskPull
import ArchLoop.Proofs.PushPull
import ArchLoop.Proofs.TransitionSpec
import ArchLoop.Proofs.StatusAgreement
import ArchLoop.Proofs.SnapshotPatch
import ArchLoop.RunEventLog
import ArchLoop.Proofs.LatestEvent
import ArchLoop.TaskClaim
import ArchLoop.Proofs.ClaimAgreement
import ArchLoop.Proofs.CandidateGenerations
import ArchLoop.Proofs.BatchAccounts
import ArchLoop.Proofs.ClosedEvidence
import ArchLoop.HostDirty
import ArchLoop.Proofs.HostDirty
import ArchLoop.JournalFile
import ArchLoop.Proofs.JournalFile
import ArchLoop.RepairLedger
import ArchLoop.BatchPlanner
import ArchLoop.Lib.Double
import ArchLoop.LeaseFile
import ArchLoop.ManagedBranch
import ArchLoop.Proofs.RepairLedger
import ArchLoop.Proofs.BatchPlanner
import ArchLoop.Proofs.LeaseFile
import ArchLoop.Proofs.ManagedBranch
import ArchLoop.Lib.JsonPretty
import ArchLoop.ProjectRegistry
import ArchLoop.Proofs.ProjectRegistry
import ArchLoop.RunEventFiles
import ArchLoop.Proofs.RunEventFiles
import ArchLoop.TaskNotes
import ArchLoop.Proofs.TaskNotes
import ArchLoop.Proofs.InterruptedTransition
import ArchLoop.Proofs.TriageOutcome
import ArchLoop.Lib.Search
import ArchLoop.StructuredOutput
import ArchLoop.Proofs.TaggedOutput
import ArchLoop.Lib.DepthFirst
import ArchLoop.Proofs.ProposalCycles
import ArchLoop.Lib.Pattern
import ArchLoop.PromptTemplate
import ArchLoop.Proofs.PromptTemplate
import ArchLoop.DraftPrompt
import ArchLoop.Proofs.DraftPrompt
import ArchLoop.RunDisplay
import ArchLoop.Proofs.RunDisplay
import ArchLoop.AgentProvider
import ArchLoop.Orchestrator
import ArchLoop.AgentStream
import ArchLoop.SessionStore
import ArchLoop.SandboxEnv
import ArchLoop.Proofs.RecoverableExit
import ArchLoop.Proofs.StartupAbort
import ArchLoop.Proofs.AgentStream
import ArchLoop.Proofs.SessionStore
import ArchLoop.Proofs.SandboxEnv
import ArchLoop.Proofs.TaskPull
import ArchLoop.Lib.Shell
import ArchLoop.ShellCommands
import ArchLoop.Proofs.ShellCommands
import ArchLoop.SectionText
import ArchLoop.Proofs.TextWrap
import ArchLoop.Lib.Path
import ArchLoop.GitMounts
import ArchLoop.Proofs.GitMounts
import ArchLoop.Lib.Parallel
import ArchLoop.BatchLoop
import ArchLoop.Proofs.BatchLoop
import ArchLoop.EnvFile
import ArchLoop.Proofs.EnvFile
