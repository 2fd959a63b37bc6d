import FailureOrchestrator.AddedSecrets
import FailureOrchestrator.AppliedOnce
import FailureOrchestrator.AuditChecks
import FailureOrchestrator.AuditRace
import FailureOrchestrator.AutonomousRuntime
import FailureOrchestrator.BrokenChecks
import FailureOrchestrator.ChainedLog
import FailureOrchestrator.ChainedRecords
import FailureOrchestrator.CiAudit
import FailureOrchestrator.CiAuditMinutes
import FailureOrchestrator.CiAuditTotals
import FailureOrchestrator.CiVerification
import FailureOrchestrator.Classifier
import FailureOrchestrator.ConfigErrors
import FailureOrchestrator.ConfigLoad
import FailureOrchestrator.ConfigRoundTrip
import FailureOrchestrator.ContextBuilder
import FailureOrchestrator.ContextLosses
import FailureOrchestrator.CrashRecovery
import FailureOrchestrator.CrlfLines
import FailureOrchestrator.CutCalls
import FailureOrchestrator.DecisionCrash
import FailureOrchestrator.DiffAppend
import FailureOrchestrator.DiffReaders
import FailureOrchestrator.DiffStat
import FailureOrchestrator.DurableApproval
import FailureOrchestrator.EnclosedKeys
import FailureOrchestrator.ErrorTable
import FailureOrchestrator.Evaluator
import FailureOrchestrator.EvidenceFiled
import FailureOrchestrator.EvidenceMirror
import FailureOrchestrator.EvidenceNames
import FailureOrchestrator.EvidenceReviews
import FailureOrchestrator.EvidenceRuns
import FailureOrchestrator.EvidenceStages
import FailureOrchestrator.FileRead
import FailureOrchestrator.FileTree
import FailureOrchestrator.FixSandbox
import FailureOrchestrator.GatewayApproval
import FailureOrchestrator.GovernedPipeline
import FailureOrchestrator.GovernedRuns
import FailureOrchestrator.GraphSearch
import FailureOrchestrator.HashChain
import FailureOrchestrator.HunklessPaths
import FailureOrchestrator.Integrity
import FailureOrchestrator.InterruptedWrites
import FailureOrchestrator.JobKeys
import FailureOrchestrator.JobQueue
import FailureOrchestrator.JobRules
import FailureOrchestrator.JoinedLines
import FailureOrchestrator.JsonChars
import FailureOrchestrator.JsonDicts
import FailureOrchestrator.JsonEvidence
import FailureOrchestrator.JsonRoundTrip
import FailureOrchestrator.KeptTokens
import FailureOrchestrator.LeaseRecords
import FailureOrchestrator.LeaseRuns
import FailureOrchestrator.LogConsistency
import FailureOrchestrator.MarkedLines
import FailureOrchestrator.MetricLabels
import FailureOrchestrator.MoreEvidence
import FailureOrchestrator.NeutralizedText
import FailureOrchestrator.OutputTails
import FailureOrchestrator.PatchSandbox
import FailureOrchestrator.PathSpelling
import FailureOrchestrator.PipelineGraph
import FailureOrchestrator.PolicyMonotone
import FailureOrchestrator.ProtectedPaths
import FailureOrchestrator.PytestLog
import FailureOrchestrator.PytestResult
import FailureOrchestrator.PytestStamps
import FailureOrchestrator.PytestSummary
import FailureOrchestrator.QueueAlone
import FailureOrchestrator.RaisingSort
import FailureOrchestrator.ReaderAgreement
import FailureOrchestrator.RealCi
import FailureOrchestrator.RecordLines
import FailureOrchestrator.RedactedPieces
import FailureOrchestrator.RegexEnds
import FailureOrchestrator.RegexFirst
import FailureOrchestrator.RegexFree
import FailureOrchestrator.RegexReads
import FailureOrchestrator.RegexSub
import FailureOrchestrator.RemovedChecks
import FailureOrchestrator.RepairRuns
import FailureOrchestrator.RetryRuns
import FailureOrchestrator.ReviewAlone
import FailureOrchestrator.ReviewRace
import FailureOrchestrator.RiskGrowth
import FailureOrchestrator.RunAccount
import FailureOrchestrator.RunAttribution
import FailureOrchestrator.RunKnown
import FailureOrchestrator.RunRecords
import FailureOrchestrator.RunSettled
import FailureOrchestrator.Sanitization
import FailureOrchestrator.SanitizedEvidence
import FailureOrchestrator.SanitizedText
import FailureOrchestrator.SecretLeads
import FailureOrchestrator.SecretLines
import FailureOrchestrator.SecretMatches
import FailureOrchestrator.SensitivePaths
import FailureOrchestrator.SettledPasses
import FailureOrchestrator.StableRedaction
import FailureOrchestrator.StateRecord
import FailureOrchestrator.StateStores
import FailureOrchestrator.StoreRuns
import FailureOrchestrator.SuiteCounts
import FailureOrchestrator.SummaryIds
import FailureOrchestrator.SwallowedExcepts
import FailureOrchestrator.TargetRerun
import FailureOrchestrator.TaskDelivery
import FailureOrchestrator.TaskIdempotency
import FailureOrchestrator.TestRemoval
import FailureOrchestrator.TickRuns
import FailureOrchestrator.ToolCalls
import FailureOrchestrator.UntrustedRedaction
import FailureOrchestrator.UntrustedText
import FailureOrchestrator.VerificationRecord
import FailureOrchestrator.VerifiedFix
import FailureOrchestrator.WorkerTick
import FailureOrchestrator.YamlValues
