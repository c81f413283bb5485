import OutcomeAssurance.Runs
import OutcomeAssurance.KeyedTable
import OutcomeAssurance.PointerStack
import OutcomeAssurance.Interleaving
import OutcomeAssurance.HashChain
import OutcomeAssurance.PrefixCode
import OutcomeAssurance.ReleaseModel
import OutcomeAssurance.ReleaseCommit
import OutcomeAssurance.ReleaseSteps
import OutcomeAssurance.ReleaseStack
import OutcomeAssurance.ReleaseLifecycle
import OutcomeAssurance.ReleaseVetting
import OutcomeAssurance.ReleaseQueries
import OutcomeAssurance.ReleaseCache
import OutcomeAssurance.RollbackRetry
import OutcomeAssurance.ReleaseLog
import OutcomeAssurance.ReleaseSerial
import OutcomeAssurance.PyText
import OutcomeAssurance.ReviewModel
import OutcomeAssurance.ReviewRace
import OutcomeAssurance.PyDict
import OutcomeAssurance.PyRuntime
import OutcomeAssurance.CaseModel
import OutcomeAssurance.TraceChain
import OutcomeAssurance.JsonText
import OutcomeAssurance.ChainVerifier
import OutcomeAssurance.ChainBinding
import OutcomeAssurance.ChainRemoval
import OutcomeAssurance.Retrieval
import OutcomeAssurance.Backtracking
import OutcomeAssurance.Guardrails
import OutcomeAssurance.Investigation
import OutcomeAssurance.Validation
import OutcomeAssurance.Resolution
import OutcomeAssurance.Pipeline
import OutcomeAssurance.FaultVerdict
import OutcomeAssurance.FaultConflict
import OutcomeAssurance.CaseStore
import OutcomeAssurance.CaseKeys
import OutcomeAssurance.CaseClock
import OutcomeAssurance.CaseOwnership
import OutcomeAssurance.CaseIsolation
import OutcomeAssurance.CaseApi
import OutcomeAssurance.DecisionDurability
import OutcomeAssurance.EvidenceView
import OutcomeAssurance.CaseDecision
import OutcomeAssurance.UntrustedText
import OutcomeAssurance.RetrievalOrder
import OutcomeAssurance.RejectedEvidence
import OutcomeAssurance.AdmissionTrace
import OutcomeAssurance.RedactedDisplay
import OutcomeAssurance.SourceProvenance
import OutcomeAssurance.ReplayRace
import OutcomeAssurance.ConditionQueue
import OutcomeAssurance.SlotLimiter
import OutcomeAssurance.LostWakeup
import OutcomeAssurance.Occurrences
import OutcomeAssurance.KeyReplay
import OutcomeAssurance.Admissibility
import OutcomeAssurance.CaseReplacement
import OutcomeAssurance.Evaluation
import OutcomeAssurance.ReleaseGate
import OutcomeAssurance.TokenBucket
import OutcomeAssurance.RateLimiter
import OutcomeAssurance.ModelBackend
import OutcomeAssurance.Streaming
import OutcomeAssurance.StreamStatus
import OutcomeAssurance.StreamShape
import OutcomeAssurance.StreamRouter
import OutcomeAssurance.Citations
import OutcomeAssurance.ContradictionReport
import OutcomeAssurance.TraceStorage
import OutcomeAssurance.RetryAfter
import OutcomeAssurance.RecentlyUsed
import OutcomeAssurance.BucketStore
import OutcomeAssurance.LimiterSafety
import OutcomeAssurance.QueueOrder
import OutcomeAssurance.PatternMatches
import OutcomeAssurance.Substitution
import OutcomeAssurance.RedactionComplete
import OutcomeAssurance.LocalSubstitution
import OutcomeAssurance.DigitGroups
import OutcomeAssurance.MobilePatterns
import OutcomeAssurance.MobileNumbers
import OutcomeAssurance.Cosine
import OutcomeAssurance.Relevance
import OutcomeAssurance.ScoreInterval
import OutcomeAssurance.WilsonBound
import OutcomeAssurance.Refinement
import OutcomeAssurance.CaseQueries
import OutcomeAssurance.CaseViews
import OutcomeAssurance.CaseTraces
import OutcomeAssurance.CaseIntegrity
import OutcomeAssurance.CaseDesk
import OutcomeAssurance.DeskRefinement
import OutcomeAssurance.CaseComponents
import OutcomeAssurance.TokenMap
import OutcomeAssurance.DecisionOrigin
import OutcomeAssurance.Ledger
import OutcomeAssurance.ServingBooks
import OutcomeAssurance.ServedTokens
import OutcomeAssurance.RouterCalls
import OutcomeAssurance.ServedCheckpoint
import OutcomeAssurance.Scripts
import OutcomeAssurance.EvaluationStore
import OutcomeAssurance.ReleaseRecords
import OutcomeAssurance.ControlChain
import OutcomeAssurance.Tallies
import OutcomeAssurance.EvaluationCounts
import OutcomeAssurance.AuditReplay
import OutcomeAssurance.RouterAnswers
import OutcomeAssurance.JsonReader
import OutcomeAssurance.EventWire
import OutcomeAssurance.LoadTest
import OutcomeAssurance.Sessions
import OutcomeAssurance.CaseSessions
import OutcomeAssurance.DeskSessions
import OutcomeAssurance.SessionMoments
import OutcomeAssurance.CaseAvailability
