import Memorist.ActiveMemory.RecordedSources
import Memorist.Attachments.Display
import Memorist.Coverage.Ceilings
import Memorist.Coverage.Completable
import Memorist.Governance.Completion
import Memorist.Governance.Polarity
import Memorist.Governance.ResidueExact
import Memorist.Governance.Undo
import Memorist.Heritage.Verified
import Memorist.Imports.ApprovedPlan
import Memorist.Imports.Attempts
import Memorist.Imports.Release
import Memorist.Memory.Acceptance
import Memorist.MemoryControl.EvidenceLimit
import Memorist.MemoryControl.GraphSupport
import Memorist.MemoryControl.Replay
import Memorist.ModelControl.StageRuns
import Memorist.Openwebui.PrivateChats
import Memorist.Openwebui.RouteOrder
import Memorist.PromptBudget.RegistryEdits
import Memorist.Reconstruction.ActivePath
import Memorist.Reconstruction.InternalReasoning
import Memorist.Reconstruction.Renormalization
import Memorist.Reconstruction.TurnOrder
import Memorist.Retrieval.Hybrid
import Memorist.Retrieval.Lexical
import Memorist.Scheduler.Fairness
import Memorist.Security.Actor
import Memorist.Semantic.AcceptableContext
import Memorist.Semantic.SemanticStorage
import Memorist.Semantic.StageExecution
import Memorist.Storage.NestedTransactions
import Memorist.Storage.Outbox
import Memorist.Storage.QueueAccounting
import Memorist.Storage.WriteSafety
import Memorist.Text.Phrases
import Memorist.Worker.ContractBounds
import Memorist.Worker.JobSafety
import Memorist.Worker.SentenceContext
import Memorist.Imports.Cancellation
import Memorist.Imports.Finalization
