import Memorist.Semantic.CandidateMapping

/-!
What a message may be trusted for (`memory_worker/semantic/provenance_policy.py`).

* `decideCandidateProvenance`: the authority and the status of a candidate, from the
  role of its message and its route;
* `decideCandidateProvenance_allows`: what holds of the decisions that create a memory
  automatically;
* `decideCandidateProvenance_userExplicit`: only a user's own message speaks as the user.
-/

namespace Memorist

/-- Who a candidate speaks for. -/
inductive SourceAuthority where
  | userExplicit
  | userImplied
  | assistantClaim
  | toolObservation
  | systemInstruction
  | importedRecord
  deriving DecidableEq, Repr

/-- The text of a source authority. -/
def SourceAuthority.value : SourceAuthority → String
  | userExplicit => "user_explicit"
  | userImplied => "user_implied"
  | assistantClaim => "assistant_claim"
  | toolObservation => "tool_observation"
  | systemInstruction => "system_instruction"
  | importedRecord => "imported_record"

lemma SourceAuthority.value_injective : Function.Injective SourceAuthority.value := by
  intro a b; cases a <;> cases b <;> simp [value]

/-- Whether a candidate was said or read into what was said. -/
inductive Explicitness where
  | explicit
  | implied
  | inferred
  deriving DecidableEq, Repr

/-- The text of an explicitness. -/
def Explicitness.value : Explicitness → String
  | explicit => "explicit"
  | implied => "implied"
  | inferred => "inferred"

/-- The routes a tool may report facts on. -/
def factualToolRoutes : List MemorySignalRouteType :=
  [.jiraConfiguration, .processFact, .projectContext, .resourceReference]

/-- The routes a system message may direct. -/
def systemDirectiveRoutes : List MemorySignalRouteType :=
  [.promptInstruction, .stylePolicy, .taskConstraint, .terminologyRule, .workflowPolicy]

/-- The routes that ask for a review. -/
def reviewRoutes : List MemorySignalRouteType := [.manualReview, .privacyReview]

/-- The routes of an assistant's project artifacts. -/
def assistantArtifactRoutes : List MemorySignalRouteType :=
  [.projectContext, .processFact, .resourceReference]

/-- What a candidate's source allows. -/
structure CandidateProvenanceDecision where
  sourceAuthority : SourceAuthority
  explicitness : Explicitness
  status : CandidateStatus
  allowsCandidateCreation : Bool
  allowsAutomaticMemoryCreation : Bool
  reasonCodes : List String
  deriving DecidableEq, Repr

/-- The decision before the review routes are held back. -/
def sourceDecision (messageRole : MessageRole) (routeType : MemorySignalRouteType)
    (routeStatus : CandidateStatus) (importedRecord : Bool) : CandidateProvenanceDecision :=
  let ready := routeStatus = .readyForConsolidation
  if importedRecord then ⟨.importedRecord, .inferred, routeStatus, true, ready, []⟩
  else match messageRole with
    | .assistant =>
        if routeType ∈ assistantArtifactRoutes then
          ⟨.assistantClaim, .inferred, routeStatus, true, ready, ["assistant_project_artifact"]⟩
        else
          ⟨.assistantClaim, .inferred, .rejected, true, false,
            ["assistant_claim_not_user_authoritative"]⟩
    | .tool =>
        if routeType ∈ factualToolRoutes then
          ⟨.toolObservation, .explicit, routeStatus, true, ready, []⟩
        else
          ⟨.toolObservation, .explicit, routeStatus, false, false,
            ["tool_route_not_provenance_compatible"]⟩
    | .system =>
        if routeType ∈ systemDirectiveRoutes then
          ⟨.systemInstruction, .explicit, routeStatus, true, ready, []⟩
        else
          ⟨.systemInstruction, .explicit, routeStatus, false, false,
            ["system_route_not_provenance_compatible"]⟩
    | .user => ⟨.userExplicit, .explicit, routeStatus, true, ready, []⟩

/-- Apply source trust without relabelling non-user text as user authority. -/
def decideCandidateProvenance (messageRole : MessageRole) (routeType : MemorySignalRouteType)
    (routeStatus : CandidateStatus) (importedRecord : Bool) : CandidateProvenanceDecision :=
  let decision := sourceDecision messageRole routeType routeStatus importedRecord
  let decision :=
    if routeType ∈ reviewRoutes then
      { decision with
        status := if decision.status = .rejected then .rejected else .needsReview
        allowsAutomaticMemoryCreation := false
        reasonCodes := decision.reasonCodes ++ ["route_requires_manual_review"] }
    else decision
  { decision with
    allowsAutomaticMemoryCreation :=
      decision.allowsAutomaticMemoryCreation && decision.allowsCandidateCreation }

/-- The explicitness an authority carries. -/
def SourceAuthority.carries : SourceAuthority → Explicitness
  | importedRecord | assistantClaim => .inferred
  | _ => .explicit

/-- The reasons recorded for a memory that an authority creates automatically. -/
def SourceAuthority.creationReasons : SourceAuthority → List String
  | assistantClaim => ["assistant_project_artifact"]
  | _ => []

section

variable {messageRole : MessageRole} {routeType : MemorySignalRouteType}
  {routeStatus : CandidateStatus} {importedRecord : Bool}

/-- A decision that creates a memory automatically keeps the ready status of its route, and its
authority fixes the rest of it. -/
theorem decideCandidateProvenance_allows
    (h : (decideCandidateProvenance messageRole routeType routeStatus
      importedRecord).allowsAutomaticMemoryCreation = true) :
    routeStatus = .readyForConsolidation ∧ routeType ∉ reviewRoutes ∧
      decideCandidateProvenance messageRole routeType routeStatus importedRecord =
        let authority := (decideCandidateProvenance messageRole routeType routeStatus
          importedRecord).sourceAuthority
        ⟨authority, authority.carries, .readyForConsolidation, true, true,
          authority.creationReasons⟩ := by
  by_cases hreview : routeType ∈ reviewRoutes
  · simp [decideCandidateProvenance, hreview] at h
  · simp only [decideCandidateProvenance, if_neg hreview] at h ⊢
    rw [Bool.and_eq_true] at h
    obtain ⟨hmemory, hcandidate⟩ := h
    cases importedRecord with
    | true =>
        simp only [sourceDecision, if_true, decide_eq_true_eq] at hmemory ⊢
        simp [hreview, hmemory, SourceAuthority.carries, SourceAuthority.creationReasons]
    | false =>
        cases messageRole <;> simp only [sourceDecision, Bool.false_eq_true, if_false] at * <;>
          (try split_ifs at * with hroute) <;>
          simp_all [SourceAuthority.carries, SourceAuthority.creationReasons]

/-- Only a message of the user that is not an imported record speaks as the user. -/
theorem decideCandidateProvenance_userExplicit
    (h : (decideCandidateProvenance messageRole routeType routeStatus
      importedRecord).sourceAuthority = .userExplicit) :
    messageRole = .user ∧ importedRecord = false := by
  have hsource : (sourceDecision messageRole routeType routeStatus
      importedRecord).sourceAuthority = .userExplicit := by
    by_cases hreview : routeType ∈ reviewRoutes <;>
      simpa [decideCandidateProvenance, hreview] using h
  cases importedRecord with
  | true => simp [sourceDecision] at hsource
  | false =>
      cases messageRole with
      | user => exact ⟨rfl, rfl⟩
      | _ =>
          simp only [sourceDecision, Bool.false_eq_true, if_false] at hsource
          split_ifs at hsource

end

end Memorist
