import Memorist.Semantic.Contracts

/-!
Routes and the shape of their candidates (`memory_worker/semantic/candidate_mapping.py`,
`models/memory_worker.py`).

* `MemorySignalRouteType`, `CandidateType`, `CandidateStatus`: the vocabularies;
* `candidateMappingForRoute`: the candidate of a stored route;
* `candidateMappingForSemanticUnit`: the candidate of a semantic kind;
* `candidateMappingForSemanticUnit_eq`: the candidate of a kind is that of a route
  which no review holds back.
-/

namespace Memorist

/-- What a signal is routed to. -/
inductive MemorySignalRouteType where
  | ignore
  | projectContext
  | workflowPolicy
  | teamObligation
  | promptInstruction
  | stylePolicy
  | terminologyRule
  | userPreference
  | emotionalStance
  | processFact
  | jiraConfiguration
  | taskConstraint
  | resourceReference
  | privacyReview
  | manualReview
  deriving DecidableEq, Repr

/-- The text of a route. -/
def MemorySignalRouteType.value : MemorySignalRouteType → String
  | ignore => "ignore"
  | projectContext => "project_context"
  | workflowPolicy => "workflow_policy"
  | teamObligation => "team_obligation"
  | promptInstruction => "prompt_instruction"
  | stylePolicy => "style_policy"
  | terminologyRule => "terminology_rule"
  | userPreference => "user_preference"
  | emotionalStance => "emotional_stance"
  | processFact => "process_fact"
  | jiraConfiguration => "jira_configuration"
  | taskConstraint => "task_constraint"
  | resourceReference => "resource_reference"
  | privacyReview => "privacy_review"
  | manualReview => "manual_review"

/-- The routes. -/
def MemorySignalRouteType.all : List MemorySignalRouteType :=
  [.ignore, .projectContext, .workflowPolicy, .teamObligation, .promptInstruction, .stylePolicy,
   .terminologyRule, .userPreference, .emotionalStance, .processFact, .jiraConfiguration,
   .taskConstraint, .resourceReference, .privacyReview, .manualReview]

/-- The type of a memory candidate. -/
inductive CandidateType where
  | fact
  | preference
  | goal
  | constraint
  | decision
  | instruction
  | definition
  | episode
  | feedback
  | relationship
  | identity
  | style
  | unresolvedQuestion
  deriving DecidableEq, Repr

/-- The text of a candidate type. -/
def CandidateType.value : CandidateType → String
  | fact => "fact"
  | preference => "preference"
  | goal => "goal"
  | constraint => "constraint"
  | decision => "decision"
  | instruction => "instruction"
  | definition => "definition"
  | episode => "episode"
  | feedback => "feedback"
  | relationship => "relationship"
  | identity => "identity"
  | style => "style"
  | unresolvedQuestion => "unresolved_question"

/-- The status of a memory candidate. -/
inductive CandidateStatus where
  | pending
  | validated
  | rejected
  | needsReview
  | readyForConsolidation
  deriving DecidableEq, Repr

/-- The text of a candidate status. -/
def CandidateStatus.value : CandidateStatus → String
  | pending => "pending"
  | validated => "validated"
  | rejected => "rejected"
  | needsReview => "needs_review"
  | readyForConsolidation => "ready_for_consolidation"

/-- The shape of the candidate of a route. -/
structure RouteCandidateMapping where
  routeType : MemorySignalRouteType
  candidateType : CandidateType
  subjectKey : String
  predicate : String
  objectValue : Text
  normalizedText : Text
  status : CandidateStatus
  rejectionReasonCodes : List String
  deriving DecidableEq, Repr

/-- The route a stored text names. -/
def routeValue (value : Option String) : Option MemorySignalRouteType :=
  value.bind fun text => MemorySignalRouteType.all.find? fun route => route.value = text

/-- The subject of a candidate about its message. -/
def messageSubject : Option String → String
  | some messageUuid => if messageUuid = "" then "message" else "message:" ++ messageUuid
  | none => "message"

/-- The type, subject and predicate of the candidates of a route. -/
def candidateProfile (route : MemorySignalRouteType) (messageUuid : Option String) :
    CandidateType × String × String :=
  match route with
  | .userPreference => (.preference, "user", "preference")
  | .stylePolicy => (.style, "user", "style_policy")
  | .terminologyRule => (.definition, "term", "meaning")
  | .taskConstraint | .workflowPolicy => (.constraint, "project", "constraint")
  | .teamObligation => (.goal, "team", "obligation")
  | .promptInstruction => (.instruction, "prompt", "instruction")
  | .jiraConfiguration => (.fact, "jira", "configuration")
  | .resourceReference => (.fact, "resource", "reference")
  | .projectContext => (.fact, "project", "context")
  | .emotionalStance => (.feedback, "user", "emotional_stance")
  | .privacyReview => (.instruction, "privacy", "review_request")
  | .manualReview => (.fact, messageSubject messageUuid, "manual_review")
  | .ignore | .processFact => (.fact, messageSubject messageUuid, "states")

section

variable (U : UnicodeData)

/-- The text a candidate is compared by. -/
def normalizedCandidateText (candidateType : CandidateType) (subjectKey predicate : String)
    (value : Text) : Text :=
  U.strip ((candidateType.value ++ ":" ++ subjectKey ++ ":" ++ predicate ++ ":").toList ++ value)

/-- The candidate of a route. -/
def candidateMapping (route : MemorySignalRouteType) (text : Text) (messageUuid : Option String) :
    Option RouteCandidateMapping :=
  let value := U.strip text
  if route = .ignore ∨ value = [] then none
  else
    let (candidateType, subjectKey, predicate) := candidateProfile route messageUuid
    let review := route = .privacyReview ∨ route = .manualReview
    some
      { routeType := route
        candidateType, subjectKey, predicate
        objectValue := value
        normalizedText := normalizedCandidateText U candidateType subjectKey predicate value
        status := if review then .needsReview else .readyForConsolidation
        rejectionReasonCodes := if review then [route.value ++ "_requires_manual_review"] else [] }

/-- The candidate of a stored route. -/
def candidateMappingForRoute (routeType : Option String) (text : Text)
    (messageUuid : Option String) : Option RouteCandidateMapping :=
  (routeValue routeType).bind fun route => candidateMapping U route text messageUuid

/-- The route of a semantic kind. -/
def kindRoute (kind : String) : Option MemorySignalRouteType :=
  if kind = "Instruction" ∨ kind = "instruction" then some .promptInstruction
  else if kind ∈ ["Need", "LearningGoal"] then some .teamObligation
  else if kind = "Preference" then some .userPreference
  else if kind = "Constraint" then some .taskConstraint
  else if kind = "Feedback" then some .emotionalStance
  else if kind ∈ ["Decision", "ProjectArtifact", "ProjectState", "FactClaim", "Hypothesis",
      "Correction", "Retraction", "statement", "explanation"] then some .projectContext
  else none

/-- The candidate of the model's semantic kind, or of the unit's type when it names none. -/
def candidateMappingForSemanticUnit (unitType : SemanticUnitType) (text : Text)
    (messageUuid : String) (memoryKind : Option MemoryKind) : Option RouteCandidateMapping :=
  (kindRoute ((memoryKind.map MemoryKind.value).getD unitType.value)).bind fun route =>
    candidateMapping U route text (some messageUuid)

variable {U}

@[simp] lemma routeValue_value (route : MemorySignalRouteType) :
    routeValue (some route.value) = some route := by
  cases route <;> decide

lemma candidateMapping_routeType {route : MemorySignalRouteType} {text : Text}
    {messageUuid : Option String} {m : RouteCandidateMapping}
    (h : candidateMapping U route text messageUuid = some m) : m.routeType = route := by
  rw [candidateMapping] at h
  split_ifs at h
  rw [Option.some.injEq] at h
  rw [← h]

lemma candidateMapping_status {route : MemorySignalRouteType} {text : Text}
    {messageUuid : Option String} {m : RouteCandidateMapping}
    (h : candidateMapping U route text messageUuid = some m) :
    m.status =
      if route = .privacyReview ∨ route = .manualReview then .needsReview
      else .readyForConsolidation := by
  rw [candidateMapping] at h
  split_ifs at h
  rw [Option.some.injEq] at h
  rw [← h]

/-- The routes of the semantic kinds carry their own name, and none asks for a review. -/
lemma kindRoute_review {kind : String} {route : MemorySignalRouteType}
    (h : kindRoute kind = some route) : ¬(route = .privacyReview ∨ route = .manualReview) := by
  rw [kindRoute] at h
  split_ifs at h <;> (rw [Option.some.injEq] at h; subst h; decide)

/-- The candidate of a semantic kind is that of a stored route, ready for consolidation. -/
theorem candidateMappingForSemanticUnit_eq {unitType : SemanticUnitType} {text : Text}
    {messageUuid : String} {memoryKind : Option MemoryKind} {m : RouteCandidateMapping}
    (h : candidateMappingForSemanticUnit U unitType text messageUuid memoryKind = some m) :
    candidateMappingForRoute U (some m.routeType.value) text (some messageUuid) = some m ∧
      m.status = .readyForConsolidation := by
  obtain ⟨route, hroute, hm⟩ := Option.bind_eq_some_iff.mp h
  rw [candidateMappingForRoute, candidateMapping_routeType hm, routeValue_value, Option.bind_some,
    candidateMapping_status hm, if_neg (kindRoute_review hroute)]
  exact ⟨hm, rfl⟩

end

end Memorist
