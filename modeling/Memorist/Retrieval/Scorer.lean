import Mathlib.Data.Rat.Floor
import Memorist.ActiveMemory.Blocks
import Memorist.Governance.Erasure

/-!
Plans, the rows that retrieval reads, and the final score (`models/retrieval.py`,
`retrieval/ranking/scorer.py`, `retrieval/ranking/temporal.py`, `retrieval/ranking/conflicts.py`).

* `RetrievalPlan`, `Store`: what a query asks for, and the tables it is answered from;
* `inScope`: the clause on scopes that all generators share;
* `score`: a candidate with its final score, unless its version is not current;
* `score_isSome_iff`, `score_congr`: when a candidate is scored, and what its score depends on;
* `round6_mono`, `abs_round6_sub`: rounding keeps the order and moves little.
-/

namespace Memorist.Retrieval

/-! ### Plans and rows -/

/-- How much of the machinery a query uses. -/
inductive RetrievalMode where
  | lite
  | standard
  | full
  | debug
  deriving DecidableEq, Repr

/-- The types of the scopes of a plan. -/
inductive RetrievalScopeType where
  | session
  | project
  | workspace
  | userLocal
  deriving DecidableEq, Repr

/-- The text of a type of scope. -/
def RetrievalScopeType.value : RetrievalScopeType → String
  | session => "session"
  | project => "project"
  | workspace => "workspace"
  | userLocal => "user-local"

/-- A scope of a plan. -/
structure RetrievalScope where
  scopeType : RetrievalScopeType
  scopeUuid : Option String := none
  deriving DecidableEq, Repr

/-- The time that a query is about. -/
structure TemporalFilter where
  normalizedFrom : Option String := none
  historical : Bool := false
  deriving DecidableEq, Repr

/-- What a query asks for. -/
structure RetrievalPlan where
  originalQuery : Text
  retrievalMode : RetrievalMode := .full
  expandedQueries : List Text
  scopes : List RetrievalScope
  temporalFilter : Option TemporalFilter := none

/-- A row of `memory_versions` with the columns that a score reads. -/
structure RatedVersionRow extends MemoryVersionRow where
  confidence : ℚ
  importance : ℚ
  validFrom : Option String := none
  validUntil : Option String := none
  deriving DecidableEq

/-- The name of a version. -/
def RatedVersionRow.uuid (version : RatedVersionRow) : String := version.memoryVersionUuid

/-- The tables that retrieval reads. -/
structure Store where
  memories : Table MemoryRow String MemoryRow.memoryUuid
  versions : Table RatedVersionRow String RatedVersionRow.uuid
  decisions : Table MemoryConsolidationDecision String MemoryConsolidationDecision.candidateUuid
  candidates : Table MemoryCandidate String MemoryCandidate.candidateUuid
  evidenceLinks : List MemoryEvidenceLink
  evidence : Table CandidateEvidence String CandidateEvidence.evidenceUuid

/-- A memory lies in one of the scopes of a plan; a local one is none. -/
def inScope (scopes : List RetrievalScope) (memory : MemoryRow) : Bool :=
  scopes.any fun scope => scope.scopeType ≠ .userLocal && memory.scopeType = scope.scopeType.value &&
    memory.scopeUuid.getD "" = scope.scopeUuid.getD ""

/-! ### The parts of a score -/

/-- What the validity of a version is worth. -/
def temporalScore (validFrom validUntil : Option String) (plan : RetrievalPlan) : ℚ :=
  match plan.temporalFilter with
  | none => if validUntil = none then 1 else 35 / 100
  | some filter =>
      if filter.historical then
        if validUntil ≠ none then 1
        else if validFrom.any (· ≠ "") && filter.normalizedFrom.any (· ≠ "") then 8 / 10
        else 45 / 100
      else if validUntil = none then 1 else 2 / 10

/-- What a contradiction costs. -/
def conflictPenalty (store : Store) (memoryUuid : String) : ℚ :=
  if store.decisions.rows.any fun decision =>
      decision.operation = .contradict && decision.targetMemoryUuid = some memoryUuid then
    35 / 100
  else 0

/-- What the source of a version is worth. -/
def authorityScore : Option SourceAuthority → ℚ
  | some .userExplicit => 1
  | some .systemInstruction => 95 / 100
  | some .toolObservation => 8 / 10
  | some .assistantClaim => 35 / 100
  | _ => 55 / 100

/-- What the source of a version is called. -/
def authorityLabel : Option SourceAuthority → String
  | some .userExplicit => "explicit-user-evidence"
  | some .systemInstruction => "system-policy-evidence"
  | some .toolObservation => "tool-evidence"
  | some .assistantClaim => "assistant-claim"
  | _ => "evidence-backed"

/-- What the scope of a memory is worth. -/
def scopeProximity (scopeType : String) : ℚ :=
  if scopeType = "session" then 1
  else if scopeType = "project" then 85 / 100
  else if scopeType = "workspace" then 65 / 100
  else 4 / 10

/-- The characters that a term begins with: `[\w\u0600-\u06ff]`. -/
def isTermStart (U : UnicodeData) (c : Char) : Bool :=
  U.isWord c || (0x0600 ≤ c.toNat && c.toNat ≤ 0x06FF)

/-- The matches of `[\w\u0600-\u06ff][\w\-\u0600-\u06ff]+`, with what was read of one. -/
def termsFrom (U : UnicodeData) : Option Text → Text → List Text
  | none, [] => []
  | some term, [] => if 2 ≤ term.length then [term] else []
  | none, c :: rest => if isTermStart U c then termsFrom U (some [c]) rest else termsFrom U none rest
  | some term, c :: rest =>
      if isTermStart U c || c = '-' then termsFrom U (some (term ++ [c])) rest
      else (if 2 ≤ term.length then [term] else []) ++ termsFrom U none rest

/-- The terms of a query. -/
def queryTerms (U : UnicodeData) (query : Text) : List Text :=
  (((termsFrom U none query).filter fun term => 2 < term.length).map U.lowerText).dedup

/-- How many of the terms of a query a text has. -/
def queryRelevance (U : UnicodeData) (query normalizedText : Text) : ℚ :=
  let terms := queryTerms U query
  if terms = [] then 5 / 10
  else
    let overlap := terms.countP fun term => occursIn term (U.lowerText normalizedText)
    min 1 (max (25 / 100) (overlap / terms.length))

/-- `_confidence_label`. -/
def confidenceLabel (confidence : ℚ) : String :=
  if 8 / 10 ≤ confidence then "high" else if 5 / 10 ≤ confidence then "medium" else "low"

/-- `_valid_time_label`. -/
def validTimeLabel (validFrom validUntil : Option String) (current : Bool) : String :=
  match validFrom, validUntil with
  | _, some validUntil => "historical until " ++ validUntil
  | some validFrom, none =>
      if current then "current from " ++ validFrom else "historical from " ++ validFrom
  | none, none => if current then "current" else "historical"

/-! ### The score -/

/-- A candidate of a query, with the scores that fusion kept. -/
structure RetrievalCandidate where
  memoryUuid : String
  memoryVersionUuid : String
  fusedScore : Option ℚ := none
  graphScore : Option ℚ := none

/-- A candidate with its final score. -/
structure ScoredMemoryItem where
  memoryUuid : String
  memoryVersionUuid : String
  memoryType : String
  scopeType : String
  scopeUuid : Option String
  normalizedText : Text
  current : Bool
  validTimeLabel : String
  confidenceLabel : String
  sourceAuthorityLabel : String
  evidenceText : Option Text
  conflictStatus : String
  finalScore : ℚ

/-- Python's `round` to a whole number: the nearest one, the even one of two. -/
def roundHalfEven (x : ℚ) : ℤ :=
  if x - ⌊x⌋ < 1 / 2 then ⌊x⌋
  else if 1 / 2 < x - ⌊x⌋ then ⌊x⌋ + 1
  else if ⌊x⌋ % 2 = 0 then ⌊x⌋ else ⌊x⌋ + 1

/-- `round(x, 6)`. -/
def round6 (x : ℚ) : ℚ := roundHalfEven (x * 1000000) / 1000000

namespace Store

variable (store : Store)

/-- The source of the candidate that a version was made of. -/
def sourceAuthority (version : RatedVersionRow) : Option SourceAuthority :=
  (version.sourceCandidateUuid.bind store.candidates.get?).map MemoryCandidate.sourceAuthority

/-- The evidence that is linked to a version; of several, the first link's. -/
def evidenceText (version : RatedVersionRow) : Option Text :=
  (store.evidenceLinks.find? fun link => link.memoryVersionUuid = version.uuid).bind fun link =>
    (store.evidence.get? link.evidenceUuid).map CandidateEvidence.evidenceText

/-- What a version of a memory is worth to a query, whatever was found of it. -/
def baseScore (U : UnicodeData) (memory : MemoryRow) (version : RatedVersionRow)
    (plan : RetrievalPlan) : ℚ :=
  2 / 10 * queryRelevance U plan.originalQuery version.normalizedText +
    16 / 100 * scopeProximity memory.scopeType +
    18 / 100 * temporalScore version.validFrom version.validUntil plan +
    14 / 100 * authorityScore (store.sourceAuthority version) +
    16 / 100 * version.confidence +
    14 / 100 * version.importance +
    1 / 10 * (if (store.evidenceText version).any (· ≠ []) then 1 else 4 / 10) +
    4 / 100 * (5 / 10) -
    conflictPenalty store memory.memoryUuid

/-- The final score before it is rounded. -/
def finalScore (U : UnicodeData) (memory : MemoryRow) (version : RatedVersionRow)
    (candidate : RetrievalCandidate) (plan : RetrievalPlan) : ℚ :=
  candidate.fusedScore.getD 0 + 5 / 100 * candidate.graphScore.getD 0 +
    store.baseScore U memory version plan

/-- `DeterministicScorer.score`: without a temporal filter only current versions are scored. -/
def score (U : UnicodeData) (candidate : RetrievalCandidate) (plan : RetrievalPlan) :
    Option ScoredMemoryItem :=
  match store.memories.get? candidate.memoryUuid, store.versions.get? candidate.memoryVersionUuid with
  | some memory, some version =>
      let current : Bool := memory.currentVersionUuid = some version.uuid
      if plan.temporalFilter = none ∧ current = false then none
      else some
        { memoryUuid := memory.memoryUuid
          memoryVersionUuid := version.uuid
          memoryType := memory.memoryType
          scopeType := memory.scopeType
          scopeUuid := memory.scopeUuid
          normalizedText := version.normalizedText
          current := current
          validTimeLabel := validTimeLabel version.validFrom version.validUntil current
          confidenceLabel := confidenceLabel version.confidence
          sourceAuthorityLabel := authorityLabel (store.sourceAuthority version)
          evidenceText := store.evidenceText version
          conflictStatus := if conflictPenalty store memory.memoryUuid = 0 then "none"
            else "unresolved"
          finalScore := round6 (store.finalScore U memory version candidate plan) }
  | _, _ => none

/-! ### What is scored, and how -/

variable {store} {U : UnicodeData} {plan : RetrievalPlan} {candidate candidate' : RetrievalCandidate}

/-- A version of a memory is scored for a plan: both are there, and without a temporal filter the
version is the current one. -/
def Scorable (store : Store) (plan : RetrievalPlan) (memoryUuid memoryVersionUuid : String) : Prop :=
  ∃ memory version, store.memories.get? memoryUuid = some memory ∧
    store.versions.get? memoryVersionUuid = some version ∧
    (plan.temporalFilter = none → memory.currentVersionUuid = some version.uuid)

lemma score_isSome_iff : (store.score U candidate plan).isSome ↔
    Scorable store plan candidate.memoryUuid candidate.memoryVersionUuid := by
  unfold score Scorable
  cases hmemory : store.memories.get? candidate.memoryUuid with
  | none => simp
  | some memory =>
    cases hversion : store.versions.get? candidate.memoryVersionUuid with
    | none => simp
    | some version =>
      by_cases hcurrent : memory.currentVersionUuid = some version.uuid
      · simp [hcurrent]
      · by_cases hplan : plan.temporalFilter = none
        · simp [hcurrent, hplan]
        · simp [hplan]

/-- Two candidates of one version of one memory are scored alike, but for what fusion kept. -/
lemma score_congr (hmemory : candidate.memoryUuid = candidate'.memoryUuid)
    (hversion : candidate.memoryVersionUuid = candidate'.memoryVersionUuid)
    {item : ScoredMemoryItem} (h : store.score U candidate plan = some item) :
    ∃ base item', store.score U candidate' plan = some item' ∧
      item.finalScore = round6 (candidate.fusedScore.getD 0 +
        5 / 100 * candidate.graphScore.getD 0 + base) ∧
      item'.finalScore = round6 (candidate'.fusedScore.getD 0 +
        5 / 100 * candidate'.graphScore.getD 0 + base) := by
  unfold score at h ⊢
  rw [hmemory, hversion] at h
  cases hmem : store.memories.get? candidate'.memoryUuid with
  | none => simp [hmem] at h
  | some memory =>
    cases hver : store.versions.get? candidate'.memoryVersionUuid with
    | none => simp [hmem, hver] at h
    | some version =>
      simp only [hmem, hver] at h
      by_cases hskip : plan.temporalFilter = none ∧
          decide (memory.currentVersionUuid = some version.uuid) = false
      · rw [if_pos hskip] at h
        exact absurd h (by simp)
      · rw [if_neg hskip] at h
        obtain rfl := Option.some.inj h
        exact ⟨store.baseScore U memory version plan, _, if_neg hskip, rfl, rfl⟩

end Store

/-! ### Rounding -/

lemma floor_le_roundHalfEven (x : ℚ) : ⌊x⌋ ≤ roundHalfEven x := by
  unfold roundHalfEven
  split_ifs <;> omega

lemma roundHalfEven_le_floor_add_one (x : ℚ) : roundHalfEven x ≤ ⌊x⌋ + 1 := by
  unfold roundHalfEven
  split_ifs <;> omega

lemma roundHalfEven_mono {x y : ℚ} (h : x ≤ y) : roundHalfEven x ≤ roundHalfEven y := by
  have hfloor : ⌊x⌋ ≤ ⌊y⌋ := Int.floor_le_floor h
  rcases hfloor.lt_or_eq with hlt | heq
  · calc roundHalfEven x ≤ ⌊x⌋ + 1 := roundHalfEven_le_floor_add_one x
      _ ≤ ⌊y⌋ := hlt
      _ ≤ roundHalfEven y := floor_le_roundHalfEven y
  · have hfract : x - ⌊x⌋ ≤ y - ⌊y⌋ := by rw [heq]; linarith
    unfold roundHalfEven
    rw [heq] at hfract ⊢
    split_ifs <;> first | omega | (exfalso; linarith)

/-- A number is rounded by a half at most. -/
lemma abs_roundHalfEven_sub (x : ℚ) : |(roundHalfEven x : ℚ) - x| ≤ 1 / 2 := by
  have hle : (⌊x⌋ : ℚ) ≤ x := Int.floor_le x
  have hlt : x < ⌊x⌋ + 1 := Int.lt_floor_add_one x
  unfold roundHalfEven
  rw [abs_le]
  split_ifs <;> push_cast <;> constructor <;> linarith

lemma abs_round6_sub (x : ℚ) : |round6 x - x| ≤ 5 / 10000000 := by
  have h := abs_roundHalfEven_sub (x * 1000000)
  rw [abs_le] at h ⊢
  unfold round6
  constructor <;> linarith

lemma round6_mono {x y : ℚ} (h : x ≤ y) : round6 x ≤ round6 y := by
  rw [round6, round6]
  have hround := roundHalfEven_mono (mul_le_mul_of_nonneg_right h (by norm_num : (0:ℚ) ≤ 1000000))
  gcongr

end Memorist.Retrieval
