import Mathlib.Data.Prod.Lex
import Mathlib.Data.Rat.Init
import Memorist.Library.KeySort
import Memorist.MemoryControl.Scope
import Memorist.Storage.Memories

/-!
The memories of a full preflight (`memory_control/full_retrieval.py`).

* `RetrievalStore`: the memories with what a retrieval reads beside them;
* `canonicalCandidates`: `_canonical_candidates`;
* `GraphRow`, `validGraphSource`: a row of the graph backend, and `_valid_graph_source`;
* `mergeCanonical`, `mergeGraph`: the rows by their versions;
* `validateAndMerge`: `_validate_and_merge`.
-/

namespace Memorist

/-! ### Rows -/

/-- The columns of a memory version that only a retrieval reads. -/
structure RetrievalDetails where
  status : String := "current"
  confidence : ℚ := 1 / 2
  importance : ℚ := 1 / 2
  validFrom : Option String := none
  validUntil : Option String := none
  createdAt : Timestamp := 0

/-- The columns of a candidate that a retrieval reads. -/
structure RetrievalCandidate where
  candidateType : String
  sourceAuthority : String

/-- A row of `memory_evidence_links`. -/
structure EvidenceLink where
  memoryUuid : String
  memoryVersionUuid : String
  candidateUuid : String
  evidenceUuid : String
  deriving DecidableEq

/-- A row of `candidate_evidence`. -/
structure EvidenceRow where
  evidenceUuid : String
  candidateUuid : String
  routeUuid : Option String := none
  evidenceText : Option Text := none
  deriving DecidableEq

/-- The memories, and what a retrieval reads beside them. -/
structure RetrievalStore where
  memories : MemoryStore := .empty
  details : String → RetrievalDetails := fun _ => {}
  candidates : String → Option RetrievalCandidate := fun _ => none
  links : List EvidenceLink := []
  evidence : Table EvidenceRow String EvidenceRow.evidenceUuid := .empty

/-- A memory as a query returns it, with one of its pieces of evidence, if it has any. -/
structure RetrievedRow where
  memoryUuid : String
  memoryVersionUuid : String
  memoryType : String
  scopeType : String
  scopeUuid : Option String
  normalizedText : Text
  confidence : ℚ
  importance : ℚ
  validFrom : Option String
  validUntil : Option String
  createdAt : Timestamp
  sourceAuthority : String
  evidenceUuid : Option String := none
  evidenceText : Option Text := none
  deriving DecidableEq

/-- A row that the graph backend returns. -/
structure GraphRow where
  memoryUuid : String
  memoryVersionUuid : String
  memorySignalRouteUuid : Option String := none
  memoryCandidateUuid : Option String := none
  deriving DecidableEq

/-! ### Queries -/

/-- SQL's `text LIKE pattern`. -/
def likeMatches : Text → Text → Bool
  | [], text => text.isEmpty
  | '%' :: pattern, text => text.tails.any (likeMatches pattern)
  | '_' :: pattern, text => text.tail?.any (likeMatches pattern)
  | '\\' :: c :: pattern, text => text.head? = some c && likeMatches pattern text.tail
  | c :: pattern, text => text.head? = some c && likeMatches pattern text.tail

/-- Whether a text contains one of the terms, if there are any. -/
def matchesTerms (U : UnicodeData) (terms : List Text) (text : Text) : Bool :=
  terms.isEmpty || terms.any fun term => likeMatches ('%' :: term ++ ['%']) (U.lowerText text)

namespace RetrievalStore

variable (s : RetrievalStore)

/-- The memory and its version, if a query finds them: an active memory of the scope at its current
version. -/
def inScope (scope : PreflightScope) (memory : MemoryRow) : Option MemoryVersionRow :=
  (memory.currentVersionUuid.bind s.memories.versions.get?).filter fun version =>
    memory.status = .active && (s.details version.memoryVersionUuid).status = "current" &&
      scope.admits memory.scopeType memory.scopeUuid

/-- The row of a memory at a version, with the type and the authority that a query gives it. -/
def row (memory : MemoryRow) (version : MemoryVersionRow) (memoryType sourceAuthority : String)
    (evidence : Option EvidenceRow) : RetrievedRow where
  memoryUuid := memory.memoryUuid
  memoryVersionUuid := version.memoryVersionUuid
  memoryType := memoryType
  scopeType := memory.scopeType
  scopeUuid := memory.scopeUuid
  normalizedText := version.normalizedText
  confidence := (s.details version.memoryVersionUuid).confidence
  importance := (s.details version.memoryVersionUuid).importance
  validFrom := (s.details version.memoryVersionUuid).validFrom
  validUntil := (s.details version.memoryVersionUuid).validUntil
  createdAt := (s.details version.memoryVersionUuid).createdAt
  sourceAuthority := sourceAuthority
  evidenceUuid := evidence.map EvidenceRow.evidenceUuid
  evidenceText := evidence.bind EvidenceRow.evidenceText

/-- The pieces of evidence that a version is linked to; one row without any if it has no link. -/
def evidenceOf (versionUuid : String) : List (Option EvidenceRow) :=
  match s.links.filter fun link => link.memoryVersionUuid = versionUuid with
  | [] => [none]
  | links => links.map fun link => s.evidence.get? link.evidenceUuid

/-- The candidate that a version comes from. -/
def candidateOf (version : MemoryVersionRow) : Option RetrievalCandidate :=
  version.sourceCandidateUuid.bind s.candidates

/-- The rows of a memory that `_canonical_candidates` finds. -/
def canonicalRows (U : UnicodeData) (scope : PreflightScope) (terms : List Text)
    (memory : MemoryRow) : List RetrievedRow :=
  match (s.inScope scope memory).filter fun version =>
      matchesTerms U terms version.normalizedText with
  | none => []
  | some version => (s.evidenceOf version.memoryVersionUuid).map
      (s.row memory version (((s.candidateOf version).map RetrievalCandidate.candidateType).getD "memory")
        (((s.candidateOf version).map RetrievalCandidate.sourceAuthority).getD "unknown"))

/-- The order in which memories are found. -/
def retrievalKey (row : RetrievedRow) : Lex (ℚ × Lex (ℚ × ℤ)) :=
  toLex (-row.importance, toLex (-row.confidence, -(row.createdAt : ℤ)))

/-- `_canonical_candidates`, with the terms of its query. -/
def canonicalCandidates (U : UnicodeData) (scope : PreflightScope) (terms : List Text) (limit : ℕ) :
    List RetrievedRow :=
  (KeySort.sortBy retrievalKey
    (s.memories.memories.rows.flatMap (s.canonicalRows U scope terms))).take limit

/-- Whether a link of a memory and its version carries a candidate and a route. -/
def linkCarries (memoryUuid memoryVersionUuid candidateUuid routeUuid : String) : Bool :=
  s.links.any fun link => link.memoryUuid = memoryUuid &&
    link.memoryVersionUuid = memoryVersionUuid && link.candidateUuid = candidateUuid &&
      (s.evidence.get? link.evidenceUuid).any fun evidence =>
        evidence.candidateUuid = candidateUuid && evidence.routeUuid = some routeUuid

/-- `_valid_graph_source`. -/
def validGraphSource (graph : GraphRow) : Bool :=
  match graph.memorySignalRouteUuid, graph.memoryCandidateUuid with
  | some routeUuid, some candidateUuid =>
      routeUuid ≠ "" && candidateUuid ≠ "" &&
        s.linkCarries graph.memoryUuid graph.memoryVersionUuid candidateUuid routeUuid
  | _, _ => false

/-- The row of a memory that only the graph names, if it is one of the scope at that version. -/
def graphProjection (scope : PreflightScope) (graph : GraphRow) : Option RetrievedRow :=
  (s.memories.memories.get? graph.memoryUuid).bind fun memory =>
    ((s.inScope scope memory).filter fun version =>
      version.memoryVersionUuid = graph.memoryVersionUuid).map fun version =>
        s.row memory version "memory" "graph_projection" none

end RetrievalStore

/-! ### Merging -/

/-- A row by its version, with its evidence, and the graph row that marks it, if one does. -/
structure MergedRow where
  row : RetrievedRow
  evidenceUuids : List String := []
  evidenceTexts : List Text := []
  graph : Option GraphRow := none
  deriving DecidableEq

/-- The row with the evidence of a row of the same version. -/
def MergedRow.withEvidence (merged : MergedRow) (candidate : RetrievedRow) : MergedRow :=
  { merged with
    evidenceUuids := merged.evidenceUuids ++ (candidate.evidenceUuid.filter (· ≠ "")).toList
    evidenceTexts := merged.evidenceTexts ++ (candidate.evidenceText.filter (· ≠ [])).toList }

/-- Change the row of a version. -/
def changeVersion (versionUuid : String) (f : MergedRow → MergedRow) (rows : List MergedRow) :
    List MergedRow :=
  rows.map fun merged => if merged.row.memoryVersionUuid = versionUuid then f merged else merged

/-- Whether there is a row of a version. -/
def hasVersion (versionUuid : String) (rows : List MergedRow) : Bool :=
  rows.any fun merged => merged.row.memoryVersionUuid = versionUuid

/-- A canonical row is merged by its version. -/
def mergeCanonical (rows : List MergedRow) (candidate : RetrievedRow) : List MergedRow :=
  changeVersion candidate.memoryVersionUuid (MergedRow.withEvidence · candidate) <|
    if hasVersion candidate.memoryVersionUuid rows then rows else rows ++ [{ row := candidate }]

/-- A graph row is merged by its version: it marks the row of the version, or adds one. -/
def mergeGraph (s : RetrievalStore) (scope : PreflightScope) (rows : List MergedRow)
    (graph : GraphRow) : List MergedRow :=
  if hasVersion graph.memoryVersionUuid rows then
    if s.validGraphSource graph then
      changeVersion graph.memoryVersionUuid (fun merged => { merged with graph := some graph }) rows
    else rows
  else if s.validGraphSource graph then
    rows ++ ((s.graphProjection scope graph).map fun row =>
      { row := row, graph := some graph : MergedRow }).toList
  else rows

/-! ### Items -/

/-- A memory that a preflight delivers. The score is in hundredths. -/
structure ScoredMemoryItem where
  memoryUuid : String
  memoryVersionUuid : String
  memoryType : String
  scopeType : String
  scopeUuid : Option String
  normalizedText : Text
  confidenceLabel : String
  sourceAuthorityLabel : String
  evidenceText : Option Text
  finalScore : ℕ
  graph : Bool
  evidenceUuids : List String
  memorySignalRouteUuid : Option String
  memoryCandidateUuid : Option String
  deriving DecidableEq

/-- `_confidence_label`. -/
def confidenceLabel (value : ℚ) : String :=
  if 4 / 5 ≤ value then "high" else if 1 / 2 ≤ value then "medium" else "low"

/-- The texts of the evidence, each once. -/
def evidenceLines (texts : List Text) : Option Text :=
  let text := List.intercalate ['\n'] texts.eraseDups
  if text = [] then none else some text

/-- The item of a row at a position. -/
def MergedRow.item (merged : MergedRow) (index : ℕ) : ScoredMemoryItem where
  memoryUuid := merged.row.memoryUuid
  memoryVersionUuid := merged.row.memoryVersionUuid
  memoryType := merged.row.memoryType
  scopeType := merged.row.scopeType
  scopeUuid := merged.row.scopeUuid
  normalizedText := merged.row.normalizedText
  confidenceLabel := confidenceLabel merged.row.confidence
  sourceAuthorityLabel := merged.row.sourceAuthority
  evidenceText := evidenceLines merged.evidenceTexts
  finalScore := max 10 (100 - 4 * index) + if merged.graph.isSome then 8 else 0
  graph := merged.graph.isSome
  evidenceUuids := merged.evidenceUuids.eraseDups
  memorySignalRouteUuid := merged.graph.bind GraphRow.memorySignalRouteUuid
  memoryCandidateUuid := merged.graph.bind GraphRow.memoryCandidateUuid

/-- The rows of canonical candidates and of the graph, by their versions. -/
def mergedRows (s : RetrievalStore) (scope : PreflightScope) (canonical : List RetrievedRow)
    (graphRows : List GraphRow) : List MergedRow :=
  graphRows.foldl (mergeGraph s scope) (canonical.foldl mergeCanonical [])

/-- `_validate_and_merge`. -/
def validateAndMerge (s : RetrievalStore) (scope : PreflightScope) (canonical : List RetrievedRow)
    (graphRows : List GraphRow) : List ScoredMemoryItem :=
  (KeySort.sortBy (fun item : ScoredMemoryItem => -(item.finalScore : ℤ))
    ((mergedRows s scope canonical graphRows).zipIdx.map fun x => x.1.item x.2)).take 12

end Memorist
