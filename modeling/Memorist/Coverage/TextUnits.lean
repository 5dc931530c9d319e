import Memorist.Coverage.Run
import Memorist.Semantic.BoundedContext

/-!
The stored text units of a message and their authorities
(`memory_worker/semantic/runtime_adapters.py`).

* `loadPersistedAuthorities`: one authority a text unit, of the signals that the query joins
  to it, with the ceiling of the unit's own text;
* `insertMissingSemanticTextUnits`: a fragment for each semantic unit that no authority
  contains;
* `load_corresponds`, `exists_authorities`: what is loaded of a table whose names are
  distinct.
-/

namespace Memorist

open Correspond (Corresponds)

/-! ### Authorities of text units -/

/-- The raw range of a text unit. -/
def TextUnitRow.span (row : TextUnitRow) : Span := ⟨row.startChar, row.endChar⟩

/-- What one row of the query joins to a text unit: its gate, its annotation and a route. -/
structure SignalRow where
  gateDecisionUuid : Option String := none
  decision : Option String := none
  annotationUuid : Option String := none
  routeUuid : Option String := none
  routeType : Option String := none
  status : Option String := none
  priority : Option ℤ := none
  deriving DecidableEq, Repr

/-- A row of the authority query. -/
structure AuthorityRow where
  unit : TextUnitRow
  signal : SignalRow
  deriving DecidableEq, Repr

/-- The order of routes: ready before others, ignored last, then by priority and name. -/
def routeOrder : AuthorityRow → AuthorityRow → Ordering :=
  compareLex (compareOn fun row => pyStr row.signal.status != "ready") <|
  compareLex (compareOn fun row => pyStr row.signal.routeType == "ignore") <|
  compareLex (compareOn fun row => -(row.signal.priority.getD 0)) <|
  compareOn fun row => pyStr row.signal.routeUuid

/-- The first of the routes that come first. -/
def selectRoute : List AuthorityRow → Option AuthorityRow
  | [] => none
  | first :: rest =>
      some (rest.foldl (fun best row => if routeOrder row best = .lt then row else best) first)

section

variable (U : UnicodeData)

/-- The authority of a text unit, of the rows that the query has for it. -/
def authorityOfRows (unitUuid : String) (unitRows : List AuthorityRow) :
    Except String PersistedUnitAuthority :=
  match unitRows with
  | [] => .error "list index out of range"
  | first :: _ =>
      let routes := unitRows.filter fun row => row.signal.routeUuid.isSome
      let selected := selectRoute routes
      let sensitivity := classifySensitivity U first.unit.text
      let gateIds := (unitRows.filterMap fun row => row.signal.gateDecisionUuid).dedup
      let annotationIds := (unitRows.filterMap fun row => row.signal.annotationUuid).dedup
      if h : first.unit.startChar < first.unit.endChar then do
        nonEmpty "text_unit_uuid" unitUuid.toList
        pure
          { textUnitUuid := unitUuid
            rawStart := first.unit.startChar
            rawEnd := first.unit.endChar
            annotationUuid := selected.bind fun row => row.signal.annotationUuid
            gateDecisionUuid := first.signal.gateDecisionUuid
            gateDecision := first.signal.decision
            routeUuid := selected.map fun row => pyStr row.signal.routeUuid
            routeType := selected.map fun row => pyStr row.signal.routeType
            routeStatus := selected.map fun row => pyStr row.signal.status
            privacyCeiling := sensitivity
            privacyStorageAllowed := sensitivity != .secret
            conflictingAuthority := 1 < gateIds.length || 1 < annotationIds.length
            orderedSpan := h }
      else .error "raw_start must be less than raw_end"

/-- The authorities of the rows of the query. -/
def authoritiesFromRows (rows : List AuthorityRow) : Except String (List PersistedUnitAuthority) := do
  let byUnit := Dict.groupBy (fun row => row.unit.textUnitUuid) rows
  let authorities ← byUnit.mapM fun (unitUuid, unitRows) => authorityOfRows U unitUuid unitRows
  pure (KeySort.sortBy authorityKey authorities)

/-- The rows of a text unit: one for each signal, and an empty one when there is none. -/
def unitRows (signals : String → List SignalRow) (unit : TextUnitRow) : List AuthorityRow :=
  match signals unit.textUnitUuid with
  | [] => [⟨unit, {}⟩]
  | found => found.map fun signal => ⟨unit, signal⟩

/-- The rows of the query, by the index of their text unit. -/
def authorityRows (signals : String → List SignalRow) (units : List TextUnitRow) :
    List AuthorityRow :=
  (KeySort.sortBy TextUnitRow.unitIndex units).flatMap (unitRows signals)

/-- Load the authorities of a message. -/
def loadPersistedAuthorities (signals : String → List SignalRow) (units : List TextUnitRow) :
    Except String (List PersistedUnitAuthority) :=
  authoritiesFromRows U (authorityRows signals units)

/-- The authority of a text unit among its signals. -/
def authorityOfUnit (signals : String → List SignalRow) (unit : TextUnitRow) :
    Except String PersistedUnitAuthority :=
  authorityOfRows U unit.textUnitUuid (unitRows signals unit)

end

section

variable {U : UnicodeData} {signals : String → List SignalRow}

lemma unitRows_ne_nil (unit : TextUnitRow) : unitRows signals unit ≠ [] := by
  rw [unitRows]
  split <;> simp_all

lemma unit_of_mem_unitRows {unit : TextUnitRow} {row : AuthorityRow}
    (h : row ∈ unitRows signals unit) : row.unit = unit := by
  rw [unitRows] at h
  split at h
  · rw [List.mem_singleton] at h
    rw [h]
  · obtain ⟨signal, -, rfl⟩ := List.mem_map.mp h
    rfl

/-- An authority has the name and the range of its text unit, and the ceiling of its text. -/
structure OfTextUnit (U : UnicodeData) (unit : TextUnitRow) (a : PersistedUnitAuthority) : Prop where
  uuid : a.textUnitUuid = unit.textUnitUuid
  span : a.span = unit.span
  ceiling : a.privacyCeiling = classifySensitivity U unit.text
  storageAllowed : a.privacyStorageAllowed = (classifySensitivity U unit.text != .secret)

lemma authorityOfUnit_facts {unit : TextUnitRow} {a : PersistedUnitAuthority}
    (h : authorityOfUnit U signals unit = .ok a) : OfTextUnit U unit a := by
  have hunit : ∀ row ∈ unitRows signals unit, row.unit = unit := fun _ => unit_of_mem_unitRows
  rw [authorityOfUnit] at h
  unfold authorityOfRows at h
  split at h
  · exact absurd h (by simp)
  · rename_i first rest hrows
    have hfirst : first.unit = unit := hunit first (by rw [hrows]; exact List.mem_cons_self)
    subst hfirst
    split_ifs at h
    simp only [Checks.bind_eq_ok, Checks.pure_eq_ok] at h
    obtain ⟨_, -, rfl⟩ := h
    exact ⟨rfl, rfl, rfl, rfl⟩

lemma exists_authorityOfUnit {unit : TextUnitRow} (hlt : unit.startChar < unit.endChar)
    (huuid : unit.textUnitUuid ≠ "") : ∃ a, authorityOfUnit U signals unit = .ok a := by
  have hunit : ∀ row ∈ unitRows signals unit, row.unit = unit := fun _ => unit_of_mem_unitRows
  rw [authorityOfUnit]
  unfold authorityOfRows
  split
  · rename_i hrows
    exact absurd hrows (unitRows_ne_nil unit)
  · rename_i first rest hrows
    have hfirst : first.unit = unit := hunit first (by rw [hrows]; exact List.mem_cons_self)
    rw [dif_pos (by rw [hfirst]; exact hlt)]
    simp only [Checks.bind_eq_ok, Checks.pure_eq_ok]
    exact ⟨_, (), by simpa [nonEmpty] using huuid, rfl⟩

/-- Of a table with distinct names, one authority a text unit is loaded. -/
theorem load_corresponds {units : List TextUnitRow}
    (hnodup : (units.map TextUnitRow.textUnitUuid).Nodup) {authorities : List PersistedUnitAuthority}
    (h : loadPersistedAuthorities U signals units = .ok authorities) :
    Corresponds (fun unit a => authorityOfUnit U signals unit = .ok a) units authorities := by
  have hsorted := KeySort.sortBy_perm TextUnitRow.unitIndex units
  rw [loadPersistedAuthorities, authoritiesFromRows, authorityRows,
    Dict.groupBy_flatMap (fun unit _ => unitRows_ne_nil unit)
      (fun unit _ row hrow => by rw [unit_of_mem_unitRows hrow])
      ((hsorted.map _).nodup_iff.mpr hnodup)] at h
  simp only [Checks.bind_eq_ok, Checks.pure_eq_ok, Checks.mapM_eq_ok,
    List.forall₂_map_left_iff] at h
  obtain ⟨as, has, rfl⟩ := h
  obtain ⟨zs, hzs, hperm⟩ := List.perm_comp_forall₂ hsorted.symm has
  exact ⟨zs, hzs, hperm.trans (KeySort.sortBy_perm authorityKey as).symm⟩

/-- Non-empty text units with distinct names have authorities. -/
theorem exists_authorities (U : UnicodeData) (signals : String → List SignalRow)
    {units : List TextUnitRow}
    (hnodup : (units.map TextUnitRow.textUnitUuid).Nodup)
    (hlt : ∀ unit ∈ units, unit.startChar < unit.endChar)
    (huuid : ∀ unit ∈ units, unit.textUnitUuid ≠ "") :
    ∃ authorities, loadPersistedAuthorities U signals units = .ok authorities := by
  have hsorted := KeySort.sortBy_perm TextUnitRow.unitIndex units
  rw [loadPersistedAuthorities, authoritiesFromRows, authorityRows,
    Dict.groupBy_flatMap (fun unit _ => unitRows_ne_nil unit)
      (fun unit _ row hrow => by rw [unit_of_mem_unitRows hrow])
      ((hsorted.map _).nodup_iff.mpr hnodup)]
  simp only [Checks.bind_eq_ok, Checks.pure_eq_ok, Checks.mapM_eq_ok, List.forall₂_map_left_iff]
  have hall : ∀ unit ∈ KeySort.sortBy TextUnitRow.unitIndex units,
      ∃ a, authorityOfUnit U signals unit = .ok a := fun unit hunit =>
    exists_authorityOfUnit (hlt unit (KeySort.mem_sortBy.mp hunit))
      (huuid unit (KeySort.mem_sortBy.mp hunit))
  obtain ⟨as, has⟩ := Checks.exists_forall₂ hall
  exact ⟨_, as, has, rfl⟩

end

/-! ### Fragments -/

/-- The namespace of fragments. -/
def semanticTextUnitNamespace : String := "4c5e2229-f900-5b05-8d7a-48b0b555c457"

/-- Insert a text unit. A repeated index is passed over by either store (of the same kind, for
PostgreSQL), a repeated name by SQLite only. -/
def insertTextUnit (store : Store) (units : List TextUnitRow) (unit : TextUnitRow) :
    Except String (List TextUnitRow) :=
  match store with
  | .sqlite =>
      if units.any fun u => u.textUnitUuid = unit.textUnitUuid ∨ u.unitIndex = unit.unitIndex then
        .ok units
      else .ok (units ++ [unit])
  | .postgres =>
      if units.any fun u => u.unitType = unit.unitType ∧ u.unitIndex = unit.unitIndex then .ok units
      else if units.any fun u => u.textUnitUuid = unit.textUnitUuid then
        .error "duplicate key value violates unique constraint"
      else .ok (units ++ [unit])

/-- `COALESCE(MAX(unit_index), -1) + 1`. -/
def startIndex (units : List TextUnitRow) : ℕ :=
  (units.map fun unit => unit.unitIndex + 1).foldr max 0

section

variable (P : Platform)

/-- The text a fragment is named by: its message, the digest of the text, and its range. -/
def fragmentIdentity (scope : CurrentContextScope) (span : Span) : String :=
  scope.messageUuid ++ ":" ++ P.sha256 scope.rawText ++ ":" ++ toString span.start ++ ":" ++
    toString span.stop

/-- The name of a fragment. -/
def fragmentUuid (scope : CurrentContextScope) (span : Span) : String :=
  P.uuid5 semanticTextUnitNamespace (fragmentIdentity P scope span)

/-- The fragment of a range. -/
def fragmentRow (scope : CurrentContextScope) (unitIndex : ℕ) (span : Span) : TextUnitRow where
  textUnitUuid := fragmentUuid P scope span
  unitIndex := unitIndex
  unitType := .fragment
  text := slice scope.rawText span.start span.stop
  startChar := span.start
  endChar := span.stop

/-- The semantic units that no authority contains. -/
def missingUnits (semanticOutput : SemanticAnalysisV1Output)
    (authorities : List PersistedUnitAuthority) : List SemanticUnit :=
  semanticOutput.semanticUnits.filter fun unit =>
    !authorities.any fun authority => authority.span.Contains unit.span

/-- The fragments of units, from an index on. -/
def fragmentRows (scope : CurrentContextScope) (start : ℕ) (missing : List SemanticUnit) :
    List TextUnitRow :=
  (missing.zipIdx start).map fun (unit, unitIndex) => fragmentRow P scope unitIndex unit.span

/-- Insert a fragment for each semantic unit that no authority contains. -/
def insertMissingSemanticTextUnits (store : Store) (scope : CurrentContextScope)
    (semanticOutput : SemanticAnalysisV1Output) (authorities : List PersistedUnitAuthority)
    (units : List TextUnitRow) : Except String (List TextUnitRow) :=
  (fragmentRows P scope (startIndex units) (missingUnits semanticOutput authorities)).foldlM
    (insertTextUnit store) units

/-- Insert the missing fragments and load the authorities anew. -/
def ensureSemanticSpanAuthorities (store : Store) (scope : CurrentContextScope)
    (signals : String → List SignalRow) (semanticOutput : SemanticAnalysisV1Output)
    (authorities : List PersistedUnitAuthority) (units : List TextUnitRow) :
    Except String (List TextUnitRow × List PersistedUnitAuthority) := do
  let units ← insertMissingSemanticTextUnits P store scope semanticOutput authorities units
  let authorities ← loadPersistedAuthorities P.unicode signals units
  pure (units, authorities)

/-- The text units and the authorities of a semantic run, from the text units it found. -/
def semanticRun (store : Store) (scope : CurrentContextScope)
    (signals : String → List SignalRow) (semanticOutput : SemanticAnalysisV1Output)
    (units : List TextUnitRow) :
    Except String (List TextUnitRow × List PersistedUnitAuthority) := do
  let authorities ← loadPersistedAuthorities P.unicode signals units
  ensureSemanticSpanAuthorities P store scope signals semanticOutput authorities units

end

section

variable {P : Platform} {scope : CurrentContextScope} {store : Store}

/-! ### Insertion -/

lemma lt_startIndex {units : List TextUnitRow} {unit : TextUnitRow} (h : unit ∈ units) :
    unit.unitIndex < startIndex units := by
  rw [startIndex]
  induction units with
  | nil => exact absurd h List.not_mem_nil
  | cons u units ih =>
      rw [List.map_cons, List.foldr_cons]
      rcases List.mem_cons.mp h with rfl | h
      · exact Nat.lt_of_succ_le (le_max_left _ _)
      · exact (ih h).trans_le (le_max_right _ _)

/-- A new name under a new index is appended. -/
lemma insertTextUnit_eq {units : List TextUnitRow} {unit : TextUnitRow}
    (hname : ∀ u ∈ units, u.textUnitUuid ≠ unit.textUnitUuid)
    (hindex : ∀ u ∈ units, u.unitIndex ≠ unit.unitIndex) :
    insertTextUnit store units unit = .ok (units ++ [unit]) := by
  cases store with
  | sqlite => exact if_neg (by simpa using fun u hu => ⟨hname u hu, hindex u hu⟩)
  | postgres =>
      have hfree : ¬(units.any fun u => u.unitType = unit.unitType ∧
          u.unitIndex = unit.unitIndex) = true := by simpa using fun u hu _ => hindex u hu
      have hfresh : ¬(units.any fun u => u.textUnitUuid = unit.textUnitUuid) = true := by
        simpa using hname
      exact (if_neg hfree).trans (if_neg hfresh)

/-- New names under growing new indexes are appended one after the other. -/
lemma foldlM_insertTextUnit {news : List TextUnitRow} :
    ∀ {units : List TextUnitRow},
      (∀ new ∈ news, ∀ u ∈ units, u.textUnitUuid ≠ new.textUnitUuid) →
      (∀ new ∈ news, ∀ u ∈ units, u.unitIndex < new.unitIndex) →
      (news.map TextUnitRow.textUnitUuid).Nodup →
      (news.Pairwise fun a b => a.unitIndex < b.unitIndex) →
      news.foldlM (insertTextUnit store) units = .ok (units ++ news) := by
  induction news with
  | nil => intros; simp [pure, Except.pure]
  | cons new news ih =>
      intro units hname hindex hnodup hpair
      obtain ⟨hnew, hnodup⟩ := List.nodup_cons.mp hnodup
      obtain ⟨hlt, hpair⟩ := List.pairwise_cons.mp hpair
      rw [List.foldlM_cons, insertTextUnit_eq (hname new List.mem_cons_self)
        fun u hu => (hindex new List.mem_cons_self u hu).ne, Checks.ok_bind,
        ih _ _ hnodup hpair, List.append_assoc, List.singleton_append]
      · intro later hlater u hu
        rcases List.mem_append.mp hu with hu | hu
        · exact hname later (List.mem_cons_of_mem _ hlater) u hu
        · rw [List.mem_singleton.mp hu]
          exact fun heq => hnew (List.mem_map.mpr ⟨later, hlater, heq.symm⟩)
      · intro later hlater u hu
        rcases List.mem_append.mp hu with hu | hu
        · exact hindex later (List.mem_cons_of_mem _ hlater) u hu
        · rw [List.mem_singleton.mp hu]
          exact hlt later hlater

lemma mem_fragmentRows {start : ℕ} {missing : List SemanticUnit} {row : TextUnitRow}
    (h : row ∈ fragmentRows P scope start missing) :
    ∃ unit ∈ missing, ∃ index, start ≤ index ∧ row = fragmentRow P scope index unit.span := by
  obtain ⟨⟨unit, index⟩, hmem, rfl⟩ := List.mem_map.mp h
  have := List.mem_zipIdx hmem
  exact ⟨unit, List.fst_mem_of_mem_zipIdx hmem, index, this.1, rfl⟩

lemma map_span_fragmentRows (P : Platform) (scope : CurrentContextScope) (start : ℕ)
    (missing : List SemanticUnit) :
    (fragmentRows P scope start missing).map TextUnitRow.span = missing.map SemanticUnit.span := by
  rw [fragmentRows, List.map_map, ← List.zipIdx_map_fst start missing, List.map_map,
    List.zipIdx_map_fst]
  rfl

lemma pairwise_unitIndex_fragmentRows (start : ℕ) (missing : List SemanticUnit) :
    (fragmentRows P scope start missing).Pairwise fun a b => a.unitIndex < b.unitIndex := by
  rw [fragmentRows, List.pairwise_map]
  induction missing generalizing start with
  | nil => exact List.Pairwise.nil
  | cons unit missing ih =>
      rw [List.zipIdx_cons]
      refine List.pairwise_cons.mpr ⟨?_, ih (start + 1)⟩
      rintro ⟨later, index⟩ hlater
      exact Nat.lt_of_succ_le (List.mem_zipIdx hlater).1

/-! ### Names of fragments -/

lemma toList_toString_nat (n : ℕ) : (toString n).toList = Nat.toDigits 10 n := by
  rw [Nat.toString_eq_repr, Nat.repr, String.toList_ofList]

/-- Ranges of one message have texts of their own. -/
lemma fragmentIdentity_injective : Function.Injective (fragmentIdentity P scope) := by
  intro s t h
  have htext := congrArg String.toList h
  have hcolon : ":".toList = [':'] := rfl
  simp only [fragmentIdentity, String.toList_append, List.append_assoc,
    List.append_cancel_left_eq, toList_toString_nat, hcolon, List.singleton_append] at htext
  have hrest : IJson.NoDigit (':' :: Nat.toDigits 10 s.stop) := IJson.noDigit_cons (by decide)
  have hrest' : IJson.NoDigit (':' :: Nat.toDigits 10 t.stop) := IJson.noDigit_cons (by decide)
  obtain ⟨hstart, htail⟩ := IJson.toDigits_append_inj hrest hrest' (List.cons.inj htext).2
  obtain ⟨hstop, -⟩ := IJson.toDigits_append_inj IJson.noDigit_nil IJson.noDigit_nil
    (congrArg (· ++ []) (List.cons.inj htail).2)
  cases s
  cases t
  rw [Span.mk.injEq]
  exact ⟨hstart, hstop⟩

end

end Memorist
