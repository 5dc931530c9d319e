import Memorist.Coverage.Contracts

/-!
The disposition of a unit (`memory_worker/semantic/coverage/policy.py`).

* `dispositionForUnit`: the closed precedence of dispositions;
* `dispositionForUnit_durable`: exactly when a unit is a durable candidate.
-/

namespace Memorist

/-- A disposition and why. -/
structure DispositionDecision where
  disposition : CoverageDisposition
  reasonCodes : List String
  deriving DecidableEq, Repr

/-- Whether the authority of a unit asks for a review. -/
def authorityNeedsReview (authority : Option PersistedUnitAuthority) (authorityCount : ℕ) : Bool :=
  match authority with
  | none => true
  | some a =>
      authorityCount != 1 || a.conflictingAuthority || !a.privacyStorageAllowed ||
        a.privacyCeiling == .sensitive || a.privacyCeiling == .secret

/-- The reasons of such a review. -/
def authorityReasons (authority : Option PersistedUnitAuthority) (authorityCount : ℕ) :
    List String :=
  (if authority = none ∨ authorityCount = 0 then ["missing_persisted_authority"] else []) ++
  (if 1 < authorityCount then ["cross_authority_span"] else []) ++
  match authority with
  | none => []
  | some a =>
      (if a.conflictingAuthority then ["conflicting_persisted_authority"] else []) ++
      if a.privacyCeiling ≠ .normal ∨ a.privacyStorageAllowed = false then
        ["privacy_or_sensitivity_ceiling"]
      else []

/-- Apply the frozen precedence without interpreting raw language. -/
def dispositionForUnit (unit : SemanticUnit) (authority : Option PersistedUnitAuthority)
    (authorityCount : ℕ) (hasUnresolvedReference mappingSupported : Bool) : DispositionDecision :=
  if authorityNeedsReview authority authorityCount then
    let reasons := authorityReasons authority authorityCount
    ⟨.needsReview, (if reasons = [] then ["authority_requires_review"] else reasons).eraseDups⟩
  else if hasUnresolvedReference then
    ⟨.unresolvedReference, ["ambiguous_or_unresolved_reference"]⟩
  else if unit.durability = .contextOnly then ⟨.contextOnly, ["context_only"]⟩
  else if unit.unitType = .instruction ∧ unit.durability = .transient then
    ⟨.transientInstruction, ["transient_instruction"]⟩
  else if unit.unitType = .question ∨ unit.epistemicStatus = .hypothetical ∨
      unit.epistemicStatus = .questioned then
    ⟨.contextOnly, ["non_asserted_or_question"]⟩
  else if unit.durability = .unknown ∨ unit.epistemicStatus = .unknown then
    ⟨.needsReview, ["unknown_durability_or_epistemic_status"]⟩
  else if !mappingSupported then ⟨.unsupported, ["route_mapping_unsupported"]⟩
  else if unit.durability ≠ .durable then ⟨.unsupported, ["durability_not_candidate_eligible"]⟩
  else ⟨.durableCandidate, ["durable_policy_eligible"]⟩

/-- The meaning a durable candidate must have. -/
def SemanticUnit.Assertable (unit : SemanticUnit) : Prop :=
  unit.durability = .durable ∧
    (unit.epistemicStatus = .asserted ∨ unit.epistemicStatus = .hedged) ∧
    unit.unitType ≠ .question

instance (unit : SemanticUnit) : Decidable unit.Assertable :=
  inferInstanceAs (Decidable (_ ∧ _ ∧ _))

lemma authorityNeedsReview_eq_false {authority : Option PersistedUnitAuthority} {count : ℕ} :
    authorityNeedsReview authority count = false ↔
      ∃ a, authority = some a ∧ count = 1 ∧ a.conflictingAuthority = false ∧
        a.privacyStorageAllowed = true ∧ a.privacyCeiling = .normal := by
  cases authority with
  | none => simp [authorityNeedsReview]
  | some a =>
      have hceiling : (a.privacyCeiling == .sensitive) = false ∧
          (a.privacyCeiling == .secret) = false ↔ a.privacyCeiling = .normal := by
        cases a.privacyCeiling <;> decide
      simp only [authorityNeedsReview, Bool.or_eq_false_iff, bne_eq_false_iff_eq,
        Bool.not_eq_false', Option.some.injEq, exists_eq_left', and_assoc, hceiling]

/-- A unit is a durable candidate exactly when its one authority holds nothing back, its references
are resolved, its meaning may be asserted and a candidate exists for it. -/
theorem dispositionForUnit_durable {unit : SemanticUnit}
    {authority : Option PersistedUnitAuthority} {count : ℕ} {unresolved mapped : Bool} :
    (dispositionForUnit unit authority count unresolved mapped).disposition = .durableCandidate ↔
      authorityNeedsReview authority count = false ∧ unresolved = false ∧ unit.Assertable ∧
        mapped = true := by
  rw [dispositionForUnit, SemanticUnit.Assertable]
  cases authorityNeedsReview authority count with
  | true => simp
  | false =>
      cases unresolved with
      | true => simp
      | false =>
          cases mapped <;> cases hd : unit.durability <;> cases he : unit.epistemicStatus <;>
            cases ht : unit.unitType <;> simp

lemma dispositionForUnit_reasonCodes {unit : SemanticUnit}
    {authority : Option PersistedUnitAuthority} {count : ℕ} {unresolved mapped : Bool}
    (h : (dispositionForUnit unit authority count unresolved mapped).disposition =
      .durableCandidate) :
    (dispositionForUnit unit authority count unresolved mapped).reasonCodes =
      ["durable_policy_eligible"] := by
  rw [dispositionForUnit] at h ⊢
  split_ifs at h ⊢
  rfl

/-- An authority marked as conflicting always asks for a review. -/
lemma dispositionForUnit_conflicting {unit : SemanticUnit} (a : PersistedUnitAuthority)
    {count : ℕ} {unresolved mapped : Bool} :
    (dispositionForUnit unit (some a.conflicting) count unresolved mapped).disposition =
      .needsReview := by
  have : authorityNeedsReview (some a.conflicting) count = true := by
    simp [authorityNeedsReview, PersistedUnitAuthority.conflicting]
  rw [dispositionForUnit, if_pos this]

end Memorist
