import Memorist.Library.Dict
import Memorist.Coverage.Contracts

/-!
Canonical fingerprints and identities (`memory_worker/semantic/coverage/identity.py`).

* `resolveTarget`, `Target.fingerprint`: what a referent stands for, without the names
  the model chose;
* `semanticUnitFingerprint`: the digest of a unit with its references and relations;
* `proposalIdentity`, `coverageItemIdentity`: the identities built on it;
* `unitMaterial_inj`, `referenceMaterial_inj`, `ProposalMaterial.json_inj`: what is
  hashed determines every field that went in.
-/

namespace Memorist

/-- The version of a proposal's identity. -/
def proposalIdentityVersion : String := "memorist.semantic_candidate.proposal_identity.v1"

/-- The version of an item's identity. -/
def coverageItemIdentityVersion : String := "memorist.semantic_candidate.coverage_item_identity.v1"

/-- The namespace of URLs. -/
def proposalNamespace : String := "6ba7b811-9dad-11d1-80b4-00c04fd430c8"

/-- How the names of proposals begin. -/
def proposalNamePrefix : String := "memorist:semantic-candidate-proposal:v1:"

/-- The namespace of coverage items. -/
def coverageItemNamespace : String := "0e4f3e9a-c687-53a0-a948-bc544393f77d"

/-! ### Targets -/

/-- What a referent stands for. -/
inductive Target where
  | absent
  | invalid
  | currentUnit (unit : SemanticUnit)
  | priorContext (item : BoundedContextItem)
  deriving DecidableEq, Repr

/-- Look a referent up among the units of the message and the context items. -/
def resolveTarget (units : Dict String SemanticUnit) (contexts : Dict String BoundedContextItem) :
    Option String → Target
  | none => .absent
  | some referentId =>
      if startsWith "current_unit:" referentId then
        match units.get? (removePrefix "current_unit:" referentId) with
        | none => .invalid
        | some unit => .currentUnit unit
      else if startsWith "prior_context:" referentId then
        match contexts.get? (removePrefix "prior_context:" referentId) with
        | none => .invalid
        | some item => .priorContext item
      else .invalid

lemma resolveTarget_currentUnit (units : Dict String SemanticUnit)
    (contexts : Dict String BoundedContextItem) (name : String) :
    resolveTarget units contexts (some (currentUnit name)) =
      match units.get? name with
      | none => .invalid
      | some unit => .currentUnit unit := by
  simp [resolveTarget, currentUnit]

section

variable (P : Platform)

/-- The members that describe a unit by itself. -/
def unitMembers (unit : SemanticUnit) : List (Text × IJson) :=
  [field "raw_start" (jsonNat unit.rawStart),
   field "raw_end" (jsonNat unit.rawEnd),
   field "evidence_hash" (jsonString (P.sha256 unit.evidence)),
   field "proposition" (.str unit.proposition),
   field "unit_type" (jsonString unit.unitType.value),
   field "durability" (jsonString unit.durability.value),
   field "polarity" (jsonString unit.polarity.value),
   field "epistemic_status" (jsonString unit.epistemicStatus.value)]

/-- The members that describe a context item. -/
def contextMembers (item : BoundedContextItem) : List (Text × IJson) :=
  [field "kind" (jsonString "prior_context"),
   field "context_item_id" (jsonString item.contextItemId),
   field "message_uuid" (jsonString item.messageUuid),
   field "message_version_uuid" (jsonOption item.messageVersionUuid),
   field "text_unit_uuid" (jsonString item.textUnitUuid),
   field "raw_start" (jsonNat item.rawStart),
   field "raw_end" (jsonNat item.rawEnd),
   field "raw_text_hash" (jsonString item.rawTextHash),
   field "role" (jsonString item.role.value),
   field "source_authority_ceiling" (jsonString item.sourceAuthorityCeiling.value)]

/-- The fingerprint of a target. -/
def Target.fingerprint : Target → Except String IJson
  | .absent => pure .null
  | .invalid => pure (.obj [field "kind" (jsonString "invalid")])
  | .currentUnit unit => do
      let fingerprint ← canonicalHashIjson P (.obj (unitMembers P unit))
      pure (.obj [field "kind" (jsonString "current_unit"),
        field "fingerprint" (jsonString fingerprint)])
  | .priorContext item => pure (.obj (contextMembers item))

/-- The fingerprint of a referent. -/
def targetFingerprint (units : Dict String SemanticUnit) (contexts : Dict String BoundedContextItem)
    (referentId : Option String) : Except String IJson :=
  (resolveTarget units contexts referentId).fingerprint P

/-! ### Fingerprints and identities -/

/-- What is hashed of a reference. -/
def referenceMaterial (units : Dict String SemanticUnit)
    (contexts : Dict String BoundedContextItem) (reference : SemanticReference) :
    Except String IJson := do
  let target ← targetFingerprint P units contexts reference.selectedReferentId
  pure (.obj
    [field "marker_start" (jsonNat reference.markerStart),
     field "marker_end" (jsonNat reference.markerEnd),
     field "marker_hash" (jsonString (P.sha256 reference.markerEvidence)),
     field "status" (jsonString reference.status.value),
     field "selected_target" target])

/-- What is hashed of a relation. -/
def relationMaterial (units : Dict String SemanticUnit)
    (contexts : Dict String BoundedContextItem) (relation : SemanticRelation) :
    Except String IJson := do
  let target ← targetFingerprint P units contexts (some relation.targetReferentId)
  pure (.obj
    [field "relation_type" (jsonString relation.relationType.value),
     field "evidence_start" (jsonNat relation.evidenceStart),
     field "evidence_end" (jsonNat relation.evidenceEnd),
     field "evidence_hash" (jsonString (P.sha256 relation.evidence)),
     field "target" target])

/-- Sort values by their canonical hashes. -/
def sortByHash (values : List IJson) : Except String (List IJson) := do
  let keyed ← values.mapM fun value => do
    let hash ← canonicalHashIjson P value
    pure (hash, value)
  pure ((KeySort.sortBy (fun p => p.1.toList) keyed).map Prod.snd)

/-- The values of a list at the given positions. -/
def valuesAt {α : Type} (values : List α) (indexes : List ℕ) : List α :=
  indexes.filterMap fun index => values[index]?

/-- The units of an answer under their names. -/
def unitsById (analysis : SemanticAnalysisV1Output) : Dict String SemanticUnit :=
  Dict.ofPairs (analysis.semanticUnits.map fun u => (u.id, u))

/-- The context items under their names. -/
def contextsById (items : List BoundedContextItem) : Dict String BoundedContextItem :=
  Dict.ofPairs (items.map fun item => (item.contextItemId, item))

/-- What is hashed of a unit. -/
def unitMaterial (unit : SemanticUnit) (references relations : List IJson) : IJson :=
  .obj (unitMembers P unit ++
    [field "references" (.arr references), field "relations" (.arr relations)])

/-- The fingerprint of a unit with its references and relations. -/
def semanticUnitFingerprint (unit : SemanticUnit) (analysis : SemanticAnalysisV1Output)
    (acceptedReferenceIndexes acceptedRelationIndexes : List ℕ)
    (contextItems : List BoundedContextItem) : Except String String := do
  let contexts := contextsById contextItems
  let units := unitsById analysis
  let references ← ((valuesAt analysis.references acceptedReferenceIndexes).filter fun r =>
    r.sourceUnitId = unit.id).mapM (referenceMaterial P units contexts)
  let relations ← ((valuesAt analysis.relations acceptedRelationIndexes).filter fun r =>
    r.sourceUnitId = unit.id).mapM (relationMaterial P units contexts)
  let sortedReferences ← sortByHash P references
  let sortedRelations ← sortByHash P relations
  canonicalHashIjson P (unitMaterial P unit sortedReferences sortedRelations)

/-- What identifies a proposal. -/
structure ProposalMaterial where
  plannerVersion : String
  messageUuid : String
  rawTextHash : String
  semanticContractHash : String
  unitFingerprint : String
  rawStart : ℕ
  rawEnd : ℕ
  routeType : String
  routeStatus : String
  gateDecision : String
  sourceAuthority : String
  coverageDisposition : String
  deriving DecidableEq, Repr

/-- The hashed form of what identifies a proposal. -/
def ProposalMaterial.json (m : ProposalMaterial) : IJson :=
  .obj
    [field "identity_version" (jsonString proposalIdentityVersion),
     field "planner_version" (jsonString m.plannerVersion),
     field "message_uuid" (jsonString m.messageUuid),
     field "raw_text_hash" (jsonString m.rawTextHash),
     field "semantic_contract_hash" (jsonString m.semanticContractHash),
     field "semantic_unit_fingerprint" (jsonString m.unitFingerprint),
     field "raw_start" (jsonNat m.rawStart),
     field "raw_end" (jsonNat m.rawEnd),
     field "route_type" (jsonString m.routeType),
     field "route_status" (jsonString m.routeStatus),
     field "gate_decision" (jsonString m.gateDecision),
     field "source_authority" (jsonString m.sourceAuthority),
     field "coverage_disposition" (jsonString m.coverageDisposition)]

/-- The identity of a proposal. -/
def proposalIdentity (m : ProposalMaterial) : Except String String := do
  let digest ← canonicalHashIjson P m.json
  pure (P.uuid5 proposalNamespace (proposalNamePrefix ++ digest))

/-- The identity of a coverage item. -/
def coverageItemIdentity (material : List (Text × IJson)) : Except String String := do
  let digest ← canonicalHashIjson P
    (.obj (field "identity_version" (jsonString coverageItemIdentityVersion) :: material))
  pure (P.uuid5 coverageItemNamespace digest)

end

/-! ### What is hashed determines the fields -/

section

variable {P : Platform}

lemma ProposalMaterial.json_inj {m n : ProposalMaterial} (h : m.json.canon = n.json.canon) :
    m = n := by
  rw [json, json, canon_fields_inj ["identity_version", "planner_version", "message_uuid",
    "raw_text_hash", "semantic_contract_hash", "semantic_unit_fingerprint", "raw_start", "raw_end",
    "route_type", "route_status", "gate_decision", "source_authority", "coverage_disposition"]
    (by simp) rfl rfl] at h
  cases m
  cases n
  simpa [field] using h

/-- Proposals of one identity agree in everything that identifies them. -/
theorem proposalIdentity_inj (hsha : Function.Injective P.sha256)
    (huuid : ∀ space, Function.Injective (P.uuid5 space)) {m n : ProposalMaterial} {id : String}
    (hm : proposalIdentity P m = .ok id) (hn : proposalIdentity P n = .ok id) : m = n := by
  simp only [proposalIdentity, Checks.bind_eq_ok, Checks.pure_eq_ok] at hm hn
  obtain ⟨digest, hdigest, hid⟩ := hm
  obtain ⟨digest', hdigest', hid'⟩ := hn
  have hdigests : digest = digest' := by
    have h := huuid _ (hid.trans hid'.symm)
    simpa [← String.toList_inj] using h
  subst hdigests
  exact ProposalMaterial.json_inj (canonicalHashIjson_inj hsha hdigest hdigest')

/-- Two units say the same, whatever they are called and whatever kind of memory they are taken
for. -/
structure SemanticUnit.SameMeaning (u v : SemanticUnit) : Prop where
  rawStart : u.rawStart = v.rawStart
  rawEnd : u.rawEnd = v.rawEnd
  evidence : u.evidence = v.evidence
  proposition : u.proposition = v.proposition
  unitType : u.unitType = v.unitType
  durability : u.durability = v.durability
  polarity : u.polarity = v.polarity
  epistemicStatus : u.epistemicStatus = v.epistemicStatus

/-- The material of a unit determines what it says, and its references and relations up to the
order of members. -/
lemma unitMaterial_inj (hsha : Function.Injective P.sha256) {u v : SemanticUnit}
    {references references' relations relations' : List IJson}
    (h : (unitMaterial P u references relations).canon =
      (unitMaterial P v references' relations').canon) :
    u.SameMeaning v ∧ references.map IJson.canon = references'.map IJson.canon ∧
      relations.map IJson.canon = relations'.map IJson.canon := by
  rw [unitMaterial, unitMaterial, canon_fields_inj ["raw_start", "raw_end", "evidence_hash",
    "proposition", "unit_type", "durability", "polarity", "epistemic_status", "references",
    "relations"] (by simp) rfl rfl] at h
  simp only [unitMembers, field, List.cons_append, List.nil_append, List.map_cons, List.map_nil,
    canon_jsonNat, canon_jsonString, IJson.canon_str, IJson.canon_arr, List.cons.injEq,
    jsonNat_inj, jsonString_inj, IJson.str.injEq, IJson.arr.injEq, hsha.eq_iff,
    SemanticUnitType.value_injective.eq_iff, SemanticDurability.value_injective.eq_iff,
    SemanticPolarity.value_injective.eq_iff,
    SemanticEpistemicStatus.value_injective.eq_iff] at h
  obtain ⟨hstart, hend, hevidence, hproposition, htype, hdurability, hpolarity, hstatus,
    hreferences, hrelations, -⟩ := h
  exact ⟨⟨hstart, hend, hevidence, hproposition, htype, hdurability, hpolarity, hstatus⟩,
    hreferences, hrelations⟩

/-- The context item a target is. -/
def Target.item? : Target → Option BoundedContextItem
  | .priorContext item => some item
  | _ => none

/-- The number of members of a target's fingerprint, one for each kind. -/
def Target.memberCount : Target → ℕ
  | .absent => 0
  | .invalid => 1
  | .currentUnit _ => 2
  | .priorContext _ => 10

lemma Target.fingerprint_memberCount {t : Target} {j : IJson} (h : t.fingerprint P = .ok j) :
    j.memberCount = t.memberCount := by
  cases t with
  | absent | invalid | priorContext =>
      obtain rfl := Checks.pure_eq_ok.mp h
      rfl
  | currentUnit unit =>
      simp only [fingerprint, Checks.bind_eq_ok, Checks.pure_eq_ok] at h
      obtain ⟨_, -, rfl⟩ := h
      rfl

lemma contextMembers_inj {a b : BoundedContextItem}
    (h : (IJson.obj (contextMembers a)).canon = (IJson.obj (contextMembers b)).canon) :
    contextMembers a = contextMembers b := by
  rw [canon_fields_inj ["kind", "context_item_id", "message_uuid", "message_version_uuid",
    "text_unit_uuid", "raw_start", "raw_end", "raw_text_hash", "role",
    "source_authority_ceiling"] (by simp) rfl rfl] at h
  simpa [contextMembers, field] using h

/-- Fingerprints of targets that agree up to the order of members are one, and if one target is a
context item so is the other, with the same members. -/
lemma Target.fingerprint_inj {s t : Target} {i j : IJson} (hs : s.fingerprint P = .ok i)
    (ht : t.fingerprint P = .ok j) (h : i.canon = j.canon) :
    i = j ∧ s.item?.map contextMembers = t.item?.map contextMembers := by
  have hcount : i.memberCount = j.memberCount := by
    rw [← IJson.memberCount_canon i, h, IJson.memberCount_canon]
  rw [fingerprint_memberCount hs, fingerprint_memberCount ht] at hcount
  -- only targets of one kind have fingerprints of one length
  cases s <;> cases t <;> simp [memberCount] at hcount
  case absent.absent | invalid.invalid =>
    rw [← Checks.pure_eq_ok.mp hs, ← Checks.pure_eq_ok.mp ht]
    exact ⟨rfl, rfl⟩
  case currentUnit.currentUnit =>
    simp only [fingerprint, Checks.bind_eq_ok, Checks.pure_eq_ok] at hs ht
    obtain ⟨_, -, rfl⟩ := hs
    obtain ⟨_, -, rfl⟩ := ht
    rw [canon_fields_inj ["kind", "fingerprint"] (by simp) rfl rfl] at h
    simpa [field, item?] using h
  case priorContext.priorContext a b =>
    rw [← Checks.pure_eq_ok.mp hs, ← Checks.pure_eq_ok.mp ht] at h ⊢
    have hmembers := contextMembers_inj h
    exact ⟨congrArg IJson.obj hmembers, by simp [item?, hmembers]⟩

/-- The material of a reference determines its marker and its target, and agrees with another only
where it is the same. -/
lemma referenceMaterial_inj {units units' : Dict String SemanticUnit}
    {contexts contexts' : Dict String BoundedContextItem} {r r' : SemanticReference} {i j : IJson}
    (hr : referenceMaterial P units contexts r = .ok i)
    (hr' : referenceMaterial P units' contexts' r' = .ok j) (h : i.canon = j.canon) :
    i = j ∧ r.marker = r'.marker ∧
      (resolveTarget units contexts r.selectedReferentId).item?.map contextMembers =
        (resolveTarget units' contexts' r'.selectedReferentId).item?.map contextMembers := by
  simp only [referenceMaterial, Checks.bind_eq_ok, Checks.pure_eq_ok] at hr hr'
  obtain ⟨target, htarget, rfl⟩ := hr
  obtain ⟨target', htarget', rfl⟩ := hr'
  rw [canon_fields_inj ["marker_start", "marker_end", "marker_hash", "status", "selected_target"]
    (by simp) rfl rfl] at h
  simp only [field, List.map_cons, List.map_nil, canon_jsonNat, canon_jsonString,
    List.cons.injEq] at h
  obtain ⟨hstart, hend, hhash, hstatus, hcanon, -⟩ := h
  obtain ⟨htargets, hitem⟩ := Target.fingerprint_inj htarget htarget' hcanon
  refine ⟨by rw [hstart, hend, hhash, hstatus, htargets], ?_, hitem⟩
  rw [SemanticReference.marker, SemanticReference.marker, jsonNat_inj.mp hstart,
    jsonNat_inj.mp hend]

/-- The material of a relation agrees with another only where it is the same. -/
lemma relationMaterial_inj {units units' : Dict String SemanticUnit}
    {contexts contexts' : Dict String BoundedContextItem} {r r' : SemanticRelation} {i j : IJson}
    (hr : relationMaterial P units contexts r = .ok i)
    (hr' : relationMaterial P units' contexts' r' = .ok j) (h : i.canon = j.canon) : i = j := by
  simp only [relationMaterial, Checks.bind_eq_ok, Checks.pure_eq_ok] at hr hr'
  obtain ⟨target, htarget, rfl⟩ := hr
  obtain ⟨target', htarget', rfl⟩ := hr'
  rw [canon_fields_inj ["relation_type", "evidence_start", "evidence_end", "evidence_hash",
    "target"] (by simp) rfl rfl] at h
  simp only [field, List.map_cons, List.map_nil, canon_jsonNat, canon_jsonString,
    List.cons.injEq] at h
  obtain ⟨htype, hstart, hend, hhash, hcanon, -⟩ := h
  rw [htype, hstart, hend, hhash, (Target.fingerprint_inj htarget htarget' hcanon).1]

end

end Memorist
