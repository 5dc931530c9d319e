import Memorist.Governance.NewVersion
import Memorist.Library.Runs
import Memorist.Memory.Reinforcement

/-!
The polarity of the versions that corrections write (`governance/correction.py`,
`memory_worker/consolidation/resolver.py`).

* `Copies`: a correction gives a memory a new version with the text of an old one;
* `CopyKept`: commands that leave the current version of a memory, or copy it again;
* `opposing`, `decides_alike_iff`: when two versions of one text decide alike on every candidate;
* `copy_keeps_polarity_iff`: **a copy has the polarity of what it copies, and decides on every later
  candidate as that would, exactly when the polarity was unknown.**
-/

namespace Memorist

namespace MemoryStore

variable {U : UnicodeData} {store s' t : MemoryStore} {memoryUuid : String}
  {copied version : MemoryVersionRow}

/-- The operations whose version has the text of the current one. -/
def textKeepingOperations : List String := "confirm" :: structureOperations

/-- A pending request keeps the text of a memory. -/
def KeepsText (request : ChangeRequestRow) (memoryUuid : String) : Prop :=
  request.status = "pending" ∧ request.requestedOperation ∈ textKeepingOperations ∧
    request.memoryUuid = some memoryUuid

variable (U) in
/-- A correction gives a memory a new version with the text of an old one: a request that keeps the
text, with that of the current version; an undo, with that of the version before the last. -/
inductive Copies (store : MemoryStore) (memoryUuid : String) (copied : MemoryVersionRow)
    (s' : MemoryStore) : Prop
  | kept {request : ChangeRequestRow} {stamp : Stamp} (hrequest : KeepsText request memoryUuid)
      (hcopied : store.current? memoryUuid = some copied)
      (hwritten : store.applyRequest U request stamp = .ok s')
  | undone {request : ChangeRequestRow} {actorType : String} {stamp : Stamp}
      (hmemory : request.memoryUuid = some memoryUuid)
      (hcopied : store.previousVersion memoryUuid = some copied)
      (hwritten : store.undoRequest U request actorType stamp = .ok s')

variable (U) in
/-- A command leaves the current version of a memory, or is a request that keeps its text. -/
def CopyKept (memoryUuid : String) (store : MemoryStore) (command : MemoryCommand)
    (t : MemoryStore) : Prop :=
  t = store.after U command ∧ (t.current? memoryUuid = store.current? memoryUuid ∨
    ∃ request stamp, command = .applyRequest request stamp ∧ KeepsText request memoryUuid)

/-- The current version of a memory has a text and no polarity. -/
def CurrentUnknown (memoryUuid : String) (text : Text) (store : MemoryStore) : Prop :=
  ∃ version, store.current? memoryUuid = some version ∧ version.normalizedText = text ∧
    version.polarity = .unknown

/-! ### The new version -/

/-- A confirmation takes the text of the current version. -/
lemma normalizedTextForOperation_confirm (proposedValue : IJson) (current : MemoryVersionRow) :
    normalizedTextForOperation U "confirm" proposedValue current = .ok current.normalizedText := by
  unfold normalizedTextForOperation
  dsimp only
  split
  case h_1 heq _ => exact absurd heq (by decide)
  case h_2 => rw [if_pos rfl]

/-- A new version of a memory has the text it is given, and no polarity. -/
lemma currentUnknown_of_createNewVersion {memory : MemoryRow} (hmem : memory ∈ store.memories.rows)
    {text : Text} {operation actorType : String} {proposedValue : IJson} {stamp : Stamp}
    (h : store.createNewVersion U memory text operation actorType proposedValue stamp = .ok s') :
    CurrentUnknown memory.memoryUuid text s' :=
  (createNewVersion_current hmem h).2

/-- A request that keeps the text gives the memory its text again, and no polarity. -/
lemma currentUnknown_of_keepsText {request : ChangeRequestRow} {stamp : Stamp}
    (hrequest : KeepsText request memoryUuid) (hcopied : store.current? memoryUuid = some copied)
    (hwritten : store.applyRequest U request stamp = .ok s') :
    CurrentUnknown memoryUuid copied.normalizedText s' := by
  obtain ⟨hpending, hkeeps, hname⟩ := hrequest
  obtain ⟨memory, hmemory, hcurrent⟩ := Option.bind_eq_some_iff.mp hcopied
  obtain ⟨hmem, rfl⟩ := Table.get?_eq_some.mp hmemory
  have hrequire := requireCurrentVersion_eq_ok.mpr hcurrent
  rw [applyRequest, if_neg (not_not.mpr hpending), hname] at hwritten
  simp only [hmemory, hrequire, Checks.ok_bind] at hwritten
  rcases List.mem_cons.mp hkeeps with hconfirm | hstructure
  · rw [if_pos (by rw [hconfirm]; decide), hconfirm, normalizedTextForOperation_confirm,
      Checks.ok_bind] at hwritten
    exact currentUnknown_of_createNewVersion hmem hwritten
  · have hapart : request.requestedOperation ∉ textOperations ∧
        request.requestedOperation ∉ statusOperations := by
      revert hstructure
      simp only [structureOperations, textOperations, statusOperations, List.mem_cons,
        List.not_mem_nil, or_false]
      rintro (h | h | h | h | h | h) <;> rw [h] <;> decide
    rw [if_neg hapart.1, if_neg hapart.2, if_pos hstructure] at hwritten
    exact currentUnknown_of_createNewVersion hmem hwritten

/-- A copy has the text of what it copies, and no polarity. -/
lemma Copies.currentUnknown (h : Copies U store memoryUuid copied s') :
    CurrentUnknown memoryUuid copied.normalizedText s' := by
  cases h with
  | kept hrequest hcopied hwritten => exact currentUnknown_of_keepsText hrequest hcopied hwritten
  | undone hmemory hcopied hwritten =>
      obtain ⟨memory, text, value, hmem, hname, -⟩ := undoRequest_cases hwritten
      obtain rfl := Option.some.inj (hname.symm.trans hmemory)
      rw [undoRequest_eq_previous hname hmem, hcopied] at hwritten
      exact currentUnknown_of_createNewVersion hmem hwritten

/-- The current version stays a copy without polarity. -/
lemma CurrentUnknown.step {text : Text} {command : MemoryCommand}
    (h : CurrentUnknown memoryUuid text store) (hstep : CopyKept U memoryUuid store command t) :
    CurrentUnknown memoryUuid text t := by
  obtain ⟨rfl, hleaves | ⟨request, stamp, rfl, hrequest⟩⟩ := hstep
  · rwa [CurrentUnknown, hleaves]
  · unfold after
    split
    case h_1 s' hok =>
      obtain ⟨version, hversion, rfl, -⟩ := h
      exact currentUnknown_of_keepsText hrequest hversion hok
    case h_2 => exact h

/-! ### Decisions -/

/-- A candidate that says something else than a version, of the opposite polarity. -/
def opposing (version : MemoryVersionRow) : MemoryCandidate :=
  { drinkCandidate "c" "tea" with
    normalizedText := 'x' :: version.normalizedText
    polarity := if version.polarity = .affirmed then .negated else .affirmed }

/-- What a candidate that says something else means for a version. -/
lemma resolve_opposing (h : version.normalizedText = copied.normalizedText) :
    (DeterministicResolver.resolve (opposing copied) (some version)).1 =
      if polaritiesContradict version.polarity (opposing copied).polarity then .contradict
      else .supersede := by
  have hother : version.normalizedText ≠ (opposing copied).normalizedText := by
    rw [h]
    exact (List.cons_ne_self 'x' copied.normalizedText).symm
  have hstatus : (opposing copied).status = .readyForConsolidation := rfl
  have hpredicate : (opposing copied).predicate = some "drinks" := rfl
  simp only [DeterministicResolver.resolve, hstatus, hpredicate, if_neg hother]
  rw [if_neg (by decide), if_neg (by decide), if_neg (by decide)]
  split_ifs <;> rfl

/-- Two versions of one text, one of them without polarity, decide alike on every candidate exactly
when the other has none either. -/
theorem decides_alike_iff (htext : version.normalizedText = copied.normalizedText)
    (hpolarity : version.polarity = .unknown) :
    (∀ candidate, (DeterministicResolver.resolve candidate (some version)).1 =
        (DeterministicResolver.resolve candidate (some copied)).1) ↔ copied.polarity = .unknown := by
  constructor
  · intro h
    have hboth := h (opposing copied)
    rw [resolve_opposing htext, resolve_opposing rfl, hpolarity] at hboth
    rcases hcopied : copied.polarity with _ | _ | _
    · simp [polaritiesContradict, opposing, hcopied] at hboth
    · simp [polaritiesContradict, opposing, hcopied] at hboth
    · rfl
  · intro hunknown candidate
    simp only [DeterministicResolver.resolve, htext, hpolarity, hunknown]

/-- **Corrections and polarity.** After any history, a correction that copies the text of a version
and any later commands that leave the memory's current version or copy it again, the current version
has the polarity of the one whose text was copied, and decides on every candidate as that one would,
exactly when that polarity was unknown. -/
theorem copy_keeps_polarity_iff (U : UnicodeData) (commands : List MemoryCommand)
    {memoryUuid : String} {copied : MemoryVersionRow} {s' t : MemoryStore}
    (hcopies : Copies U (run U commands) memoryUuid copied s') {later : List MemoryCommand}
    (hlater : Runs (CopyKept U memoryUuid) s' later t) :
    ((t.current? memoryUuid).map MemoryVersionRow.polarity = some copied.polarity ∧
      ∀ candidate, (DeterministicResolver.resolve candidate (t.current? memoryUuid)).1 =
        (DeterministicResolver.resolve candidate (some copied)).1) ↔
      copied.polarity = .unknown := by
  obtain ⟨version, hversion, htext, hpolarity⟩ :=
    hlater.invariant (I := CurrentUnknown memoryUuid copied.normalizedText)
      (fun h hstep => h.step hstep) hcopies.currentUnknown
  rw [hversion, decides_alike_iff htext hpolarity, Option.map_some, hpolarity, Option.some_inj]
  exact ⟨And.right, fun h => ⟨h.symm, h⟩⟩

/-! ### A drink that is confirmed -/

/-- The user says of a drink that they drink it, or leaves that open. -/
def drinkSaid (polarity : SemanticPolarity) : List MemoryCommand :=
  [.consolidate "c1" (ProjectedStore.polarSource "c1" "tea" "e1" polarity) ⟨"m1", "v1", 1⟩]

/-- The version that the user confirms. -/
def drinkVersion (polarity : SemanticPolarity) : MemoryVersionRow where
  memoryVersionUuid := "v1"
  memoryUuid := "m1"
  versionNumber := 1
  normalizedText := "tea".toList
  polarity := polarity
  transactionFrom := 1
  sourceCandidateUuid := "c1"
  changeOperation := .add
  changeReasonIjson := ((run basicLatin (drinkSaid polarity)).current? "m1").bind
    MemoryVersionRow.changeReasonIjson

lemma copies_confirmDrink {polarity : SemanticPolarity} (h :
    (run basicLatin (drinkSaid polarity)).current? "m1" = some (drinkVersion polarity)) :
    Copies basicLatin (run basicLatin (drinkSaid polarity)) "m1" (drinkVersion polarity)
      ((run basicLatin (drinkSaid polarity)).after basicLatin confirmDrink) := by
  have hrequest : KeepsText ⟨"r1", "m1", "confirm", .null, "user", "pending"⟩ "m1" :=
    ⟨rfl, by decide, rfl⟩
  have hwritten : (run basicLatin (drinkSaid polarity)).applyRequest basicLatin
      ⟨"r1", "m1", "confirm", .null, "user", "pending"⟩ ⟨"m2", "v2", 2⟩ =
        .ok ((run basicLatin (drinkSaid polarity)).after basicLatin confirmDrink) := rfl
  exact .kept hrequest h hwritten

/-- What was said without polarity is confirmed as it is. -/
theorem copy_keeps_polarity_iff_unknown :
    (((run basicLatin (drinkSaid .unknown)).after basicLatin confirmDrink).current? "m1").map
        MemoryVersionRow.polarity = some .unknown ∧
      ∀ candidate, (DeterministicResolver.resolve candidate
          (((run basicLatin (drinkSaid .unknown)).after basicLatin confirmDrink).current? "m1")).1 =
        (DeterministicResolver.resolve candidate (some (drinkVersion .unknown))).1 :=
  (copy_keeps_polarity_iff basicLatin (drinkSaid .unknown)
    (copies_confirmDrink (by decide +kernel)) .refl).mpr rfl

/-- What was affirmed is confirmed without its polarity, so that a later denial supersedes it. -/
theorem confirmation_loses_polarity :
    ¬ ∀ (commands : List MemoryCommand) {memoryUuid : String} {copied : MemoryVersionRow}
      {s' : MemoryStore}, Copies basicLatin (run basicLatin commands) memoryUuid copied s' →
      (s'.current? memoryUuid).map MemoryVersionRow.polarity = some copied.polarity ∧
        ∀ candidate, (DeterministicResolver.resolve candidate (s'.current? memoryUuid)).1 =
          (DeterministicResolver.resolve candidate (some copied)).1 := by
  intro h
  have hkept := (h (drinkSaid .affirmed) (copies_confirmDrink (by decide +kernel))).1
  exact absurd hkept (by decide +kernel)

end MemoryStore

end Memorist
