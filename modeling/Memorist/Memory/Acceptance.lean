import Memorist.Memory.VersionChain

/-!
Accepted candidates: when the memory that a decision links is active and says what the candidate
says.

* `LinkedActive`: what an accepted candidate is owed;
* `linkedActive_setCurrent`: a version that is made current leaves the status as it was;
* `accepted_is_active_iff`: **a candidate that is added, reinforced or supersedes is linked to an
  active memory exactly when no memory of its key had another status**;
* `retracted_memory_stays`: a memory that was retracted takes a new version and stays retracted.
-/

namespace Memorist

namespace MemoryStore

/-- The memory that a decision links is active, and its current version has the text. -/
def LinkedActive (store : MemoryStore) (decision : MemoryConsolidationDecision) (text : Text) :
    Prop :=
  ∃ memory, decision.targetMemoryUuid.bind store.memories.get? = some memory ∧
    memory.status = .active ∧ ∃ version, store.currentVersion memory = some version ∧
      version.normalizedText = text

variable {store s t : MemoryStore} {memory : MemoryRow} {version : MemoryVersionRow}
variable {decision : MemoryConsolidationDecision} {text : Text}

/-- A decision is linked as its memory stands. -/
lemma linkedActive_iff (memory : MemoryRow) (version : MemoryVersionRow)
    (hmemory : decision.targetMemoryUuid.bind store.memories.get? = some memory)
    (hversion : store.currentVersion memory = some version)
    (htext : version.normalizedText = text) :
    store.LinkedActive decision text ↔ memory.status = .active := by
  refine ⟨?_, fun hstatus => ⟨memory, hmemory, hstatus, version, hversion, htext⟩⟩
  rintro ⟨memory', hmemory', hstatus, -⟩
  rw [hmemory] at hmemory'
  rwa [Option.some_inj.mp hmemory']

/-- A version that is inserted and made current leaves the status of its memory as it was. -/
lemma linkedActive_setCurrent (memory : MemoryRow) {candidateUuid : String}
    {resolution : ConsolidationOperation × List String}
    (hmemory : s.memories.get? memory.memoryUuid = some memory)
    (howner : version.memoryUuid = memory.memoryUuid) (htext : version.normalizedText = text)
    (hinsert : s.insertVersion version = .ok t)
    {decisions : Table MemoryConsolidationDecision String
      MemoryConsolidationDecision.candidateUuid} :
    LinkedActive
        { t.setCurrent memory.memoryUuid version.memoryVersionUuid with decisions := decisions }
        (decisionOn candidateUuid resolution version) text ↔ memory.status = .active := by
  obtain ⟨hfresh, rfl⟩ := insertVersion_eq_ok hinsert
  refine linkedActive_iff { memory with currentVersionUuid := version.memoryVersionUuid } version
    ?_ ?_ htext
  · rw [decisionOn, howner, Option.bind_some]
    simp [setCurrent, updateMemory, hmemory]
  · exact Table.get?_insert_self hfresh

/-- **Accepted candidates.** In every history, a candidate that is added, reinforced or supersedes
is linked to an active memory with its text exactly when no memory of its scope and key was stored
or the stored one was active. -/
theorem accepted_is_active_iff (U : UnicodeData) (commands : List MemoryCommand)
    {candidateUuid : String} {source : CandidateSource candidateUuid} {stamp : Stamp}
    {candidate : MemoryCandidate} {session : SessionRow}
    (hcandidate : source.candidate = some candidate) (hsession : source.session = some session)
    (hnew : (run U commands).decisions.get? candidateUuid = none)
    (hdecide : (run U commands).consolidateCandidate U source stamp = .ok (decision, s))
    (haccepted : decision.operation ∈ [.add, .reinforce, .supersede]) :
    s.LinkedActive decision candidate.normalizedText ↔
      ∀ memory, (run U commands).memoryFor U candidate session = some memory →
        memory.status = .active := by
  have hchains := versionChains_run (U := U) commands
  -- the condition is about the memory that is found
  have hfound : ∀ {memory : MemoryRow},
      (run U commands).memoryFor U candidate session = some memory →
      ((∀ memory, (run U commands).memoryFor U candidate session = some memory →
        memory.status = .active) ↔ memory.status = .active) := by
    intro memory hmemory
    refine ⟨fun h => h memory hmemory, fun h memory' hmemory' => ?_⟩
    rw [hmemory] at hmemory'
    rwa [← Option.some_inj.mp hmemory']
  cases consolidateCandidate_cases hdecide with
  | decided h => exact absurd (hnew.symm.trans h) (by simp)
  | noted _ hop => exact absurd haccepted hop
  | created _ hcandidate' hsession' hmemory hversion hinsert hinsert' =>
      obtain rfl := Option.some_inj.mp (hcandidate.symm.trans hcandidate')
      obtain rfl := Option.some_inj.mp (hsession.symm.trans hsession')
      obtain ⟨howner, -, -, htext⟩ := versionFor_eq_ok hversion
      obtain ⟨hfresh, rfl⟩ := insertMemory_eq_ok hinsert
      refine (linkedActive_setCurrent (newMemory U candidate session stamp)
        (Table.get?_insert_self hfresh) howner htext hinsert').trans
        ⟨fun _ memory h => ?_, fun _ => rfl⟩
      exact absurd (hmemory.symm.trans h) (by simp)
  | @reinforced _ _ _ memory current _ hcandidate' hsession' hmemory hcurrent htext =>
      obtain rfl := Option.some_inj.mp (hcandidate.symm.trans hcandidate')
      obtain rfl := Option.some_inj.mp (hsession.symm.trans hsession')
      have hmem := memoryFor_mem hmemory
      obtain ⟨name, hname, hrow⟩ := Option.bind_eq_some_iff.mp hcurrent
      obtain ⟨hversion, rfl⟩ := Table.get?_eq_some.mp hrow
      rw [hfound hmemory]
      refine linkedActive_iff memory current ?_ hcurrent htext
      rw [decisionOn, hchains.memoryUuid_of_current hmem hversion hname]
      exact Table.get?_of_mem hmem
  | @added _ _ _ memory version _ _ hcandidate' hsession' hmemory hcurrent hversion hinsert =>
      obtain rfl := Option.some_inj.mp (hcandidate.symm.trans hcandidate')
      obtain rfl := Option.some_inj.mp (hsession.symm.trans hsession')
      obtain ⟨howner, -, -, htext⟩ := versionFor_eq_ok hversion
      rw [hfound hmemory]
      exact linkedActive_setCurrent memory (Table.get?_of_mem (memoryFor_mem hmemory)) howner htext
        hinsert
  | @superseded _ _ _ memory _ version _ _ hcandidate' hsession' hmemory hcurrent hversion
      hinsert =>
      obtain rfl := Option.some_inj.mp (hcandidate.symm.trans hcandidate')
      obtain rfl := Option.some_inj.mp (hsession.symm.trans hsession')
      obtain ⟨howner, -, -, htext⟩ := versionFor_eq_ok hversion
      rw [hfound hmemory]
      refine linkedActive_setCurrent memory ?_ howner htext hinsert
      rw [closeCurrent_memories]
      exact Table.get?_of_mem (memoryFor_mem hmemory)

/-- The operation of a decision and the status of the memory it links. -/
def linkedStatus (result : Except String (MemoryConsolidationDecision × MemoryStore)) :
    Option (ConsolidationOperation × Option MemoryStatus) :=
  match result with
  | .ok (decision, store) => some (decision.operation,
      (decision.targetMemoryUuid.bind store.memories.get?).map MemoryRow.status)
  | .error _ => none

lemma linkedStatus_eq_some {result : Except String (MemoryConsolidationDecision × MemoryStore)}
    {operation : ConsolidationOperation} {status : Option MemoryStatus}
    (h : linkedStatus result = some (operation, status)) :
    ∃ decision store, result = .ok (decision, store) ∧ decision.operation = operation ∧
      (decision.targetMemoryUuid.bind store.memories.get?).map MemoryRow.status = status := by
  unfold linkedStatus at h
  split at h
  case h_1 decision store =>
    obtain ⟨rfl, rfl⟩ := Prod.mk.inj (Option.some_inj.mp h)
    exact ⟨decision, store, rfl, rfl, rfl⟩
  case h_2 => exact absurd h (by simp)

/-- The coffee supersedes the tea, and the memory is active. -/
theorem accepted_is_active_iff_coffee : ∃ decision s,
    (run basicLatin (drinkCommands.take 2)).consolidateCandidate basicLatin
      (drinkSource "c2" "coffee") ⟨"m3", "v3", 3⟩ = .ok (decision, s) ∧
    (s.LinkedActive decision "coffee".toList ↔
      ∀ memory, (run basicLatin (drinkCommands.take 2)).memoryFor basicLatin
        (drinkCandidate "c2" "coffee") { sessionUuid := "session" } = some memory →
          memory.status = .active) := by
  have hstatus : linkedStatus ((run basicLatin (drinkCommands.take 2)).consolidateCandidate
      basicLatin (drinkSource "c2" "coffee") ⟨"m3", "v3", 3⟩) =
        some (.supersede, some .active) := by decide +kernel
  obtain ⟨decision, s, hdecide, hop, -⟩ := linkedStatus_eq_some hstatus
  exact ⟨decision, s, hdecide, accepted_is_active_iff basicLatin (drinkCommands.take 2) rfl rfl
    (by decide +kernel) hdecide (by simp [hop])⟩

/-- The user drinks tea and then takes this back. -/
def retractCommands : List MemoryCommand :=
  [.consolidate "c1" (drinkSource "c1" "tea") ⟨"m1", "v1", 1⟩,
   .applyRequest ⟨"r1", "m1", "retract", .null, "user", "pending"⟩ ⟨"m2", "v2", 2⟩]

/-- The coffee supersedes the tea that was retracted, and the memory stays retracted. -/
theorem retracted_memory_stays : ∃ decision s,
    (run basicLatin retractCommands).consolidateCandidate basicLatin
      (drinkSource "c2" "coffee") ⟨"m3", "v3", 3⟩ = .ok (decision, s) ∧
    decision.operation = .supersede ∧ ¬ s.LinkedActive decision "coffee".toList := by
  have hretracted : linkedStatus ((run basicLatin retractCommands).consolidateCandidate
      basicLatin (drinkSource "c2" "coffee") ⟨"m3", "v3", 3⟩) =
        some (.supersede, some .retracted) := by decide +kernel
  obtain ⟨decision, s, hdecide, hop, hstatus⟩ := linkedStatus_eq_some hretracted
  refine ⟨decision, s, hdecide, hop, ?_⟩
  rintro ⟨memory, hmemory, hactive, -⟩
  rw [hmemory, Option.map_some, hactive] at hstatus
  exact absurd hstatus (by decide)

end MemoryStore

end Memorist
