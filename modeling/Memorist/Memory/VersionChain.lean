import Memorist.Governance.Correction
import Memorist.Governance.Erasure

/-!
The version chain: every memory's versions are numbered from one on, the current one is the last,
and it alone is open.

* `MemoryCommand`, `MemoryStore.perform`: consolidations, corrections, undos and erasures;
* `MemoryStore.run`: any sequence of them; a command that fails writes nothing;
* `VersionChains.perform`: each of them keeps the chains;
* `versions_chained`: **they hold at every point of every sequence.**
-/

namespace Memorist

/-- What is asked of the memories. -/
inductive MemoryCommand where
  | consolidate (candidateUuid : String) (source : CandidateSource candidateUuid) (stamp : Stamp)
  | applyRequest (request : ChangeRequestRow) (stamp : Stamp)
  | undoRequest (request : ChangeRequestRow) (actorType : String) (stamp : Stamp)
  | quarantine (records : List PrivacyRecord)
  | erase (requestUuid : String) (records : List PrivacyRecord)

namespace MemoryStore

variable (U : UnicodeData)

/-- What a command writes. -/
def perform (store : MemoryStore) : MemoryCommand → Except String MemoryStore
  | .consolidate _ source stamp => Prod.snd <$> store.consolidateCandidate U source stamp
  | .applyRequest request stamp => store.applyRequest U request stamp
  | .undoRequest request actorType stamp => store.undoRequest U request actorType stamp
  | .quarantine records => .ok (store.quarantine records)
  | .erase requestUuid records => store.erase U requestUuid records

/-- The store after a command; its transaction is rolled back if it fails. -/
def after (store : MemoryStore) (command : MemoryCommand) : MemoryStore :=
  match store.perform U command with
  | .ok store => store
  | .error _ => store

/-- The store after a sequence of commands. -/
def run (commands : List MemoryCommand) : MemoryStore := commands.foldl (after U) empty

variable {U} {store s' : MemoryStore}

/-! ### What keeps the chains -/

lemma VersionChains.setStatus (h : VersionChains store) (memoryUuid : String)
    (status : MemoryStatus) : VersionChains (store.setStatus memoryUuid status) :=
  h.updateMemory (f := fun memory => { memory with status := status }) memoryUuid (fun _ => rfl)
    fun _ => rfl

/-- A decision is no part of a chain. -/
lemma VersionChains.withDecisions (h : VersionChains store)
    (decisions : Table MemoryConsolidationDecision String
      MemoryConsolidationDecision.candidateUuid) :
    VersionChains { store with decisions := decisions } := ⟨h.chain, h.owned⟩

/-- What a version of a candidate is numbered. -/
lemma versionFor_eq_ok {candidate : MemoryCandidate} {memoryUuid : String} {versionNumber : ℕ}
    {operation : ConsolidationOperation} {stamp : Stamp} {version : MemoryVersionRow}
    (h : versionFor U candidate memoryUuid versionNumber operation stamp = .ok version) :
    version.memoryUuid = memoryUuid ∧ version.versionNumber = versionNumber ∧
      version.transactionUntil = none ∧ version.normalizedText = candidate.normalizedText := by
  obtain ⟨reason, -, h⟩ := Checks.bind_eq_ok.mp h
  rw [Checks.pure_eq_ok] at h
  subst h
  exact ⟨rfl, rfl, rfl, rfl⟩

lemma memoryFor_mem {candidate : MemoryCandidate} {session : SessionRow} {memory : MemoryRow}
    (h : store.memoryFor U candidate session = some memory) : memory ∈ store.memories.rows :=
  List.mem_of_find?_eq_some h

/-- A decision keeps the chains. -/
theorem VersionChains.consolidated (h : VersionChains store) {candidateUuid : String}
    {source : CandidateSource candidateUuid} {stamp : Stamp}
    {decision : MemoryConsolidationDecision}
    (hstep : Consolidated store U source stamp decision s') : VersionChains s' := by
  cases hstep with
  | decided => exact h
  | noted => exact h.withDecisions _
  | reinforced => exact h.withDecisions _
  | created _ _ _ _ hversion hinsert hinsert' =>
      obtain ⟨howner, hnumber, hopen, -⟩ := versionFor_eq_ok hversion
      exact (h.create rfl hinsert howner hnumber hopen hinsert').withDecisions _
  | @added _ _ _ memory version _ _ _ _ hmemory hcurrent hversion hinsert =>
      obtain ⟨howner, hnumber, hopen, -⟩ := versionFor_eq_ok hversion
      have hmem := memoryFor_mem hmemory
      obtain ⟨hnone, hempty⟩ := h.versionsOf_of_no_current hmem hcurrent
      have hclose : store.closeCurrent memory stamp.now = store := by rw [closeCurrent, hnone]
      refine (h.append hmem stamp.now howner ?_ hopen ?_ fun _ => rfl).withDecisions _
      · rw [hnumber, hempty, List.length_nil]
      · rwa [hclose]
  | superseded _ _ _ hmemory hcurrent hversion hinsert =>
      obtain ⟨howner, hnumber, hopen, -⟩ := versionFor_eq_ok hversion
      have hmem := memoryFor_mem hmemory
      refine (h.append hmem _ howner ?_ hopen hinsert fun _ => rfl).withDecisions _
      rw [hnumber, h.versionNumber_of_current hmem hcurrent]

/-- A version of a correction keeps the chains. -/
theorem VersionChains.createNewVersion (h : VersionChains store) {memory : MemoryRow}
    (hmemory : memory ∈ store.memories.rows) {normalizedText : Text} {operation actorType : String}
    {proposedValue : IJson} {stamp : Stamp}
    (hstep : store.createNewVersion U memory normalizedText operation actorType proposedValue
      stamp = .ok s') : VersionChains s' := by
  obtain ⟨current, version, t, hcurrent, -, howner, hnumber, hopen, -, hinsert, rfl⟩ :=
    createNewVersion_cases hstep
  refine h.append hmemory _ howner ?_ hopen hinsert fun _ => rfl
  rw [hnumber, h.versionNumber_of_current hmemory hcurrent]

/-- A quarantine keeps the chains. -/
theorem VersionChains.quarantine (h : VersionChains store) (records : List PrivacyRecord) :
    VersionChains (store.quarantine records) := by
  induction records generalizing store with
  | nil => exact h
  | cons record records ih =>
      refine ih ?_
      unfold quarantineRecord
      split
      · exact h.setStatus _ _
      · exact h

/-- An erased record keeps the chains. -/
lemma VersionChains.eraseRecord (h : VersionChains store) {requestUuid : String}
    {record : PrivacyRecord} (hstep : store.eraseRecord U requestUuid record = .ok s') :
    VersionChains s' := by
  unfold MemoryStore.eraseRecord at hstep
  split at hstep
  · obtain rfl := Except.ok.inj hstep
    exact h.setStatus _ _
  · obtain ⟨reason, -, hstep⟩ := Checks.bind_eq_ok.mp hstep
    obtain rfl := Checks.pure_eq_ok.mp hstep
    exact h.updateVersions (f := MemoryVersionRow.redact reason) _ (fun _ => rfl) (fun _ => rfl)
      (fun _ => rfl) fun _ => rfl
  · obtain rfl := Except.ok.inj hstep
    exact h

/-- An erasure keeps the chains. -/
theorem VersionChains.erase (h : VersionChains store) {requestUuid : String}
    {records : List PrivacyRecord} (hstep : store.erase U requestUuid records = .ok s') :
    VersionChains s' := by
  induction records generalizing store with
  | nil =>
      obtain rfl := Checks.pure_eq_ok.mp hstep
      exact h
  | cons record records ih =>
      rw [MemoryStore.erase, List.foldlM_cons] at hstep
      obtain ⟨t, ht, hstep⟩ := Checks.bind_eq_ok.mp hstep
      exact ih (h.eraseRecord ht) hstep

/-- **Every command keeps the chains.** -/
theorem VersionChains.perform (h : VersionChains store) {command : MemoryCommand}
    (hstep : store.perform U command = .ok s') : VersionChains s' := by
  cases command with
  | consolidate candidateUuid source stamp =>
      obtain ⟨⟨decision, t⟩, ht, rfl⟩ := Checks.map_eq_ok.mp hstep
      exact h.consolidated (consolidateCandidate_cases ht)
  | applyRequest request stamp =>
      rcases applyRequest_cases hstep with ⟨-, rfl | ⟨memoryUuid, status, -, rfl⟩⟩ |
        ⟨-, memory, text, hmemory, -, hversion⟩
      · exact h
      · exact h.setStatus memoryUuid status
      · exact h.createNewVersion hmemory hversion
  | undoRequest request actorType stamp =>
      obtain ⟨memory, text, value, hmemory, -, hversion⟩ := undoRequest_cases hstep
      exact h.createNewVersion hmemory hversion
  | quarantine records =>
      obtain rfl := Except.ok.inj hstep
      exact h.quarantine records
  | erase requestUuid records => exact h.erase hstep

lemma VersionChains.after (h : VersionChains store) (command : MemoryCommand) :
    VersionChains (store.after U command) := by
  unfold MemoryStore.after
  split
  case h_1 hstep => exact h.perform hstep
  case h_2 => exact h

lemma versionChains_run (commands : List MemoryCommand) : VersionChains (run U commands) := by
  unfold run
  induction commands using List.reverseRecOn with
  | nil => exact versionChains_empty
  | append_singleton commands command ih =>
      rw [List.foldl_append]
      exact ih.after command

/-! ### Every sequence of commands -/

/-- The versions of a memory are numbered `1, …, n`, its current version is the `n`-th, and it alone
is open. -/
structure Chained (store : MemoryStore) (memory : MemoryRow) (current : String) (n : ℕ) :
    Prop where
  numbers : ((store.versionsOf memory.memoryUuid).map MemoryVersionRow.versionNumber).Perm
    (List.range' 1 n)
  last : ∃ version ∈ store.versionsOf memory.memoryUuid,
    version.memoryVersionUuid = current ∧ version.versionNumber = n
  isOpen : ∀ version ∈ store.versionsOf memory.memoryUuid,
    version.transactionUntil = none ↔ version.memoryVersionUuid = current

/-- **The version chain.** At every point of every sequence of consolidations, corrections, undos
and erasures, the versions of a memory with a current version are numbered `1, …, n`, the current
version is the `n`-th, and it is the only one whose transaction time has no end. -/
theorem versions_chained (U : UnicodeData) (commands : List MemoryCommand) {memory : MemoryRow}
    (hmemory : memory ∈ (run U commands).memories.rows) {current : String}
    (hcurrent : memory.currentVersionUuid = some current) :
    ∃ n, Chained (run U commands) memory current n := by
  have hchains := versionChains_run (U := U) commands
  have hchain := hchains.chain memory hmemory
  obtain ⟨last, hlast, hname, hnumber⟩ := hchain.last current hcurrent
  refine ⟨_, hchain.numbers, ⟨last, hlast, hname, hnumber⟩, fun version hversion => ?_⟩
  rw [hchain.isOpen_iff version hversion]
  refine ⟨fun hnum => ?_, fun hname' => ?_⟩
  · rw [hchain.eq_of_number_eq hversion hlast (hnum.trans hnumber.symm), hname]
  · rw [(run U commands).versions.eq_of_key_eq (mem_versionsOf.mp hversion).1
      (mem_versionsOf.mp hlast).1 (hname'.trans hname.symm), hnumber]

/-- What the user said of a drink. -/
def drinkCandidate (candidateUuid text : String) : MemoryCandidate where
  candidateUuid := candidateUuid
  processingRunUuid := "run"
  textUnitUuid := "unit"
  candidateType := .preference
  subjectKey := "user"
  predicate := "drinks"
  normalizedText := text.toList
  sourceAuthority := .userExplicit
  explicitness := .explicit
  status := .readyForConsolidation

/-- The candidate with its evidence and its session. -/
def drinkSource (candidateUuid text : String) : CandidateSource candidateUuid where
  candidate := some (drinkCandidate candidateUuid text)
  evidence := [⟨"evidence", candidateUuid, "message", "unit", none, none, text.toList, 0,
    text.length⟩]
  session := some { sessionUuid := "session" }
  named := fun _ h => Option.some_inj.mp h ▸ rfl

/-- The user says that the memory is right. -/
def confirmDrink : MemoryCommand :=
  .applyRequest ⟨"r1", "m1", "confirm", .null, "user", "pending"⟩ ⟨"m2", "v2", 2⟩

/-- The user drinks tea, says that this is right, and then drinks coffee. -/
def drinkCommands : List MemoryCommand :=
  [.consolidate "c1" (drinkSource "c1" "tea") ⟨"m1", "v1", 1⟩,
   confirmDrink,
   .consolidate "c2" (drinkSource "c2" "coffee") ⟨"m3", "v3", 3⟩]

/-- The memory of the drink after these commands. -/
def drinkMemory : MemoryRow where
  memoryUuid := "m1"
  canonicalKey := "preference:user:drinks".toList
  memoryType := "preference"
  scopeType := "session"
  scopeUuid := "session"
  currentVersionUuid := "v3"

/-- The memory of the drink has three versions. -/
theorem versions_chained_drink :
    ∃ n, Chained (run basicLatin drinkCommands) drinkMemory "v3" n :=
  versions_chained basicLatin drinkCommands (by decide +kernel) rfl

end MemoryStore

end Memorist
