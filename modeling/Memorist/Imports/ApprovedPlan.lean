import Memorist.Imports.Commit
import Memorist.Imports.Steps

/-!
The plan that the commit of an import executes (`ImportService.reconstruct`, `dry_run`,
`commit_next_batch`).

* `dryRunReport`: what a dry run says of the staged conversations of a run;
* `PlanState`, `PlanStep`: the imports with their reports, and the calls on them in any order;
* `planEffect`: the statements of a commit, which finds its report as it was stored;
* `FollowsPlan`, `StagedSince`: what a commit may do, and that its report is out of date;
* `commit_followsPlan_iff`: the commits that keep to their reports;
* `commit_unlisted`: a commit of a conversation that its report does not list.
-/

namespace Memorist

open Fallible
open scoped List

/-! ### Reports -/

/-- What a dry run says of a conversation. -/
inductive DuplicateDecision where
  | new
  | alreadyMapped
  deriving DecidableEq

/-- An entry of the decisions of a dry run. -/
structure DryRunDecision where
  sourceConversationId : Option String
  conversationFingerprint : String
  decision : DuplicateDecision
  messageCount : ℕ
  deriving DecidableEq

/-- The report of a dry run. -/
structure DryRunReport where
  processingMode : ProcessingMode
  conversationCount : ℕ
  messageCount : ℕ
  eligibleProcessingMessageCount : ℕ
  ineligibleProcessingMessageCount : ℕ
  duplicateConversationCount : ℕ
  duplicateMessageCount : ℕ
  decisions : List DryRunDecision
  expectedNewSessions : ℕ
  expectedNewMessages : ℕ
  newMessagesRequiringProcessing : ℕ
  deriving DecidableEq

/-- A row of `import_dry_run_reports`. -/
structure StoredPlan where
  report : DryRunReport
  planFingerprint : String
  deriving DecidableEq

/-- The hashes of conversations and of reports. -/
structure PlanHashes where
  conversationFingerprint : ImportedConversation → String
  planFingerprint : DryRunReport → String

/-- What an entry and a conversation are known by. -/
abbrev PlanListing : Type := Option String × String

/-- The listing of an entry. -/
def DryRunDecision.listing (entry : DryRunDecision) : PlanListing :=
  (entry.sourceConversationId, entry.conversationFingerprint)

/-- The listing of a staged conversation. -/
def ImportedConversationRow.listing (row : ImportedConversationRow) : PlanListing :=
  (row.conversation.sourceConversationId, row.conversationFingerprint)

/-- The listing of a conversation. -/
def PlanHashes.listing (H : PlanHashes) (conversation : ImportedConversation) : PlanListing :=
  (conversation.sourceConversationId, H.conversationFingerprint conversation)

/-- `_duplicate_decision`. -/
def ImportStore.duplicateDecision (s : ImportStore) (row : ImportedConversationRow) :
    DuplicateDecision :=
  if (s.mappings.get? row.mappingKey).isSome then .alreadyMapped else .new

/-- The entry of a staged conversation. -/
def ImportStore.dryRunDecision (s : ImportStore) (row : ImportedConversationRow) :
    DryRunDecision where
  sourceConversationId := row.conversation.sourceConversationId
  conversationFingerprint := row.conversationFingerprint
  decision := s.duplicateDecision row
  messageCount := row.conversation.messages.length

/-- The report of a dry run on staged conversations. -/
def dryRunReport (P : ImportPlatform) (s : ImportStore) (mode : ProcessingMode)
    (rows : List ImportedConversationRow) : DryRunReport :=
  let fresh := rows.filter fun row => s.duplicateDecision row = .new
  let mapped := rows.filter fun row => s.duplicateDecision row ≠ .new
  let messages := fun rows : List ImportedConversationRow =>
    rows.flatMap fun row => row.conversation.messages
  let isEligible := fun message => (eligibility P message).isNone
  { processingMode := mode
    conversationCount := rows.length
    messageCount := (messages rows).length
    eligibleProcessingMessageCount := (messages rows).countP isEligible
    ineligibleProcessingMessageCount := (messages rows).countP fun message => !isEligible message
    duplicateConversationCount := mapped.length
    duplicateMessageCount := (messages mapped).length
    decisions := rows.map s.dryRunDecision
    expectedNewSessions := fresh.length
    expectedNewMessages := (messages fresh).length
    newMessagesRequiringProcessing := (messages fresh).countP isEligible }

/-! ### Calls -/

/-- The imports with the reports of their runs. -/
structure PlanState where
  store : ImportStore
  reports : String → Option StoredPlan := fun _ => none

section

variable (P : ImportPlatform) (H : PlanHashes)

/-- `_upsert_imported_conversation`, under the name that the row gets: a conversation of the run
that is staged already is left as it is. -/
def ImportStore.stage (s : ImportStore) (run : String) (staged : String × ImportedConversation) :
    ImportStore :=
  let row : ImportedConversationRow :=
    { importedConversationUuid := staged.1
      importRunUuid := run
      conversationFingerprint := H.conversationFingerprint staged.2
      conversation := staged.2 }
  if (s.conversationsOf run).any fun other =>
      other.conversationFingerprint = row.conversationFingerprint then s
  else { s with conversations := s.conversations.insert row }

/-- The report of a run approves its commit in a mode. -/
def PlanState.Approves (s : PlanState) (run : String) (mode : ProcessingMode) : Prop :=
  ∃ plan ∈ s.reports run, plan.planFingerprint = H.planFingerprint plan.report ∧
    plan.report.processingMode = mode

/-- What a statement of a commit does, by whose plans were approved. -/
def planEffect (approves : String → ProcessingMode → Prop) (s : ImportStore) (e : ImportEffect)
    (response : e.Response) (t : ImportStore) : Prop :=
  importEffect P.unicode s e response t ∧
    ∀ run mode, e = .checkPlan run mode → response.isOk → approves run mode

/-- The calls on imports. -/
inductive PlanCall where
  | reconstruct (run : String) (conversations : List ImportedConversation)
  | dryRun (run : String) (mode : ProcessingMode)
  | commitNextBatch (run : String) (mode : ProcessingMode) (batchSize maxWriteQueueDepth : ℕ)
  | other (e : ImportEffect)

/-- What a call does, to its end or to where it stops; anything else is done a statement at a
time. -/
inductive PlanStep : PlanState → PlanCall → PlanState → Prop
  | reconstruct {s : PlanState} {run : String} (staged : List (String × ImportedConversation))
      {store : ImportStore} (hrun : (s.store.runs.get? run).isSome)
      (hstore : let t := staged.foldl (ImportStore.stage H · run ·) s.store
        store = t ∨ store = t.setRunStatus run .reconstructed) :
      PlanStep s (.reconstruct run (staged.map Prod.snd)) { s with store }
  | dryRun {s : PlanState} {run : String} {mode : ProcessingMode}
      {rows : List ImportedConversationRow} {report : DryRunReport} {store : ImportStore}
      (hrun : (s.store.runs.get? run).isSome) (hrows : rows.Perm (s.store.conversationsOf run))
      (hreport : report = dryRunReport P s.store mode rows)
      (hstore : store = s.store ∨ store = s.store.setRunStatus run .dryRun) :
      PlanStep s (.dryRun run mode)
        { store
          reports := Function.update s.reports run (some ⟨report, H.planFingerprint report⟩) }
  | commitNextBatch {s : PlanState} {run : String} {mode : ProcessingMode}
      {batchSize maxWriteQueueDepth : ℕ} {es : List (Performed ImportEffect.Response)}
      {p : ImportProgram Unit} {store : ImportStore}
      (h : Prog.Exec (planEffect P (s.Approves H)) s.store
        (commitNextBatch P run mode batchSize maxWriteQueueDepth) es p store) :
      PlanStep s (.commitNextBatch run mode batchSize maxWriteQueueDepth) { s with store }
  | other {s : PlanState} {e : ImportEffect} {response : e.Response} {store : ImportStore}
      (h : importEffect P.unicode s.store e response store) :
      PlanStep s (.other e) { s with store }

/-! ### Plans -/

/-- The conversations that are imported into sessions of their own. -/
def sessionsCreated (es : List (Performed ImportEffect.Response)) : List ImportedConversation :=
  es.filterMap fun
    | ⟨.createSession conversation, .ok _⟩ => some conversation
    | _ => none

/-- The statements of a commit that write. -/
def ImportEffect.isWrite : ImportEffect → Bool
  | checkPlan _ _ | getRun _ | getControl _ | writeQueueDepth | pendingConversations _ _
  | terminalCounts _ | findMapping _ | findMappedSession _ | findMappedMessage _ _
  | findProcessed _ | findActive _ | findStatus _ | statusReport _ | countStatuses _ => false
  | _ => true

/-- The conversations of a run that its report lists as new. -/
def PlanState.listedNew (s : PlanState) (run : String) : List PlanListing :=
  ((s.reports run).elim [] fun plan => plan.report.decisions.filter (·.decision = .new)).map
    DryRunDecision.listing

/-- Conversations were staged that the report of the run does not list. -/
def PlanState.StagedSince (s : PlanState) (run : String) : Prop :=
  ∃ plan ∈ s.reports run, ¬(plan.report.decisions.map DryRunDecision.listing).Perm
    ((s.store.conversationsOf run).map ImportedConversationRow.listing)

/-- A commit imports as new what its report lists as new, and writes nothing once conversations were
staged after the report. -/
structure FollowsPlan (s : PlanState) (run : String)
    (es : List (Performed ImportEffect.Response)) : Prop where
  created : ((sessionsCreated es).map H.listing).Subperm (s.listedNew run)
  refused : s.StagedSince run → ∀ x ∈ es, x.1.isWrite = false

/-- The checks of a commit let it go on: its report approves it, and its run is there and neither
cancelled nor paused. -/
def PlanState.Passes (s : PlanState) (run : String) (mode : ProcessingMode) : Prop :=
  s.Approves H run mode ∧
    ∃ status ∈ s.store.runStatus run, status ≠ .cancelled ∧ status ≠ .paused

end

/-! ### Sessions that a commit creates -/

/-- An effect that creates no session. -/
def ImportEffect.NoSession : ImportEffect → Prop
  | createSession _ => False
  | _ => True

section

variable (P : ImportPlatform) (run : String) (mode : ProcessingMode)
  (conversation : ImportedConversation) (sessionUuid : String)

lemma only_upsertStatus (row : StatusRow) :
    Prog.Only ImportEffect.NoSession (upsertStatus row) := by
  refine only_ask trivial fun
    | some _ => only_done _
    | none => only_ask trivial fun _ => only_done _

lemma only_schedule (message : ImportedMessageNode) (messageUuid : String) :
    Prog.Only ImportEffect.NoSession
      (schedule P run conversation message sessionUuid messageUuid mode) := by
  unfold schedule
  dsimp only
  split_ifs
  · exact only_done _
  · split
    · exact only_andThen (only_upsertStatus _) fun _ => only_done _
    · refine only_ask trivial fun
        | some _ => only_andThen (only_upsertStatus _) fun _ => only_done _
        | none => only_ask trivial fun
            | some _ => only_andThen (only_upsertStatus _) fun _ => only_done _
            | none => only_ask trivial fun _ =>
                only_andThen (only_upsertStatus _) fun _ => only_done _

lemma only_addMapping (row : ImportMappingRow) :
    Prog.Only ImportEffect.NoSession (addMapping row) := by
  refine only_ask trivial fun
    | some _ => only_done _
    | none => only_ask trivial fun _ => only_done _

lemma only_commitMessage (mappingRepair : Bool) (message : ImportedMessageNode) :
    Prog.Only ImportEffect.NoSession
      (commitMessage P run conversation sessionUuid mode mappingRepair message) :=
  only_ask trivial fun _ => only_andThen (only_addMapping _) fun _ =>
    only_andThen (only_schedule P run mode conversation sessionUuid message _) fun _ => only_done _

lemma only_commitMessages (messages : List ImportedMessageNode) :
    Prog.Only ImportEffect.NoSession
      (commitMessages P run conversation sessionUuid mode messages) := by
  induction messages with
  | nil => exact only_done _
  | cons message messages ih =>
      exact only_andThen (only_commitMessage P run mode conversation sessionUuid false message)
        fun _ => only_andThen ih fun _ => only_done _

lemma only_repairMessages (messages : List ImportedMessageNode) :
    Prog.Only ImportEffect.NoSession
      (repairMessages P run conversation sessionUuid mode messages) := by
  induction messages with
  | nil => exact only_done _
  | cons message messages ih =>
      have hcreate := only_andThen (f := fun _ => Fallible.pure ())
        (only_commitMessage P run mode conversation sessionUuid true message) fun _ => only_done _
      refine only_andThen (only_ask trivial fun
        | some (_, some _) => only_schedule P run mode conversation sessionUuid message _
        | some (_, none) => hcreate
        | none => hcreate) fun _ => ih

lemma only_recordDuplicateProcessing :
    Prog.Only ImportEffect.NoSession (recordDuplicateProcessing P run conversation mode) := by
  refine only_ask trivial fun
    | none => only_done _
    | some sessionUuid => only_repairMessages P run mode conversation sessionUuid _

lemma only_finalizeIfTerminal : Prog.Only ImportEffect.NoSession (finalizeIfTerminal run) := by
  refine only_ask trivial fun rows => only_ask trivial fun control => ?_
  split_ifs
  · exact only_ask trivial fun _ => only_done _
  · exact only_ask trivial fun _ => only_done _
  · split
    · exact only_done _
    · exact only_ask trivial fun _ => only_done _

lemma only_finalizeCommitIfComplete :
    Prog.Only ImportEffect.NoSession (finalizeCommitIfComplete run mode) := by
  refine only_ask trivial fun counts => ?_
  split_ifs
  · exact only_ask trivial fun _ => only_done _
  · exact only_ask trivial fun _ => only_andThen (only_finalizeIfTerminal run) fun _ => only_done _
  · exact only_ask trivial fun _ => only_done _

/-- A conversation is imported into one session, and nothing creates another. -/
lemma commitNew_eq_call (row : ImportedConversationRow) :
    ∃ k, commitNew P run row mode = .call (.createSession row.conversation) k ∧
      ∀ response, Prog.Only ImportEffect.NoSession (k response) := by
  refine ⟨_, rfl, fun response => Prog.Only.bind (Prog.Only.bind ?_ fun
    | .ok (_, _, none) => only_ask trivial fun _ => only_done _
    | .ok (_, _, some _) => only_done _
    | .error _ => only_done _) fun
    | .ok none => only_done _
    | .ok (some _) => only_ask trivial fun _ => only_done _
    | .error _ => only_ask trivial fun _ => only_done _⟩
  cases response with
  | error error => exact only_done _
  | ok sessionUuid =>
      exact only_andThen (only_addMapping _) fun _ =>
        only_andThen (only_commitMessages P run mode row.conversation sessionUuid _) fun _ =>
          only_ask trivial fun _ => only_done _

end

section

variable {P : ImportPlatform} {H : PlanHashes} {approves : String → ProcessingMode → Prop}
variable {run : String} {mode : ProcessingMode} {s₀ s t : ImportStore} {e : ImportEffect}
variable {response : e.Response} {es : List (Performed ImportEffect.Response)}

/-- What is mapped stays mapped. -/
def ImportStore.MapsMore (s t : ImportStore) : Prop :=
  ∀ key, (s.mappings.get? key).isSome → (t.mappings.get? key).isSome

lemma ImportStore.MapsMore.trans {u : ImportStore} (h : s.MapsMore t) (h' : t.MapsMore u) :
    s.MapsMore u := fun key hkey => h' key (h key hkey)

lemma ImportStore.mapsMore_of_eq (h : t.mappings = s.mappings) : s.MapsMore t :=
  fun key hkey => by rwa [h]

/-- No effect takes a mapping away. -/
lemma importEffect_mapsMore (h : importEffect P.unicode s e response t) : s.MapsMore t := by
  cases response with
  | error error =>
      obtain rfl := h.1
      exact ImportStore.mapsMore_of_eq rfl
  | ok answer =>
      cases e with
      | insertMapping row =>
          obtain ⟨-, rfl⟩ := h
          intro key hkey
          obtain ⟨row', hrow'⟩ := Option.isSome_iff_exists.mp hkey
          exact Option.isSome_iff_exists.mpr ⟨row', Table.get?_insert_of_some hrow' row⟩
      | requeueFailed run names =>
          obtain ⟨statuses, -, rfl⟩ := Option.map_eq_some_iff.mp h
          dsimp only
          split_ifs <;> exact ImportStore.mapsMore_of_eq rfl
      | publish name attempt publication =>
          obtain ⟨now, finished, -, rfl⟩ := h
          split_ifs <;> exact ImportStore.mapsMore_of_eq rfl
      | insertStatus row =>
          obtain ⟨name, createdAt, statuses, -, -, -, rfl⟩ := h
          exact ImportStore.mapsMore_of_eq rfl
      | claimRow name workerId leaseSeconds =>
          obtain ⟨attempt, now, -, -, rfl⟩ := h
          exact ImportStore.mapsMore_of_eq rfl
      | renewLease name attempt leaseSeconds =>
          obtain ⟨now, -, rfl⟩ := h
          exact ImportStore.mapsMore_of_eq rfl
      | recoverExpired =>
          obtain ⟨now, rfl⟩ := h
          exact ImportStore.mapsMore_of_eq rfl
      | _ =>
          first
            | obtain rfl := h
              exact ImportStore.mapsMore_of_eq rfl
            | obtain ⟨-, rfl⟩ := h
              exact ImportStore.mapsMore_of_eq rfl
            | obtain ⟨-, -, rfl⟩ := h
              exact ImportStore.mapsMore_of_eq rfl

lemma sessionsCreated_append (fs : List (Performed ImportEffect.Response)) :
    sessionsCreated (es ++ fs) = sessionsCreated es ++ sessionsCreated fs :=
  List.filterMap_append

lemma sessionsCreated_noSession (h : e.NoSession) :
    sessionsCreated (es ++ [⟨e, response⟩]) = sessionsCreated es := by
  rw [sessionsCreated_append]
  cases e with
  | createSession conversation => exact absurd h id
  | _ => exact List.append_nil _

/-- The conversations of rows that are not mapped. -/
def ImportStore.unmapped (s : ImportStore) (rows : List ImportedConversationRow) :
    List ImportedConversation :=
  (rows.filter fun row => s.duplicateDecision row = .new).map ImportedConversationRow.conversation

/-- Since some were imported, conversations of a list were, in its order. -/
structure Imported (s₀ : ImportStore) (cs bound : List ImportedConversation)
    (es : List (Performed ImportEffect.Response)) (s : ImportStore) : Prop where
  maps : s₀.MapsMore s
  created : ∃ new, sessionsCreated es = cs ++ new ∧ new.Sublist bound

variable {cs bound bound' : List ImportedConversation}

lemma Imported.mono (h : Imported s₀ cs bound es s) (hbound : bound.Sublist bound') :
    Imported s₀ cs bound' es s :=
  ⟨h.maps, h.created.imp fun _ ⟨heq, hnew⟩ => ⟨heq, hnew.trans hbound⟩⟩

/-- An effect that creates no session imports nothing. -/
lemma Imported.step (h : Imported s₀ cs bound es s) (hno : e.NoSession)
    (heffect : planEffect P approves s e response t) :
    Imported s₀ cs bound (es ++ [⟨e, response⟩]) t :=
  ⟨h.maps.trans (importEffect_mapsMore heffect.1), by rw [sessionsCreated_noSession hno]; exact
    h.created⟩

lemma safe_only {α : Type} {p : ImportProgram α} (hp : Prog.Only ImportEffect.NoSession p)
    (h : Imported s₀ cs bound es s) :
    Prog.Safe (planEffect P approves) (Imported s₀ cs bound)
      (fun es _ t => Imported s₀ cs bound es t) es s p :=
  Prog.Safe.of_only hp (fun hno h heffect => h.step hno heffect) h

/-- A conversation is imported once at most. -/
lemma safe_commitNew (row : ImportedConversationRow) (h : Imported s₀ cs [] es s) :
    Prog.Safe (planEffect P approves) (Imported s₀ cs [row.conversation])
      (fun es _ t => Imported s₀ cs [row.conversation] es t) es s (commitNew P run row mode) := by
  obtain ⟨k, heq, honly⟩ := commitNew_eq_call P run mode row
  rw [heq]
  refine ⟨h.mono (List.nil_sublist _), fun response t heffect => safe_only (honly response) ?_⟩
  obtain ⟨new, heq, hnew⟩ := h.created
  obtain rfl := List.sublist_nil.mp hnew
  refine ⟨h.maps.trans (importEffect_mapsMore heffect.1), ?_⟩
  rw [sessionsCreated_append, heq, List.append_nil]
  cases response with
  | ok sessionUuid => exact ⟨[row.conversation], rfl, .refl _⟩
  | error error => exact ⟨[], rfl, List.nil_sublist _⟩

/-- What is imported next comes after what was imported. -/
lemma Imported.append (hcreated : ∃ new, sessionsCreated es = cs ++ new ∧ new.Sublist bound)
    {fs : List (Performed ImportEffect.Response)}
    (h : Imported s₀ (sessionsCreated es) bound' fs s) : Imported s₀ cs (bound ++ bound') fs s := by
  obtain ⟨new, heq, hnew⟩ := hcreated
  obtain ⟨later, heq', hlater⟩ := h.created
  exact ⟨h.maps, new ++ later, by rw [heq', heq, List.append_assoc], hnew.append hlater⟩

/-- A batch imports conversations of its rows that were not mapped when it began. -/
lemma safe_commitRows (maxWriteQueueDepth : ℕ) (rows : List ImportedConversationRow)
    (h : Imported s₀ cs [] es s) :
    Prog.Safe (planEffect P approves) (Imported s₀ cs (s₀.unmapped rows))
      (fun es _ t => Imported s₀ cs (s₀.unmapped rows) es t) es s
      (commitRows P run mode maxWriteQueueDepth rows) := by
  induction rows generalizing cs es s with
  | nil => exact h
  | cons row rows ih =>
      have hnil : ∀ {es s}, Imported s₀ cs [] es s → Imported s₀ cs (s₀.unmapped (row :: rows)) es s :=
        fun h => h.mono (List.nil_sublist _)
      have hrest : (s₀.unmapped rows).Sublist (s₀.unmapped (row :: rows)) :=
        ((List.sublist_cons_self row rows).filter _).map _
      refine safe_ask.mpr ⟨hnil h, fun control s₁ he₁ => ?_, fun error t he =>
        hnil (h.step trivial he)⟩
      have h₁ := h.step (e := .getControl run) trivial he₁
      split_ifs
      · exact safe_only (only_ask trivial fun _ => only_done _) (hnil h₁)
      refine safe_ask.mpr ⟨hnil h₁, fun depth s₂ he₂ => ?_, fun error t he =>
        hnil (h₁.step trivial he)⟩
      have h₂ := h₁.step (e := .writeQueueDepth) trivial he₂
      split_ifs
      · exact safe_only (only_ask trivial fun _ => only_ask trivial fun _ => only_done _) (hnil h₂)
      refine safe_ask.mpr ⟨hnil h₂, fun mapping s₃ he₃ => ?_, fun error t he =>
        hnil (h₂.step trivial he)⟩
      have h₃ := h₂.step (e := .findMapping row.mappingKey) trivial he₃
      rcases mapping with _ | mapping
      · -- the row is not mapped now, and was not before
        have hnew : s₀.duplicateDecision row = .new := by
          rw [ImportStore.duplicateDecision, if_neg fun hmapped => ?_]
          have hnone : none = s₂.mappings.get? row.mappingKey := he₃.1.1
          have hsome := h₂.maps _ hmapped
          rw [← hnone] at hsome
          cases hsome
        have hrows : s₀.unmapped (row :: rows) = [row.conversation] ++ s₀.unmapped rows := by
          rw [ImportStore.unmapped, List.filter_cons_of_pos (by simpa using hnew)]
          rfl
        rw [hrows]
        have hcommit : Prog.Safe (planEffect P approves) (Imported s₀ cs [row.conversation])
            (fun es _ t => Imported s₀ cs [row.conversation] es t) _ s₃
            (commitNew P run row mode) := safe_commitNew row h₃
        refine safe_andThen (hcommit.mono (fun _ _ h => h.mono (List.sublist_append_left _ _))
          fun es answer t hcreated => ⟨fun _ _ => ?_, fun error _ =>
            hcreated.mono (List.sublist_append_left _ _)⟩)
        have hstart : Imported s₀ (sessionsCreated es) [] es t :=
          ⟨hcreated.maps, [], (List.append_nil _).symm, .refl _⟩
        exact (ih hstart).mono (fun _ _ h => .append hcreated.created h)
          fun _ _ _ h => .append hcreated.created h
      · refine safe_ask.mpr ⟨hnil h₃, fun _ s₄ he₄ => ?_, fun error t he =>
          hnil (h₃.step trivial he)⟩
        have h₄ := h₃.step (e := .markConversation run row .skipped none []) trivial he₄
        refine safe_andThen (((safe_only (only_recordDuplicateProcessing P run mode
          row.conversation) h₄).mono (fun _ _ => hnil) fun _ _ _ h => h).imp
            fun es answer t h => ⟨fun _ _ => ?_, fun error _ => hnil h⟩)
        exact (ih h).mono (fun _ _ h => h.mono hrest) fun _ _ _ h => h.mono hrest

/-- What a commit may import: conversations of the run that were not mapped when it began. -/
def Within (s₀ : ImportStore) (run : String) (es : List (Performed ImportEffect.Response)) : Prop :=
  ∃ batch, batch.Subperm (s₀.conversationsOf run) ∧
    (sessionsCreated es).Sublist (s₀.unmapped batch)

lemma Imported.within {batch : List ImportedConversationRow}
    (hbatch : batch.Subperm (s₀.conversationsOf run))
    (h : Imported s₀ [] (s₀.unmapped batch) es s) : Within s₀ run es := by
  obtain ⟨new, heq, hnew⟩ := h.created
  exact ⟨batch, hbatch, by rwa [heq, List.nil_append]⟩

/-- A commit imports conversations of the run that were not mapped when it began. -/
lemma safe_commitNextBatch (s₀ : ImportStore) (batchSize maxWriteQueueDepth : ℕ) :
    Prog.Safe (planEffect P approves) (fun es _ => Within s₀ run es) (fun es _ _ => Within s₀ run es)
      [] s₀ (commitNextBatch P run mode batchSize maxWriteQueueDepth) := by
  have hempty : ([] : List ImportedConversationRow).Subperm (s₀.conversationsOf run) :=
    List.nil_subperm
  have hnil : ∀ {es s}, Imported s₀ [] [] es s → Within s₀ run es := fun h => h.within hempty
  have hfinish : ∀ {es s} {p : ImportProgram Unit}, Imported s₀ [] [] es s →
      Prog.Only ImportEffect.NoSession p → Prog.Safe (planEffect P approves)
        (fun es _ => Within s₀ run es) (fun es _ _ => Within s₀ run es) es s p := fun h hp =>
    (safe_only hp h).mono (fun _ _ => hnil) fun _ _ _ => hnil
  have h₀ : Imported s₀ [] [] [] s₀ := ⟨fun _ h => h, [], rfl, .refl _⟩
  refine safe_ask.mpr ⟨hnil h₀, fun _ s₁ he₁ => ?_, fun error t he => hnil (h₀.step trivial he)⟩
  have h₁ := h₀.step (e := .checkPlan run mode) trivial he₁
  refine safe_ask.mpr ⟨hnil h₁, fun status s₂ he₂ => ?_, fun error t he =>
    hnil (h₁.step trivial he)⟩
  have h₂ := h₁.step (e := .getRun run) trivial he₂
  rcases status with _ | status
  · exact hnil h₂
  dsimp only
  split_ifs
  · exact hnil h₂
  refine safe_ask.mpr ⟨hnil h₂, fun _ s₃ he₃ => ?_, fun error t he => hnil (h₂.step trivial he)⟩
  have h₃ := h₂.step (e := .setRunStatus run .committing) trivial he₃
  refine safe_ask.mpr ⟨hnil h₃, fun _ s₄ he₄ => ?_, fun error t he => hnil (h₃.step trivial he)⟩
  have h₄ := h₃.step (e := .resolveTarget run) trivial he₄
  refine safe_ask.mpr ⟨hnil h₄, fun rows s₅ he₅ => ?_, fun error t he => hnil (h₄.step trivial he)⟩
  have h₅ := h₄.step (e := .pendingConversations run batchSize) trivial he₅
  have hconversations : s₄.conversations = s₀.conversations := by
    obtain rfl : s₁ = s₀ := he₁.1
    obtain rfl : s₂ = s₁ := he₂.1.2
    obtain rfl : s₃ = s₂.setRunStatus run .committing := he₃.1
    obtain rfl : s₄ = s₂.setRunStatus run .committing := he₄.1
    rfl
  have hbatch : rows.Subperm (s₀.conversationsOf run) := by
    have hpending : (s₄.pendingOf run).Sublist (s₀.conversationsOf run) := by
      rw [ImportStore.pendingOf, ImportStore.conversationsOf, hconversations]
      exact List.filter_sublist
    exact he₅.1.1.trans hpending.subperm
  split_ifs
  · exact hfinish h₅ (only_finalizeCommitIfComplete run mode)
  · refine safe_andThen ((safe_commitRows maxWriteQueueDepth rows h₅).mono
      (fun _ _ h => h.within hbatch) fun es answer t h => ⟨fun stopped _ => ?_, fun error _ =>
        h.within hbatch⟩)
    refine (safe_only ?_ h).mono (fun _ _ h => h.within hbatch) fun _ _ _ h => h.within hbatch
    split_ifs
    · exact only_done _
    · exact only_ask trivial fun _ => only_finalizeCommitIfComplete run mode

/-! ### Reports and what was staged since -/

/-- A row as it was staged. -/
def ImportedConversationRow.asStaged (row : ImportedConversationRow) : ImportedConversationRow :=
  { row with commitStatus := .pending, targetSessionUuid := none }

/-- A row has the fingerprint of its conversation. -/
def PlanHashes.Fits (H : PlanHashes) (row : ImportedConversationRow) : Prop :=
  row.conversationFingerprint = H.conversationFingerprint row.conversation

/-- Rows were staged into a run, none was changed, and what was mapped is mapped. -/
structure ImportStore.Grows (H : PlanHashes) (run : String) (s t : ImportStore) : Prop where
  staged : ∃ added, (t.conversationsOf run).map ImportedConversationRow.asStaged =
    (s.conversationsOf run).map ImportedConversationRow.asStaged ++ added ∧ ∀ row ∈ added, H.Fits row
  maps : s.MapsMore t

lemma ImportStore.grows_of_eq
    (h : (t.conversationsOf run).map ImportedConversationRow.asStaged =
      (s.conversationsOf run).map ImportedConversationRow.asStaged) (hmaps : s.MapsMore t) :
    s.Grows H run t :=
  ⟨⟨[], h.trans (List.append_nil _).symm, fun _ h => absurd h List.not_mem_nil⟩, hmaps⟩

lemma ImportStore.Grows.trans {u : ImportStore} (h : s.Grows H run t) (h' : t.Grows H run u) :
    s.Grows H run u := by
  obtain ⟨added, heq, hadded⟩ := h.staged
  obtain ⟨later, heq', hlater⟩ := h'.staged
  refine ⟨⟨added ++ later, by rw [heq', heq, List.append_assoc], fun row hrow => ?_⟩,
    h.maps.trans h'.maps⟩
  exact (List.mem_append.mp hrow).elim (hadded row) (hlater row)

/-- The rows of a run keep their fingerprints. -/
lemma ImportStore.Grows.fits (h : s.Grows H run t) (hfits : ∀ row ∈ s.conversationsOf run, H.Fits row) :
    ∀ row ∈ t.conversationsOf run, H.Fits row := by
  obtain ⟨added, heq, hadded⟩ := h.staged
  intro row hrow
  have hmem : row.asStaged ∈ (s.conversationsOf run).map ImportedConversationRow.asStaged ++ added :=
    heq ▸ List.mem_map_of_mem hrow
  rcases List.mem_append.mp hmem with hold | hnew
  · obtain ⟨row', hrow', hsame⟩ := List.mem_map.mp hold
    have hfits' : H.Fits row'.asStaged := hfits row' hrow'
    rw [hsame] at hfits'
    exact hfits'
  · exact hadded row.asStaged hnew

/-- What marks a conversation leaves it as it was staged. -/
lemma conversationsOf_markConversation {run' uuid : String} {status : CommitStatus}
    {sessionUuid : Option String} {links : List ParentLink} :
    ((s.markConversation run' uuid status sessionUuid links).conversationsOf run).map
        ImportedConversationRow.asStaged =
      (s.conversationsOf run).map ImportedConversationRow.asStaged := by
  let mark : ImportedConversationRow → ImportedConversationRow := fun row =>
    if decide (row.importRunUuid = run') && decide (row.importedConversationUuid = uuid) then
      row.marked status sessionUuid else row
  have hmark : ∀ row, (mark row).importRunUuid = row.importRunUuid ∧
      (mark row).asStaged = row.asStaged := by
    intro row
    dsimp only [mark]
    split_ifs <;> exact ⟨rfl, rfl⟩
  have hrows : (s.markConversation run' uuid status sessionUuid links).conversations.rows =
      s.conversations.rows.map mark := rfl
  have hrun : (fun row : ImportedConversationRow => decide (row.importRunUuid = run)) ∘ mark =
      fun row => decide (row.importRunUuid = run) := by
    funext row
    rw [Function.comp_apply, (hmark row).1]
  rw [ImportStore.conversationsOf, ImportStore.conversationsOf, hrows, List.filter_map, hrun,
    List.map_map]
  exact List.map_congr_left fun row _ => (hmark row).2

/-- An effect stages nothing. -/
lemma importEffect_grows (h : importEffect P.unicode s e response t) : s.Grows H run t := by
  refine ImportStore.grows_of_eq ?_ (importEffect_mapsMore h)
  rcases (importEffect_change h).conversations_eq with
    ⟨run', row, status, sessionUuid, links, -, heq⟩ | heq
  · rw [← @conversationsOf_markConversation run s run' row.importedConversationUuid status
      sessionUuid links, ImportStore.conversationsOf, heq, ← ImportStore.conversationsOf]
  · rw [ImportStore.conversationsOf, heq, ImportStore.conversationsOf]

/-- A conversation is staged after those that are staged. -/
lemma stage_grows (run' : String) (staged : String × ImportedConversation) :
    s.Grows H run (s.stage H run' staged) := by
  unfold ImportStore.stage
  dsimp only
  split_ifs
  · exact ImportStore.grows_of_eq rfl fun _ h => h
  let row : ImportedConversationRow :=
    { importedConversationUuid := staged.1
      importRunUuid := run'
      conversationFingerprint := H.conversationFingerprint staged.2
      conversation := staged.2 }
  rcases hget : s.conversations.get? staged.1 with _ | other
  · refine ⟨⟨([row].filter fun row => row.importRunUuid = run).map
      ImportedConversationRow.asStaged, ?_, ?_⟩, fun _ h => h⟩
    · have hrows : (s.conversations.insert row).rows = s.conversations.rows ++ [row] :=
        Table.rows_insert hget
      rw [ImportStore.conversationsOf, ImportStore.conversationsOf, ← List.map_append,
        ← List.filter_append, ← hrows]
    · intro row' hrow'
      obtain ⟨row'', hrow'', rfl⟩ := List.mem_map.mp hrow'
      obtain rfl := List.mem_singleton.mp (List.mem_of_mem_filter hrow'')
      exact rfl
  · have hkept : s.conversations.insert row = s.conversations := by
      obtain ⟨hother, hkey⟩ := Table.get?_eq_some.mp hget
      have hmem : row.importedConversationUuid ∈
          s.conversations.rows.map ImportedConversationRow.importedConversationUuid :=
        List.mem_map.mpr ⟨other, hother, hkey⟩
      rw [Table.insert, dif_pos hmem]
    exact ImportStore.grows_of_eq (by rw [hkept]) fun _ h => h

/-- The rows that are staged by a list. -/
lemma foldl_stage_grows (run' : String) (staged : List (String × ImportedConversation)) :
    s.Grows H run (staged.foldl (ImportStore.stage H · run' ·) s) := by
  induction staged generalizing s with
  | nil => exact ImportStore.grows_of_eq rfl fun _ h => h
  | cons first staged ih => exact (stage_grows run' first).trans ih

/-! ### Commits -/

/-- The rows of a run have their fingerprints, and the report of a run lists what was staged in it at
some time. -/
structure PlanInv (P : ImportPlatform) (H : PlanHashes) (s : PlanState) : Prop where
  fits : ∀ run, ∀ row ∈ s.store.conversationsOf run, H.Fits row
  reported : ∀ run, ∀ plan ∈ s.reports run, ∃ before rows mode,
    rows.Perm (ImportStore.conversationsOf before run) ∧
      plan.report = dryRunReport P before mode rows ∧ before.Grows H run s.store

/-- What grows keeps the invariant. -/
lemma PlanInv.grows {s : PlanState} {store : ImportStore} (h : PlanInv P H s)
    (hgrows : ∀ run, s.store.Grows H run store) : PlanInv P H { s with store } where
  fits run := (hgrows run).fits (h.fits run)
  reported run plan hplan := by
    obtain ⟨before, rows, mode, hrows, hreport, hbefore⟩ := h.reported run plan hplan
    exact ⟨before, rows, mode, hrows, hreport, hbefore.trans (hgrows run)⟩

/-- Each call keeps the invariant. -/
lemma PlanInv.step {s t : PlanState} {call : PlanCall} (h : PlanInv P H s)
    (hstep : PlanStep P H s call t) : PlanInv P H t := by
  cases hstep with
  | @reconstruct run staged store _ hstore =>
      refine h.grows fun run' => ?_
      have hstaged : s.store.Grows H run' (staged.foldl (ImportStore.stage H · run ·) s.store) :=
        foldl_stage_grows run staged
      rcases hstore with rfl | rfl
      · exact hstaged
      · exact hstaged.trans (ImportStore.grows_of_eq rfl fun _ h => h)
  | @dryRun run mode rows report store _ hrows hreport hstore =>
      have hstored : ∀ run', s.store.Grows H run' store := by
        intro run'
        rcases hstore with rfl | rfl <;> exact ImportStore.grows_of_eq rfl fun _ h => h
      refine ⟨(h.grows hstored).fits, fun run' plan hplan => ?_⟩
      dsimp only at hplan
      rcases eq_or_ne run' run with rfl | hne
      · rw [Function.update_self] at hplan
        obtain rfl := Option.mem_some_iff.mp hplan
        exact ⟨s.store, rows, mode, hrows, hreport, hstored run'⟩
      · rw [Function.update_of_ne hne] at hplan
        exact (h.grows hstored).reported run' plan hplan
  | commitNextBatch hexec =>
      refine h.grows fun run' => ?_
      exact hexec.invariant (I := fun t => s.store.Grows H run' t)
        (fun hgrows heffect => hgrows.trans (importEffect_grows heffect.1))
        (ImportStore.grows_of_eq rfl fun _ h => h)
  | other heffect => exact h.grows fun run' => importEffect_grows heffect

instance transSubperm {α : Type} : Trans (@List.Subperm α) (@List.Subperm α) (@List.Subperm α) :=
  ⟨List.Subperm.trans⟩

/-- A part of a list is part of it after any map. -/
lemma subperm_map {α β : Type} {xs ys : List α} (f : α → β) (h : xs.Subperm ys) :
    (xs.map f).Subperm (ys.map f) := by
  obtain ⟨zs, hperm, hsub⟩ := h
  exact ⟨zs.map f, hperm.map f, hsub.map f⟩

/-- The rows of a list that are not mapped, by what they are listed as. -/
def ImportStore.newListings (s : ImportStore) (rows : List ImportedConversationRow) :
    List PlanListing :=
  (rows.filter fun row => s.duplicateDecision row = .new).map ImportedConversationRow.listing

lemma ImportStore.newListings_asStaged (rows : List ImportedConversationRow) :
    s.newListings (rows.map ImportedConversationRow.asStaged) = s.newListings rows := by
  rw [ImportStore.newListings, List.filter_map, List.map_map, ImportStore.newListings]
  rfl

/-- A report lists as new what was not mapped. -/
lemma listedNew_dryRunReport {s : PlanState} {plan : StoredPlan} {before : ImportStore}
    {rows : List ImportedConversationRow} (hplan : plan ∈ s.reports run)
    (hreport : plan.report = dryRunReport P before mode rows) :
    s.listedNew run = before.newListings rows := by
  have hentries : s.listedNew run = ((rows.map before.dryRunDecision).filter
      fun entry => entry.decision = .new).map DryRunDecision.listing := by
    rw [PlanState.listedNew, Option.mem_def.mp hplan, Option.elim_some, hreport]
    rfl
  rw [hentries, List.filter_map, List.map_map, ImportStore.newListings]
  rfl

/-- What is not mapped now was not mapped before. -/
lemma ImportStore.MapsMore.newListings_subperm (h : s.MapsMore t)
    (rows : List ImportedConversationRow) :
    (t.newListings rows).Subperm (s.newListings rows) := by
  refine ((List.monotone_filter_right rows fun row hnew => ?_).map _).subperm
  rw [decide_eq_true_eq] at hnew ⊢
  rw [ImportStore.duplicateDecision] at hnew ⊢
  rw [if_neg fun hmapped => ?_]
  rw [if_pos (h _ hmapped)] at hnew
  cases hnew

/-- A commit whose report lists what is staged imports as new what is listed as new. -/
lemma PlanInv.created {s : PlanState} (h : PlanInv P H s) {plan : StoredPlan}
    (hplan : plan ∈ s.reports run) (hlisted : ¬s.StagedSince run)
    (hwithin : Within s.store run es) :
    ((sessionsCreated es).map H.listing).Subperm (s.listedNew run) := by
  obtain ⟨before, rows, mode, hrows, hreport, hgrows⟩ := h.reported run plan hplan
  obtain ⟨batch, hbatch, hcreated⟩ := hwithin
  -- the report is as long as what is staged, so that nothing was added
  have hsame : (s.store.conversationsOf run).map ImportedConversationRow.asStaged =
      (before.conversationsOf run).map ImportedConversationRow.asStaged := by
    obtain ⟨added, heq, -⟩ := hgrows.staged
    have hperm : (plan.report.decisions.map DryRunDecision.listing).Perm
        ((s.store.conversationsOf run).map ImportedConversationRow.listing) := by
      by_contra hstaged
      exact hlisted ⟨plan, hplan, hstaged⟩
    have hdecisions : plan.report.decisions = rows.map before.dryRunDecision := by
      rw [hreport]
      rfl
    have hlength := hperm.length_eq
    rw [List.length_map, hdecisions, List.length_map, List.length_map, hrows.length_eq] at hlength
    have hadded := congrArg List.length heq
    rw [List.length_append, List.length_map, List.length_map] at hadded
    rw [heq, List.eq_nil_of_length_eq_zero (by omega : added.length = 0), List.append_nil]
  have hbound : (s.store.unmapped batch).map H.listing = s.store.newListings batch := by
    rw [ImportStore.unmapped, List.map_map, ImportStore.newListings]
    refine List.map_congr_left fun row hrow => ?_
    have hfits := h.fits run row (hbatch.subset (List.mem_of_mem_filter hrow))
    rw [Function.comp_apply, PlanHashes.listing, ← hfits]
    rfl
  calc (sessionsCreated es).map H.listing
    _ <+~ s.store.newListings batch := hbound ▸ (hcreated.map H.listing).subperm
    _ <+~ s.store.newListings (s.store.conversationsOf run) := subperm_map _ (hbatch.filter _)
    _ = s.store.newListings (before.conversationsOf run) := by
        rw [← ImportStore.newListings_asStaged, hsame, ImportStore.newListings_asStaged]
    _ <+~ before.newListings (before.conversationsOf run) := hgrows.maps.newListings_subperm _
    _ <+~ before.newListings rows := ((hrows.symm.filter _).map _).subperm
    _ = s.listedNew run := (listedNew_dryRunReport hplan hreport).symm

/-- A commit that its checks stop performs nothing else. -/
lemma commit_refused {s : PlanState} {batchSize maxWriteQueueDepth : ℕ} {p : ImportProgram Unit}
    (hstop : ¬s.Passes H run mode)
    (hexec : Prog.Exec (planEffect P (s.Approves H)) s.store
      (commitNextBatch P run mode batchSize maxWriteQueueDepth) es p t) :
    ∀ x ∈ es, x.1 = .checkPlan run mode ∨ x.1 = .getRun run := by
  let checks := fun es : List (Performed ImportEffect.Response) =>
    ∀ x ∈ es, x.1 = .checkPlan run mode ∨ x.1 = .getRun run
  have hsafe : Prog.Safe (planEffect P (s.Approves H)) (fun es _ => checks es)
      (fun es _ _ => checks es) [] s.store
      (commitNextBatch P run mode batchSize maxWriteQueueDepth) := by
    refine safe_ask.mpr ⟨fun _ h => absurd h List.not_mem_nil, fun _ s₁ he₁ => ?_,
      fun _ _ _ => by simp [checks]⟩
    have happroves : s.Approves H run mode := he₁.2 run mode rfl rfl
    refine safe_ask.mpr ⟨by simp [checks], fun status s₂ he₂ => ?_, fun _ _ _ => by simp [checks]⟩
    have hstatus : status = s.store.runStatus run := by
      obtain rfl : s₁ = s.store := he₁.1
      exact he₂.1.1
    have hchecked : checks ([] ++ [⟨.checkPlan run mode, .ok ()⟩] ++ [⟨.getRun run, .ok status⟩]) := by
      simp [checks]
    rcases status with _ | status
    · exact hchecked
    dsimp only
    split_ifs with hgoes
    · exact hchecked
    · push Not at hgoes
      exact absurd ⟨happroves, status, hstatus.symm, hgoes⟩ hstop
  rcases hsafe.outcome hexec with ⟨-, hchecks⟩ | ⟨_, -, hchecks⟩
  · exact hchecks
  · exact hchecks

/-- A commit that passes its checks writes. -/
lemma commit_writes {s : PlanState} (hpass : s.Passes H run mode)
    (batchSize maxWriteQueueDepth : ℕ) : ∃ es p t,
      Prog.Exec (planEffect P (s.Approves H)) s.store
        (commitNextBatch P run mode batchSize maxWriteQueueDepth) es p t ∧
          ∃ x ∈ es, x.1.isWrite = true := by
  obtain ⟨happroves, status, hstatus, hgoes⟩ := hpass
  have hplan : planEffect P (s.Approves H) s.store (.checkPlan run mode) (.ok ()) s.store :=
    ⟨rfl, fun run' mode' he _ => by cases he; exact happroves⟩
  have hrun : planEffect P (s.Approves H) s.store (.getRun run) (.ok (some status)) s.store :=
    ⟨⟨hstatus.symm, rfl⟩, fun _ _ he => nomatch he⟩
  have hset : planEffect P (s.Approves H) s.store (.setRunStatus run .committing) (.ok ())
      (s.store.setRunStatus run .committing) := ⟨rfl, fun _ _ he => nomatch he⟩
  obtain ⟨p, hexec⟩ : ∃ p, Prog.Exec (planEffect P (s.Approves H)) s.store
      (commitNextBatch P run mode batchSize maxWriteQueueDepth)
      [⟨.checkPlan run mode, .ok ()⟩, ⟨.getRun run, .ok (some status)⟩,
        ⟨.setRunStatus run .committing, .ok ()⟩] p (s.store.setRunStatus run .committing) := by
    refine Prog.Exec.exists_call hplan (Prog.Exec.exists_call hrun ?_)
    dsimp only
    rw [if_neg (not_or.mpr hgoes)]
    exact ⟨_, .call hset (.refl _ _)⟩
  exact ⟨_, p, _, hexec, ⟨.setRunStatus run .committing, .ok ()⟩, by simp, rfl⟩

/-- A commit keeps to the report of its run if and only if nothing was staged since the report, or
the checks of the commit stop it. -/
theorem commit_followsPlan_iff (P : ImportPlatform) (H : PlanHashes) {s₀ s : PlanState}
    {calls : List PlanCall} (hreports : s₀.reports = fun _ => none)
    (hstaged : s₀.store.conversations.rows = []) (hruns : Runs (PlanStep P H) s₀ calls s)
    (run : String) (mode : ProcessingMode) (batchSize maxWriteQueueDepth : ℕ) :
    (∀ es p t, Prog.Exec (planEffect P (s.Approves H)) s.store
        (commitNextBatch P run mode batchSize maxWriteQueueDepth) es p t → FollowsPlan H s run es) ↔
      ¬s.StagedSince run ∨ ¬s.Passes H run mode := by
  have hstart : PlanInv P H s₀ := by
    refine ⟨fun run row hrow => ?_, fun run plan hplan => ?_⟩
    · rw [ImportStore.conversationsOf, hstaged] at hrow
      exact absurd hrow List.not_mem_nil
    · rw [hreports] at hplan
      cases hplan
  have hinv : PlanInv P H s := hruns.invariant (fun h hstep => h.step hstep) hstart
  constructor
  · intro h
    by_contra hneither
    rw [not_or, not_not, not_not] at hneither
    obtain ⟨es, p, t, hexec, x, hx, hwrite⟩ := commit_writes hneither.2 batchSize maxWriteQueueDepth
    have hread := (h es p t hexec).refused hneither.1 x hx
    rw [hwrite] at hread
    cases hread
  · intro h es p t hexec
    by_cases hpass : s.Passes H run mode
    · -- the report lists what is staged
      have hlisted : ¬s.StagedSince run := h.resolve_right (not_not.mpr hpass)
      obtain ⟨⟨plan, hplan, -⟩, -⟩ := hpass
      have hwithin : Within s.store run es := by
        rcases (safe_commitNextBatch s.store batchSize maxWriteQueueDepth).outcome hexec with
          ⟨-, h⟩ | ⟨_, -, h⟩
        · exact h
        · exact h
      exact ⟨hinv.created hplan hlisted hwithin, fun hsince => absurd hsince hlisted⟩
    · -- the commit performs its checks only
      have hchecks := commit_refused hpass hexec
      have hcreated : sessionsCreated es = [] := by
        rw [sessionsCreated, List.filterMap_eq_nil_iff]
        rintro ⟨e, response⟩ hx
        rcases hchecks _ hx with he | he <;> cases he <;> rfl
      refine ⟨?_, fun _ x hx => ?_⟩
      · rw [hcreated]
        exact List.nil_subperm
      · rcases hchecks x hx with he | he <;> rw [he] <;> rfl

end

/-! ### Commits that leave their plan -/

/-- Every commit keeps to the report of its run. -/
def CommitsFollowPlans (P : ImportPlatform) (H : PlanHashes) : Prop :=
  ∀ (s₀ s : PlanState) (calls : List PlanCall) (run : String) (mode : ProcessingMode)
    (batchSize maxWriteQueueDepth : ℕ) (es : List (Performed ImportEffect.Response))
    (p : ImportProgram Unit) (t : ImportStore), (s₀.reports = fun _ => none) →
    s₀.store.conversations.rows = [] → Runs (PlanStep P H) s₀ calls s →
      Prog.Exec (planEffect P (s.Approves H)) s.store
        (commitNextBatch P run mode batchSize maxWriteQueueDepth) es p t → FollowsPlan H s run es

/-- Hashes that are the titles and the numbers of conversations. -/
def plainHashes : PlanHashes where
  conversationFingerprint conversation := conversation.title.getD ""
  planFingerprint report := toString report.conversationCount

/-- A run with nothing staged. -/
def uploadedRun : PlanState where
  store := { runs := ⟨[⟨"r1", .staged⟩], by decide⟩ }

/-- A conversation without messages. -/
def teaConversation : ImportedConversation where
  sourcePlatform := "chatgpt"
  sourceConversationId := some "c1"
  title := some "tea"
  messages := []

/-- The run once the conversation is staged. -/
def stagedRun (s : PlanState) : PlanState where
  store := (s.store.stage plainHashes "r1" ("u1", teaConversation)).setRunStatus "r1"
    .reconstructed
  reports := s.reports

/-- The run after a dry run. -/
def dryRunRun (s : PlanState) : PlanState where
  store := s.store.setRunStatus "r1" .dryRun
  reports := Function.update s.reports "r1"
    (some ⟨dryRunReport plainImports s.store .none (s.store.conversationsOf "r1"),
      plainHashes.planFingerprint
        (dryRunReport plainImports s.store .none (s.store.conversationsOf "r1"))⟩)

lemma plannedRun_runs : Runs (PlanStep plainImports plainHashes) uploadedRun
    ([.reconstruct "r1" [teaConversation]] ++ [.dryRun "r1" .none])
    (dryRunRun (stagedRun uploadedRun)) :=
  (Runs.refl.tail (.reconstruct [("u1", teaConversation)] (by decide) (.inr rfl))).tail
    (.dryRun (by decide) (.refl _) rfl (.inr rfl))

lemma restagedRun_runs : Runs (PlanStep plainImports plainHashes) uploadedRun
    ([.dryRun "r1" .none] ++ [.reconstruct "r1" [teaConversation]])
    (stagedRun (dryRunRun uploadedRun)) :=
  (Runs.refl.tail (.dryRun (by decide) (.refl _) rfl (.inr rfl))).tail
    (.reconstruct [("u1", teaConversation)] (by decide) (.inr rfl))

/-- A statement that checks no plan has the effect it has in the imports. -/
lemma planEffect_of_ne {P : ImportPlatform} {approves : String → ProcessingMode → Prop}
    {u v : ImportStore} {e : ImportEffect} {response : e.Response}
    (heffect : importEffect P.unicode u e response v)
    (hne : ∀ run mode, e ≠ .checkPlan run mode) : planEffect P approves u e response v :=
  ⟨heffect, fun run mode he => absurd he (hne run mode)⟩

/-- The imports with the conversation staged, at a status of its run. -/
def stagedStore (status : ImportRunStatus) : ImportStore :=
  (uploadedRun.store.stage plainHashes "r1" ("u1", teaConversation)).setRunStatus "r1" status

/-- A commit up to the conversation that it creates. -/
def firstImport (status : ImportRunStatus) : List (Performed ImportEffect.Response) :=
  [⟨.checkPlan "r1" .none, .ok ()⟩, ⟨.getRun "r1", .ok (some status)⟩,
    ⟨.setRunStatus "r1" .committing, .ok ()⟩, ⟨.resolveTarget "r1", .ok ()⟩,
    ⟨.pendingConversations "r1" 100, .ok ((stagedStore .committing).pendingOf "r1")⟩,
    ⟨.getControl "r1", .ok {}⟩, ⟨.writeQueueDepth, .ok (0 : ℕ)⟩,
    ⟨.findMapping ("chatgpt", .conversation, "c1"), .ok none⟩,
    ⟨.createSession teaConversation, .ok "s1"⟩]

lemma firstImport_exec {approves : String → ProcessingMode → Prop} {status : ImportRunStatus}
    (happroves : approves "r1" .none) (hstatus : status = .dryRun ∨ status = .reconstructed) :
    ∃ p, Prog.Exec (planEffect plainImports approves) (stagedStore status)
      (commitNextBatch plainImports "r1" .none 100 500) (firstImport status) p
      { stagedStore .committing with
        sessions := (stagedStore .committing).sessions.insert ⟨"s1", some "tea"⟩ } := by
  have hcheck : planEffect plainImports approves (stagedStore status) (.checkPlan "r1" .none)
      (.ok ()) (stagedStore status) := ⟨rfl, fun run mode he _ => by cases he; exact happroves⟩
  rcases hstatus with rfl | rfl
  all_goals
    refine Prog.Exec.exists_call hcheck
      (Prog.Exec.exists_call (planEffect_of_ne ⟨rfl, rfl⟩ (by simp)) ?_)
    refine Prog.Exec.exists_call (t := stagedStore .committing) (planEffect_of_ne rfl (by simp))
      (Prog.Exec.exists_call (planEffect_of_ne rfl (by simp)) ?_)
    refine Prog.Exec.exists_call (planEffect_of_ne ⟨.refl _, by decide, rfl⟩ (by simp))
      (Prog.Exec.exists_call (planEffect_of_ne ⟨rfl, rfl⟩ (by simp)) ?_)
    refine Prog.Exec.exists_call (planEffect_of_ne rfl (by simp))
      (Prog.Exec.exists_call (planEffect_of_ne ⟨rfl, rfl⟩ (by simp)) ?_)
    exact Prog.Exec.exists_call (planEffect_of_ne ⟨rfl, rfl⟩ (by simp)) ⟨_, .refl _ _⟩

/-- A commit after the dry run of what is staged keeps to its report. -/
theorem commit_followsPlan_planned :
    FollowsPlan plainHashes (dryRunRun (stagedRun uploadedRun)) "r1" (firstImport .dryRun) := by
  have hlisted : ¬(dryRunRun (stagedRun uploadedRun)).StagedSince "r1" := by
    rintro ⟨plan, hplan, hsince⟩
    cases hplan
    exact hsince (by decide)
  have happroves : (dryRunRun (stagedRun uploadedRun)).Approves plainHashes "r1" .none :=
    ⟨_, rfl, rfl, rfl⟩
  obtain ⟨p, hexec⟩ := firstImport_exec happroves (.inl rfl)
  exact (commit_followsPlan_iff plainImports plainHashes rfl rfl plannedRun_runs "r1" .none 100
    500).mpr (.inl hlisted) _ p _ hexec

/-- A commit imports a conversation that was staged after its report. -/
theorem commit_unlisted : ¬CommitsFollowPlans plainImports plainHashes := by
  intro h
  have happroves : (stagedRun (dryRunRun uploadedRun)).Approves plainHashes "r1" .none :=
    ⟨_, rfl, rfl, rfl⟩
  obtain ⟨p, hexec⟩ := firstImport_exec happroves (.inr rfl)
  have hlisted := (h uploadedRun _ _ "r1" .none 100 500 _ p _ rfl rfl restagedRun_runs hexec).created
  exact absurd hlisted.length_le (by decide)

end Memorist
