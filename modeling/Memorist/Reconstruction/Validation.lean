import Memorist.Library.Checks
import Memorist.Library.Lineage
import Memorist.Text.PyValue
import Memorist.Imports.Store

/-!
Reconstructed conversations and the checks of their graph (`imports/reconstruction/models.py` and
`validation.py`).

* `Conversation`, `MessageNode`: a conversation, with its messages by their ids;
* `validateConversation`, `hasCycle`: the checks;
* `GraphChecksExact`: what they are for;
* `graphChecksExact_iff`: the graphs for which they do it.
-/

namespace Memorist.Reconstruction

open Relation

/-! ### Conversations -/

/-- A part of the content of a message. -/
structure ContentPart (F : Type) where
  partType : Text
  text : Option Text := none
  raw : Json F := .null
  quarantined : Bool := false

/-- A message. -/
structure MessageNode (F : Type) where
  sourceMessageId : Text
  parentIds : List Text := []
  childIds : List Text := []
  role : ImportedRole := .unknown
  creatorLabel : Option Text := none
  contentParts : List (ContentPart F) := []
  createdAt : Option Text := none
  timestampConfidence : Text := "missing".toList
  modelName : Option Text := none
  branchStatus : Text := "active".toList
  metadata : Mapping F := []

/-- An issue of a reconstruction. -/
structure ImportIssue (F : Type) where
  severity : Text
  issueCode : Text
  message : Text
  artifactPath : Option Text := none
  sourceRecordId : Option Text := none
  details : Mapping F := []

/-- A conversation: its messages by their ids, which are distinct. -/
structure Conversation (F : Type) where
  sourcePlatform : Text := "unknown".toList
  sourceConversationId : Option Text := none
  title : Option Text := none
  createdAt : Option Text := none
  updatedAt : Option Text := none
  roots : List Text := []
  activeLeafId : Option Text := none
  messages : Dict Text (MessageNode F)
  metadata : Mapping F := []
  reconstructionIssues : List (ImportIssue F) := []
  distinct : (messages.map Prod.fst).Nodup := by decide

variable {F : Type}

namespace Conversation

variable (c : Conversation F)

/-- The parents of the messages. -/
def parents : Successors Text := c.messages.map fun p => (p.1, p.2.parentIds)

/-- An id names a message. -/
def Names (id : Text) : Prop := id ∈ c.messages.map Prod.fst

instance (id : Text) : Decidable (c.Names id) :=
  inferInstanceAs (Decidable (id ∈ c.messages.map Prod.fst))

lemma get?_parents (id : Text) :
    Dict.get? c.parents id = (Dict.get? c.messages id).map MessageNode.parentIds :=
  Dict.get?_mapValues (fun _ (message : MessageNode F) => message.parentIds) c.messages id

lemma get?_parents_ne_none {id : Text} : Dict.get? c.parents id ≠ none ↔ c.Names id := by
  rw [get?_parents, Ne, Option.map_eq_none_iff]
  constructor
  · intro h
    by_contra hnot
    exact h (Dict.get?_of_not_mem hnot)
  · exact Dict.get?_ne_none

/-- The edges to parents that are missing. -/
def danglingEdges : List (Text × Text) :=
  c.messages.flatMap fun p => (p.2.parentIds.filter fun parent => ¬c.Names parent).map fun parent =>
    (p.1, parent)

end Conversation

/-! ### The checks -/

/-- Whether the search of the parents of a message meets one twice; the id that names no message
where it meets one. -/
def hasCycle (c : Conversation F) (start : Text) : Except Text Bool := c.parents.search [start] []

/-- The issue of a parent that is missing. -/
def missingParent (id parent : Text) : ImportIssue F where
  severity := "warning".toList
  issueCode := "missing_parent".toList
  message := "Referenced parent message is missing".toList
  sourceRecordId := some id
  details := [("parent_id".toList, .str parent)]

/-- The issue of a cycle. -/
def messageCycle (id : Text) : ImportIssue F where
  severity := "error".toList
  issueCode := "message_cycle".toList
  message := "Message graph contains a cycle".toList
  sourceRecordId := some id

/-- The issue of an active leaf that is missing. -/
def missingActiveLeaf (id : Text) : ImportIssue F where
  severity := "warning".toList
  issueCode := "missing_active_leaf".toList
  message := "Active leaf is missing from message graph".toList
  sourceRecordId := some id

/-- The issues of messages; an id that names no message is the key of a `KeyError`. -/
def messageIssues (c : Conversation F) :
    Dict Text (MessageNode F) → Except Text (List (ImportIssue F))
  | [] => .ok []
  | (id, message) :: messages => do
      let missing := (message.parentIds.filter fun parent => ¬c.Names parent).map (missingParent id)
      let cycle ← hasCycle c id
      let rest ← messageIssues c messages
      return missing ++ (if cycle then [messageCycle id] else []) ++ rest

/-- The issues of the active leaf. -/
def leafIssues (c : Conversation F) : List (ImportIssue F) :=
  match c.activeLeafId with
  | some leaf => if leaf ≠ [] ∧ ¬c.Names leaf then [missingActiveLeaf leaf] else []
  | none => []

/-- The issues of the graph of a conversation. -/
def validateConversation (c : Conversation F) : Except Text (List (ImportIssue F)) := do
  let issues ← messageIssues c c.messages
  return issues ++ leafIssues c

/-! ### What they report -/

/-- The code of an issue. -/
def HasCode (code : String) (issue : ImportIssue F) : Prop := issue.issueCode = code.toList

instance (code : String) : DecidablePred (HasCode (F := F) code) := fun issue =>
  inferInstanceAs (Decidable (issue.issueCode = code.toList))

/-- The checks raise no error, report a cycle for the messages that reach one, and report the
parents that are missing. -/
def GraphChecksExact (c : Conversation F) : Prop :=
  ∃ issues, validateConversation c = .ok issues ∧
    (∀ id, (∃ issue ∈ issues, HasCode "message_cycle" issue ∧ issue.sourceRecordId = some id) ↔
      c.Names id ∧ c.parents.ReachesCycle id) ∧
    issues.filter (fun issue => HasCode "missing_parent" issue) =
      c.danglingEdges.map fun edge => missingParent edge.1 edge.2

/-- The issues that are reported where the searches end as told. -/
def reported (c : Conversation F) (cycle : Text → Bool) : List (ImportIssue F) :=
  (c.messages.flatMap fun p =>
    (p.2.parentIds.filter fun parent => ¬c.Names parent).map (missingParent p.1) ++
      if cycle p.1 then [messageCycle p.1] else []) ++ leafIssues c

/-- The checks raise no error where no search does. -/
lemma validateConversation_of_hasCycle (c : Conversation F) {cycle : Text → Bool}
    (hcycle : ∀ id, c.Names id → hasCycle c id = .ok (cycle id)) :
    validateConversation c = .ok (reported c cycle) := by
  have hmessages : ∀ messages : Dict Text (MessageNode F),
      (∀ p ∈ messages, hasCycle c p.1 = .ok (cycle p.1)) →
      messageIssues c messages = .ok (messages.flatMap fun p =>
        (p.2.parentIds.filter fun parent => ¬c.Names parent).map (missingParent p.1) ++
          if cycle p.1 then [messageCycle p.1] else []) := by
    intro messages
    induction messages with
    | nil => exact fun _ => rfl
    | cons p messages ih =>
        intro h
        rw [messageIssues, h p List.mem_cons_self, ih fun q hq => h q (List.mem_cons_of_mem _ hq)]
        rfl
  rw [validateConversation, hmessages c.messages fun p hp => hcycle p.1 (List.mem_map_of_mem hp)]
  rfl

/-- Where a search raises an error, so do the checks. -/
lemma hasCycle_of_validateConversation {c : Conversation F} {issues : List (ImportIssue F)}
    (h : validateConversation c = .ok issues) {id : Text} (hid : c.Names id) :
    ∃ cycle, hasCycle c id = .ok cycle := by
  have hmessages : ∀ (messages : Dict Text (MessageNode F)) issues,
      messageIssues c messages = .ok issues → ∀ p ∈ messages, ∃ cycle, hasCycle c p.1 = .ok cycle := by
    intro messages
    induction messages with
    | nil => exact fun _ _ p hp => absurd hp List.not_mem_nil
    | cons q messages ih =>
        intro issues h p hp
        rw [messageIssues] at h
        obtain ⟨cycle, hcycle, h⟩ := Checks.bind_eq_ok.mp h
        obtain ⟨rest, hrest, -⟩ := Checks.bind_eq_ok.mp h
        rcases List.mem_cons.mp hp with rfl | hp
        · exact ⟨cycle, hcycle⟩
        · exact ih rest hrest p hp
  obtain ⟨issues, hissues, -⟩ := Checks.bind_eq_ok.mp h
  obtain ⟨p, hp, rfl⟩ := List.mem_map.mp hid
  exact hmessages c.messages issues hissues p hp

lemma missingParent_hasCode (id parent : Text) :
    HasCode "missing_parent" (missingParent (F := F) id parent) := rfl

lemma not_hasCode_messageCycle (id : Text) :
    ¬HasCode "missing_parent" (messageCycle (F := F) id) := by
  show "message_cycle".toList ≠ "missing_parent".toList
  decide

lemma not_hasCode_missingParent (id parent : Text) :
    ¬HasCode "message_cycle" (missingParent (F := F) id parent) := by
  show "missing_parent".toList ≠ "message_cycle".toList
  decide

/-- An issue of the active leaf is neither of the other kinds. -/
lemma not_hasCode_leafIssues (c : Conversation F) {issue : ImportIssue F} (h : issue ∈ leafIssues c) :
    ¬HasCode "missing_parent" issue ∧ ¬HasCode "message_cycle" issue := by
  rw [leafIssues] at h
  split at h
  · split_ifs at h
    · obtain rfl := List.mem_singleton.mp h
      show "missing_active_leaf".toList ≠ "missing_parent".toList ∧
        "missing_active_leaf".toList ≠ "message_cycle".toList
      decide
    · exact absurd h List.not_mem_nil
  · exact absurd h List.not_mem_nil

/-- The parents that are missing are reported, each once for each edge. -/
lemma filter_missingParent_reported (c : Conversation F) (cycle : Text → Bool) :
    (reported c cycle).filter (fun issue => HasCode "missing_parent" issue) =
      c.danglingEdges.map fun edge => missingParent edge.1 edge.2 := by
  have hleaf : (leafIssues c).filter (fun issue => HasCode "missing_parent" issue) = [] :=
    List.filter_eq_nil_iff.mpr fun issue hissue h =>
      (not_hasCode_leafIssues c hissue).1 (of_decide_eq_true h)
  have hmessage : ∀ p : Text × MessageNode F,
      ((p.2.parentIds.filter fun parent => ¬c.Names parent).map (missingParent (F := F) p.1) ++
        if cycle p.1 then [messageCycle p.1] else []).filter
          (fun issue => HasCode "missing_parent" issue) =
      (p.2.parentIds.filter fun parent => ¬c.Names parent).map (missingParent p.1) := by
    intro p
    have hcycle : (if cycle p.1 then [messageCycle (F := F) p.1] else []).filter
        (fun issue => HasCode "missing_parent" issue) = [] := by
      split_ifs
      · exact List.filter_cons_of_neg (by simpa using not_hasCode_messageCycle p.1)
      · rfl
    rw [List.filter_append, hcycle, List.append_nil, List.filter_eq_self]
    intro issue hissue
    obtain ⟨parent, -, rfl⟩ := List.mem_map.mp hissue
    exact decide_eq_true (missingParent_hasCode p.1 parent)
  rw [reported, List.filter_append, hleaf, List.append_nil, List.filter_flatMap,
    Conversation.danglingEdges, List.map_flatMap]
  refine List.flatMap_congr fun p _ => ?_
  rw [hmessage, List.map_map]
  rfl

/-- A cycle is reported for the messages whose search ends so. -/
lemma messageCycle_reported (c : Conversation F) (cycle : Text → Bool) (id : Text) :
    (∃ issue ∈ reported c cycle, HasCode "message_cycle" issue ∧ issue.sourceRecordId = some id) ↔
      c.Names id ∧ cycle id = true := by
  constructor
  · rintro ⟨issue, hissue, hcode, hid⟩
    rcases List.mem_append.mp hissue with hissue | hleaf
    · obtain ⟨p, hp, hissue⟩ := List.mem_flatMap.mp hissue
      rcases List.mem_append.mp hissue with hmissing | hcycle
      · obtain ⟨parent, -, rfl⟩ := List.mem_map.mp hmissing
        exact absurd hcode (not_hasCode_missingParent p.1 parent)
      · split_ifs at hcycle with h
        · obtain rfl := List.mem_singleton.mp hcycle
          obtain rfl : p.1 = id := Option.some.inj hid
          exact ⟨List.mem_map_of_mem hp, h⟩
        · exact absurd hcycle List.not_mem_nil
    · exact absurd hcode (not_hasCode_leafIssues c hleaf).2
  · rintro ⟨hid, hcycle⟩
    obtain ⟨p, hp, rfl⟩ := List.mem_map.mp hid
    refine ⟨messageCycle p.1, List.mem_append_left _ (List.mem_flatMap.mpr ⟨p, hp, ?_⟩), rfl, rfl⟩
    rw [if_pos hcycle]
    exact List.mem_append_right _ (List.mem_singleton_self _)

/-- The checks are exact if and only if each search tells whether its message reaches a cycle. -/
lemma graphChecksExact_iff_hasCycle (c : Conversation F) : GraphChecksExact c ↔
    ∀ id, c.Names id → ∃ cycle, hasCycle c id = .ok cycle ∧
      (cycle = true ↔ c.parents.ReachesCycle id) := by
  constructor
  · rintro ⟨issues, hissues, hcycles, -⟩ id hid
    -- what each search ended with
    choose! cycle hcycle using fun id (hid : c.Names id) =>
      hasCycle_of_validateConversation hissues hid
    obtain rfl : reported c cycle = issues :=
      Except.ok.inj ((validateConversation_of_hasCycle c hcycle).symm.trans hissues)
    refine ⟨cycle id, hcycle id hid, ?_⟩
    have := hcycles id
    rw [messageCycle_reported] at this
    tauto
  · intro h
    choose! cycle hcycle hreaches using h
    refine ⟨_, validateConversation_of_hasCycle c hcycle, fun id => ?_,
      filter_missingParent_reported c cycle⟩
    rw [messageCycle_reported]
    exact and_congr_right (hreaches id)

/-- A message and its ancestors, depth first, the last parent first; one that is reached along
several walks is listed for each. -/
def Conversation.lineage (c : Conversation F) (id : Text) : List Text :=
  c.parents.lineage c.messages.length id

/-- The checks are exact if and only if the lineage of a message that reaches a cycle repeats an id
before it names a missing one, and the lineage of any other message has distinct ids of messages. -/
theorem graphChecksExact_iff (c : Conversation F) : GraphChecksExact c ↔
    ∀ id, c.Names id →
      (c.parents.ReachesCycle id → c.parents.RepeatsFirst (c.lineage id)) ∧
      (¬c.parents.ReachesCycle id → (c.lineage id).Nodup ∧ ∀ v ∈ c.lineage id, c.Names v) := by
  have hlength : c.parents.length = c.messages.length := List.length_map _
  rw [graphChecksExact_iff_hasCycle]
  refine forall₂_congr fun id _ => ?_
  have htrue := c.parents.search_eq_true_iff id
  have hfalse := c.parents.search_eq_false_iff id
  simp only [hlength, Conversation.get?_parents_ne_none] at htrue hfalse
  rw [hasCycle, Conversation.lineage]
  by_cases hreaches : c.parents.ReachesCycle id
  · simp only [hreaches, true_implies, not_true_eq_false, false_implies, and_true, iff_true]
    rw [← htrue]
    refine ⟨?_, fun h => ⟨true, h, rfl⟩⟩
    rintro ⟨cycle, h, hcycle⟩
    exact hcycle ▸ h
  · simp only [hreaches, false_implies, not_false_eq_true, true_implies, true_and, iff_false,
      Bool.not_eq_true]
    rw [← hfalse]
    refine ⟨?_, fun h => ⟨false, h, rfl⟩⟩
    rintro ⟨cycle, h, hcycle⟩
    exact hcycle ▸ h

/-- A message whose parent is missing. -/
def orphan : Conversation ℕ where
  messages := [("m".toList, { sourceMessageId := "m".toList, parentIds := ["gone".toList] })]

/-- A message whose two parents have a parent in common. -/
def sharedAncestor : Conversation ℕ where
  messages := [("root".toList, { sourceMessageId := "root".toList }),
    ("left".toList, { sourceMessageId := "left".toList, parentIds := ["root".toList] }),
    ("right".toList, { sourceMessageId := "right".toList, parentIds := ["root".toList] }),
    ("join".toList,
      { sourceMessageId := "join".toList, parentIds := ["left".toList, "right".toList] })]

/-- Neither does the check of a missing parent return, nor is a shared ancestor told from a
cycle. -/
theorem not_graphChecksExact : ¬GraphChecksExact orphan ∧ ¬GraphChecksExact sharedAncestor := by
  rw [graphChecksExact_iff_hasCycle, graphChecksExact_iff_hasCycle]
  constructor
  · intro h
    obtain ⟨cycle, hcycle, -⟩ := h "m".toList (by decide)
    have herror : hasCycle orphan "m".toList = .error "gone".toList := by
      rw [hasCycle, Successors.search_singleton]
      decide
    cases herror.symm.trans hcycle
  · intro h
    obtain ⟨cycle, hcycle, hreaches⟩ := h "join".toList (by decide)
    have htrue : hasCycle sharedAncestor "join".toList = .ok true := by
      rw [hasCycle, Successors.search_singleton]
      decide
    obtain rfl : true = cycle := Except.ok.inj (htrue.symm.trans hcycle)
    exact Successors.not_reachesCycle_of_rank _
      (fun id => (sharedAncestor.messages.map Prod.fst).idxOf id) (by decide) _ (hreaches.mp rfl)

end Memorist.Reconstruction
