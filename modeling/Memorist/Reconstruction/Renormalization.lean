import Memorist.Library.Correspond
import Memorist.Reconstruction.StoredForm

/-!
Conversations that are normalized again from what is stored of them.

* `SameMessage`, `SameConversation`: what is to be kept;
* `GraphClear`, `DetailsClear`: a graph whose checks report nothing, and issues without null values;
* `normalized_again_iff`: the payloads whose conversation is kept.
-/

namespace Memorist.Reconstruction

variable {F : Type}

/-! ### What is to be kept -/

/-- Two messages that agree in what the import reads of them. -/
structure SameMessage (U : UnicodeData) (message message' : MessageNode F) : Prop where
  sourceMessageId : message'.sourceMessageId = message.sourceMessageId
  parentIds : message'.parentIds = message.parentIds
  childIds : message'.childIds = message.childIds
  role : message'.role = message.role
  creatorLabel : message'.creatorLabel = message.creatorLabel
  visible : visibleText U message'.contentParts = visibleText U message.contentParts
  quarantined : message'.contentParts.map ContentPart.quarantined =
    message.contentParts.map ContentPart.quarantined
  createdAt : message'.createdAt = message.createdAt
  timestampConfidence : message'.timestampConfidence = message.timestampConfidence
  modelName : message'.modelName = message.modelName
  branchStatus : message'.branchStatus = message.branchStatus

/-- Two conversations that agree in their messages, their times, their active leaf and the list of
their issues. -/
structure SameConversation (U : UnicodeData) (c c' : Conversation F) : Prop where
  messages : List.Forall₂ (fun p p' => p'.1 = p.1 ∧ SameMessage U p.2 p'.2) c.messages c'.messages
  sourcePlatform : c'.sourcePlatform = c.sourcePlatform
  sourceConversationId : c'.sourceConversationId = c.sourceConversationId
  title : c'.title = c.title
  createdAt : c'.createdAt = c.createdAt
  updatedAt : c'.updatedAt = c.updatedAt
  roots : c'.roots = c.roots
  activeLeafId : c'.activeLeafId = c.activeLeafId
  reconstructionIssues : c'.reconstructionIssues = c.reconstructionIssues

lemma sameMessage_restoredMessage (U : UnicodeData) (message : MessageNode F) :
    SameMessage U message (restoredMessage message) := by
  have hvisible : visibleText U (message.contentParts.map restoredPart) =
      visibleText U message.contentParts := by
    rw [visibleText, visibleText, List.filter_map, List.map_map]
    rfl
  have hquarantined : (message.contentParts.map restoredPart).map ContentPart.quarantined =
      message.contentParts.map ContentPart.quarantined := by
    rw [List.map_map]
    rfl
  exact ⟨rfl, rfl, rfl, rfl, rfl, hvisible, hquarantined, rfl, rfl, rfl, rfl⟩

/-! ### The checks of a graph -/

/-- Each message is reached from each other along one walk at most, and the messages name no other
parent or leaf. -/
structure GraphClear (parents : Successors Text) (leaf : Option Text) : Prop where
  nodup : ∀ id ∈ parents.map Prod.fst, (parents.lineage parents.length id).Nodup
  named : ∀ id ∈ parents.map Prod.fst, ∀ v ∈ parents.lineage parents.length id,
    v ∈ parents.map Prod.fst
  leaf : ∀ id, leaf = some id → id ∈ parents.map Prod.fst

/-- The checks read the parents of the messages only. -/
lemma messageIssues_congr {c c' : Conversation F} (h : c'.parents = c.parents) :
    ∀ messages messages' : Dict Text (MessageNode F),
      messages'.map (fun p => (p.1, p.2.parentIds)) = messages.map (fun p => (p.1, p.2.parentIds)) →
      messageIssues c' messages' = messageIssues c messages := by
  have hnames : ∀ id, c'.Names id ↔ c.Names id := by
    intro id
    rw [← Conversation.get?_parents_ne_none, h, Conversation.get?_parents_ne_none]
  intro messages
  induction messages with
  | nil =>
      intro messages' hmap
      rw [List.map_nil, List.map_eq_nil_iff] at hmap
      rw [hmap]
      rfl
  | cons p messages ih =>
      intro messages' hmap
      cases messages' with
      | nil => cases hmap
      | cons p' messages' =>
          rw [List.map_cons, List.map_cons] at hmap
          obtain ⟨hhead, htail⟩ := List.cons.inj hmap
          obtain ⟨hid, hparents⟩ := Prod.mk.inj hhead
          simp only [messageIssues, hasCycle, h, hid, hparents, hnames, ih messages' htail]

lemma validateConversation_congr {c c' : Conversation F} (h : c'.parents = c.parents)
    (hleaf : c'.activeLeafId = c.activeLeafId) :
    validateConversation c' = validateConversation c := by
  have hnames : ∀ id, c'.Names id ↔ c.Names id := by
    intro id
    rw [← Conversation.get?_parents_ne_none, h, Conversation.get?_parents_ne_none]
  have hissues : leafIssues c' = leafIssues c := by
    simp only [leafIssues, hleaf, hnames]
  rw [validateConversation, validateConversation, messageIssues_congr h _ _ h, hissues]

/-- A lineage is clear if and only if the search ends without a cycle. -/
lemma hasCycle_eq_false_iff (c : Conversation F) (id : Text) : hasCycle c id = .ok false ↔
    (c.parents.lineage c.parents.length id).Nodup ∧
      ∀ v ∈ c.parents.lineage c.parents.length id, v ∈ c.parents.map Prod.fst := by
  have hmem : ∀ v, v ∈ c.parents.map Prod.fst ↔ c.Names v := by
    intro v
    rw [Conversation.parents, List.map_map]
    rfl
  rw [hasCycle, Successors.search_eq_false_iff]
  simp only [Conversation.get?_parents_ne_none, hmem]

/-- The checks report nothing if and only if the graph is clear. -/
lemma validateConversation_eq_nil_iff {c : Conversation F} {issues : List (ImportIssue F)}
    (h : validateConversation c = .ok issues) (hleaf : ∀ leaf, c.activeLeafId = some leaf → leaf ≠ []) :
    issues = [] ↔ GraphClear c.parents c.activeLeafId := by
  have hmem : ∀ v, v ∈ c.parents.map Prod.fst ↔ c.Names v := by
    intro v
    rw [Conversation.parents, List.map_map]
    rfl
  choose! cycle hcycle using fun id (hid : c.Names id) => hasCycle_of_validateConversation h hid
  obtain rfl : reported c cycle = issues :=
    Except.ok.inj ((validateConversation_of_hasCycle c hcycle).symm.trans h)
  have hleafIssues : leafIssues c = [] ↔ ∀ id, c.activeLeafId = some id → c.Names id := by
    rw [leafIssues]
    cases hid : c.activeLeafId with
    | none => simp
    | some leaf =>
        have hne := hleaf leaf hid
        simp [hne]
  rw [reported, List.append_eq_nil_iff, hleafIssues, List.flatMap_eq_nil_iff]
  constructor
  · rintro ⟨hmessages, hleaf⟩
    have hclear : ∀ id ∈ c.parents.map Prod.fst, hasCycle c id = .ok false := by
      intro id hid
      obtain ⟨p, hp, rfl⟩ := List.mem_map.mp ((hmem id).mp hid)
      have hnone := (List.append_eq_nil_iff.mp (hmessages p hp)).2
      rw [hcycle p.1 (List.mem_map_of_mem hp)]
      split_ifs at hnone with htrue
      rw [Bool.eq_false_iff.mpr htrue]
    exact ⟨fun id hid => ((hasCycle_eq_false_iff c id).mp (hclear id hid)).1,
      fun id hid => ((hasCycle_eq_false_iff c id).mp (hclear id hid)).2,
      fun id hid => (hmem id).mpr (hleaf id hid)⟩
  · rintro ⟨hnodup, hnamed, hleaf⟩
    refine ⟨fun p hp => List.append_eq_nil_iff.mpr ⟨?_, ?_⟩, fun id hid => (hmem id).mp (hleaf id hid)⟩
    · rw [List.map_eq_nil_iff, List.filter_eq_nil_iff]
      intro parent hparent
      have hid : p.1 ∈ c.parents.map Prod.fst := (hmem p.1).mpr (List.mem_map_of_mem hp)
      -- the lineage of a message lists its parents
      have hlineage : parent ∈ c.parents.lineage c.parents.length p.1 := by
        have hget : Dict.get? c.parents p.1 = some p.2.parentIds := by
          rw [Conversation.get?_parents, Dict.get?_of_mem c.distinct hp]
          rfl
        obtain ⟨n, hn⟩ := Nat.exists_eq_add_of_lt (List.length_pos_of_mem (Dict.mem_of_get? hget))
        rw [hn, Nat.zero_add]
        exact Successors.mem_lineage_of_mem _ hget hparent n
      simpa using (hmem parent).mp (hnamed p.1 hid parent hlineage)
    · have hid : p.1 ∈ c.parents.map Prod.fst := (hmem p.1).mpr (List.mem_map_of_mem hp)
      have hfalse := (hasCycle_eq_false_iff c p.1).mpr ⟨hnodup p.1 hid, hnamed p.1 hid⟩
      rw [hcycle p.1 (List.mem_map_of_mem hp)] at hfalse
      rw [Except.ok.inj hfalse]
      rfl

/-! ### Normalizing again -/

section

variable {U : UnicodeData} {N : Floats F} {T : Datetimes F} [Zero F] [DecidableEq F]

variable (U N) in
/-- The parents that a payload names. -/
def payloadParents (payload : Mapping F) : Successors Text :=
  (dictItems (dictOrEmpty (getD payload "messages" (.obj [])))).map fun p =>
    (p.1, ((textItems U N (getD p.2 "parent_ids" (.arr []))).toOption).getD [])

/-- The issues that a payload names have no null values in their details. -/
def DetailsClear (payload : Mapping F) : Prop :=
  ∀ items, iterate (getD payload "reconstruction_issues" (.arr [])) = .ok items →
    ∀ issue, .obj issue ∈ items →
      Json.stripNone (getD issue "details" (.obj [])) = getD issue "details" (.obj [])

/-- The parents of a conversation are those that its payload names. -/
lemma parents_of_read {payload : Mapping F} {c : Conversation F}
    (hdistinct : ((dictOrEmpty (getD payload "messages" (.obj []))).map Prod.fst).Nodup)
    (h : readConversation U N T payload = .ok c) : c.parents = payloadParents U N payload := by
  simp only [readConversation, Checks.bind_eq_ok, Checks.pure_eq_ok] at h
  obtain ⟨pairs, hpairs, _, -, _, -, _, -, _, -, _, -, _, -, rfl⟩ := h
  rw [normalizeMessages, Checks.mapM_eq_ok] at hpairs
  have hitem : List.Forall₂ (fun p q : Text × _ => q.1 = p.1 ∧
      q.2.parentIds = ((textItems U N (getD p.2 "parent_ids" (.arr []))).toOption).getD [])
      (dictItems (dictOrEmpty (getD payload "messages" (.obj [])))) pairs := by
    refine hpairs.imp fun p q hq => ?_
    obtain ⟨message, hmessage, heq⟩ := Checks.bind_eq_ok.mp hq
    obtain rfl := Checks.pure_eq_ok.mp heq
    simp only [normalizeMessage, Checks.bind_eq_ok, Checks.pure_eq_ok] at hmessage
    obtain ⟨_, -, parentIds, hparents, _, -, _, -, _, -, _, -, _, -, _, -, _, -, rfl⟩ := hmessage
    refine ⟨rfl, ?_⟩
    rw [hparents]
    rfl
  have hnodup : (pairs.map Prod.fst).Nodup := by
    rw [keys_of_forall₂ (R := fun _ p message => message.parentIds =
      ((textItems U N (getD p "parent_ids" (.arr []))).toOption).getD []) hitem]
    exact (keys_dictItems_sublist _).nodup hdistinct
  show (Dict.ofPairs pairs).map (fun p => (p.1, p.2.parentIds)) = _
  rw [Dict.ofPairs_of_nodup hnodup, payloadParents]
  refine (Correspond.map_eq_of_forall₂ (hitem.imp fun p q hq => ?_)).symm
  rw [hq.1, hq.2]

omit [Zero F] [DecidableEq F] in
lemma restoredIssue_eq_iff (issue : ImportIssue F) : restoredIssue issue = issue ↔
    Json.stripMembers issue.details = issue.details := by
  constructor
  · exact fun h => congrArg ImportIssue.details h
  · intro h
    rw [restoredIssue, h]

omit [Zero F] [DecidableEq F] in
/-- The issues that a payload names are stored as they are if and only if their details have no
null values. -/
lemma map_restoredIssue_eq_iff {payload : Mapping F} {issues : List (ImportIssue F)}
    (h : payloadIssues payload = .ok issues) :
    issues.map restoredIssue = issues ↔ DetailsClear payload := by
  rw [payloadIssues] at h
  obtain ⟨items, hitems, hread⟩ := Checks.bind_eq_ok.mp h
  obtain ⟨records, hsource, hissues⟩ : ∃ records : List (Mapping F),
      (∀ members : Mapping F, .obj members ∈ items ↔ members ∈ records) ∧
        records.mapM validateIssue = .ok issues := by
    refine ⟨_, fun members => ?_, hread⟩
    rw [List.mem_filterMap]
    constructor
    · exact fun hmem => ⟨_, hmem, rfl⟩
    · rintro ⟨item, hmem, hitem⟩
      cases item <;> simp only [Option.some.injEq, reduceCtorEq] at hitem
      exact hitem ▸ hmem
  rw [Checks.mapM_eq_ok] at hissues
  -- the details of an issue are those that the payload has
  have hdetails : ∀ {members : Mapping F} {issue}, validateIssue members = .ok issue →
      getD members "details" (.obj []) = .obj issue.details := by
    intro members issue hissue
    simp only [validateIssue, Checks.bind_eq_ok] at hissue
    obtain ⟨_, -, _, -, _, -, _, -, _, -, hissue⟩ := hissue
    split at hissue
    · rename_i details heq
      obtain rfl := Except.ok.inj hissue
      exact heq
    · cases hissue
  have hmap : issues.map restoredIssue = issues ↔
      ∀ issue ∈ issues, Json.stripMembers issue.details = issue.details := by
    have hid : issues.map restoredIssue = issues ↔ issues.map restoredIssue = issues.map id := by
      rw [List.map_id]
    rw [hid, List.map_inj_left]
    exact forall₂_congr fun issue _ => restoredIssue_eq_iff issue
  rw [hmap]
  constructor
  · intro hall items' hitems' members hmembers
    obtain rfl : items = items' := Except.ok.inj (hitems.symm.trans hitems')
    obtain ⟨issue, hissue, hread⟩ :=
      Checks.exists_of_mem_left hissues ((hsource members).mp hmembers)
    rw [hdetails hread, Json.stripNone_obj, hall issue hissue]
  · intro hclear issue hissue
    obtain ⟨members, hmembers, hread⟩ := Checks.exists_of_mem_right hissues hissue
    have hmember := hclear items hitems members ((hsource members).mpr hmembers)
    rw [hdetails hread, Json.stripNone_obj] at hmember
    exact Json.obj.inj hmember

/-- What is normalized from what is stored of a conversation. -/
lemma normalizeConversation_storedForm (hdoc : Documented U N T) {payload : Mapping F}
    {read : Conversation F} {issues : List (ImportIssue F)}
    (hread : readConversation U N T payload = .ok read)
    (hissues : validateConversation read = .ok issues) :
    normalizeConversation U N T (storedForm { read with
        reconstructionIssues := read.reconstructionIssues ++ issues }) =
      .ok { restored read with
        reconstructionIssues := (read.reconstructionIssues ++ issues).map restoredIssue ++ issues } := by
  have hnormal := conversationNormal_of_read hdoc hread
  have hstored := readConversation_storedForm (c := { read with
    reconstructionIssues := read.reconstructionIssues ++ issues }) hdoc
    ⟨hnormal.sourcePlatform, hnormal.createdAt, hnormal.updatedAt, hnormal.activeLeaf, hnormal.messages⟩
  have hvalid : validateConversation (restored { read with
      reconstructionIssues := read.reconstructionIssues ++ issues }) = .ok issues := by
    rw [← hissues]
    refine validateConversation_congr ?_ rfl
    rw [Conversation.parents, Conversation.parents, restored, List.map_map]
    rfl
  rw [normalizeConversation, hstored, Checks.ok_bind, hvalid]
  rfl

/-- A conversation is kept if and only if the checks of its graph report nothing and the issues of
its payload have no null values in their details. -/
theorem normalized_again_iff (hdoc : Documented U N T) {payload : Mapping F} {c : Conversation F}
    (hdistinct : ((dictOrEmpty (getD payload "messages" (.obj []))).map Prod.fst).Nodup)
    (hc : normalizeConversation U N T payload = .ok c) :
    (∃ c', normalizeConversation U N T (storedForm c) = .ok c' ∧ SameConversation U c c') ↔
      GraphClear (payloadParents U N payload) (activeLeaf U N payload) ∧ DetailsClear payload := by
  rw [normalizeConversation] at hc
  obtain ⟨read, hread, hc⟩ := Checks.bind_eq_ok.mp hc
  cases hissues : validateConversation read with
  | error key =>
      rw [hissues] at hc
      cases hc
  | ok issues =>
      rw [hissues] at hc
      obtain rfl := Checks.pure_eq_ok.mp hc
      have hagain := normalizeConversation_storedForm hdoc hread hissues
      have hnormal := conversationNormal_of_read hdoc hread
      have hpayload : read.activeLeafId = activeLeaf U N payload ∧
          payloadIssues payload = .ok read.reconstructionIssues := by
        simp only [readConversation, Checks.bind_eq_ok, Checks.pure_eq_ok] at hread
        obtain ⟨_, -, _, hnamed, _, -, _, -, _, -, _, -, _, -, rfl⟩ := hread
        exact ⟨rfl, hnamed⟩
      have hclear : issues = [] ↔ GraphClear (payloadParents U N payload) (activeLeaf U N payload) := by
        rw [validateConversation_eq_nil_iff hissues hnormal.activeLeaf, parents_of_read hdistinct hread,
          hpayload.1]
      rw [← hclear, ← map_restoredIssue_eq_iff hpayload.2]
      constructor
      · rintro ⟨c', hc', hsame⟩
        obtain rfl := Except.ok.inj (hagain.symm.trans hc')
        have hlist : (read.reconstructionIssues ++ issues).map restoredIssue ++ issues =
            read.reconstructionIssues ++ issues := hsame.reconstructionIssues
        have hnone : issues = [] := by
          have hlength := congrArg List.length hlist
          simp only [List.length_append, List.length_map] at hlength
          exact List.eq_nil_of_length_eq_zero (by omega)
        rw [hnone, List.append_nil, List.append_nil] at hlist
        exact ⟨hnone, hlist⟩
      · rintro ⟨rfl, hkept⟩
        refine ⟨_, hagain, ⟨?_, rfl, rfl, rfl, rfl, rfl, rfl, rfl, ?_⟩⟩
        · show List.Forall₂ _ read.messages (read.messages.map fun p => (p.1, restoredMessage p.2))
          rw [List.forall₂_map_right_iff, List.forall₂_same]
          exact fun p _ => ⟨rfl, sameMessage_restoredMessage U p.2⟩
        · show (read.reconstructionIssues ++ []).map restoredIssue ++ [] = read.reconstructionIssues ++ []
          rw [List.append_nil, List.append_nil, hkept]

end

/-! ### A conversation that is kept, and one that is not -/

/-- Dates of which one is known. -/
def epochDates : Datetimes ℕ where
  fromtimestamp _ := .error .overflowError
  fromisoformat text := .ok (if text = "1970-01-01T00:00:00+00:00".toList then some 0 else none)

lemma epochDates_documented : Documented basicLatin tenths epochDates := by
  refine ⟨fun _ _ => rfl, fun x => List.cons_ne_nil _ _, ?_⟩
  rintro seconds (⟨value, h⟩ | ⟨text, h⟩)
  · cases h
  · replace h := Except.ok.inj h
    split_ifs at h
    obtain rfl := Option.some.inj h
    decide

/-- A payload of one message. -/
def greetingPayload : Mapping ℕ :=
  [("active_leaf_id".toList, .str "a".toList),
    ("messages".toList, .obj [("a".toList, .obj [("role".toList, .str "human".toList),
      ("created_at".toList, .str "1970-01-01T00:00:00Z".toList),
      ("content_parts".toList, .arr [.str "hello".toList])])])]

/-- Its conversation. -/
def greeting : Conversation ℕ where
  activeLeafId := some "a".toList
  messages := [("a".toList,
    { sourceMessageId := "a".toList
      role := .user
      contentParts := [{ partType := "text".toList, text := some "hello".toList }]
      createdAt := some "1970-01-01T00:00:00Z".toList })]

lemma greeting_normalized :
    normalizeConversation basicLatin tenths epochDates greetingPayload = .ok greeting := by
  have hread : readConversation basicLatin tenths epochDates greetingPayload = .ok greeting := rfl
  have hvalid : validateConversation greeting = .ok [] := by
    refine @validateConversation_of_hasCycle _ greeting (fun _ => false) fun id hid => ?_
    obtain rfl : id = "a".toList := List.mem_singleton.mp hid
    rw [hasCycle, Successors.search_singleton]
    rfl
  rw [normalizeConversation, hread, Checks.ok_bind, hvalid]
  rfl

theorem normalized_again_iff_greeting :
    ∃ c', normalizeConversation basicLatin tenths epochDates (storedForm greeting) = .ok c' ∧
      SameConversation basicLatin greeting c' := by
  refine (normalized_again_iff epochDates_documented (by decide) greeting_normalized).mpr ⟨?_, ?_⟩
  · have hparents : payloadParents basicLatin tenths greetingPayload = [("a".toList, [])] := rfl
    rw [hparents]
    exact ⟨by decide, by decide, fun id hid => by rw [← Option.some.inj hid]; decide⟩
  · intro items hitems issue hissue
    obtain rfl : [] = items := Except.ok.inj hitems
    cases hissue

/-- A payload whose active leaf is missing. -/
def leaflessPayload : Mapping ℕ :=
  [("active_leaf_id".toList, .str "gone".toList), ("messages".toList, .obj [])]

/-- Its conversation. -/
def leafless : Conversation ℕ where
  activeLeafId := some "gone".toList
  messages := []
  reconstructionIssues := [missingActiveLeaf "gone".toList]

/-- A missing leaf is reported once more each time. -/
theorem not_normalized_again_leafless :
    normalizeConversation basicLatin tenths epochDates leaflessPayload = .ok leafless ∧
      ¬∃ c', normalizeConversation basicLatin tenths epochDates (storedForm leafless) = .ok c' ∧
        SameConversation basicLatin leafless c' := by
  refine ⟨rfl, ?_⟩
  rintro ⟨c', hc', hsame⟩
  have hagain : (normalizeConversation basicLatin tenths epochDates (storedForm leafless)).map
      (fun c => c.reconstructionIssues.length) = .ok 2 := rfl
  rw [hc', Except.map, hsame.reconstructionIssues] at hagain
  cases hagain

end Memorist.Reconstruction
