import Memorist.Reconstruction.Normalizer

/-!
The conversations of a ChatGPT export (`imports/adapters/chatgpt.py`).

* `chatgptActivePath`: the nodes from the current one up to a root;
* `normalizeChatgpt`: the payload of a conversation, from the mapping of its nodes;
* `NormalizedFrom`: a conversation that was normalized from one
  (`NormalizedFrom.get?_messages`: its messages by the nodes).
-/

namespace Memorist.Reconstruction

variable {F : Type} (U : UnicodeData) (N : Floats F) (T : Datetimes F) [Zero F] [DecidableEq F]

/-! ### Parts -/

/-- The types of parts that are not shown. -/
def isInternalReasoningType (value : Text) : Bool :=
  ["reasoning", "thought", "scratchpad"].any fun marker => marker.toList <:+: U.lowerText value

/-- `str(a or b or default)`. -/
def textOr (a b : Json F) (default : String) : Text :=
  strValue U N (pyOr a (pyOr b (.str default.toList)))

/-- A part of a content. -/
def chatgptPart (contentType : Text) (part : Json F) : Json F :=
  let quarantined : Json F := .obj [
    ("part_type".toList, .str "provider_internal_reasoning".toList),
    ("quarantined".toList, .bool true)]
  if isInternalReasoningType U contentType then quarantined
  else match part with
    | .str text => .obj [("part_type".toList, .str "text".toList), ("text".toList, .str text)]
    | .obj members =>
        let partType := textOr U N (Mapping.get members "content_type")
          (Mapping.get members "type") "unknown"
        if isInternalReasoningType U partType then quarantined
        else .obj [("part_type".toList, .str partType), ("raw".toList, .obj members)]
    | value => .obj [("part_type".toList, .str "unknown".toList),
        ("raw".toList, .str (strValue U N value))]

/-- The parts of a snapshot without the texts of internal reasoning. -/
def snapshotParts (contentType : Text) (parts : Json F) : Option (Json F) :=
  let quarantined : Json F := .obj [("quarantined".toList, .bool true)]
  if isInternalReasoningType U contentType then some (.arr [quarantined])
  else match parts with
    | .arr items => some (.arr (items.map fun
        | .obj part =>
            if isInternalReasoningType U (textOr U N (Mapping.get part "content_type")
              (Mapping.get part "type") "") then quarantined else .obj part
        | part => part))
    | _ => none

/-- A node without the texts of internal reasoning. -/
def providerSnapshot (node : Mapping F) : Mapping F :=
  match Mapping.get node "message" with
  | .obj message =>
      match Mapping.get message "content" with
      | .obj content =>
          let contentType := textOr U N (Mapping.get content "content_type") .null ""
          match snapshotParts U N contentType (Mapping.get content "parts") with
          | some parts => Dict.set node "message".toList (.obj (Dict.set message "content".toList
              (.obj (Dict.set content "parts".toList parts))))
          | none => node
      | _ => node
  | _ => node

/-! ### The active path -/

/-- The nodes from a cursor up, up to one that was met before. -/
def activeFrom (nodes : Mapping F) : Option Text → List Text → List Text
  | none, active => active
  | some cursor, active =>
      if _hstop : cursor = [] ∨ cursor ∈ active then active
      else match _hnode : Dict.get? nodes cursor with
        | some (.obj node) =>
            let parent := Mapping.get node "parent"
            activeFrom nodes (if truthyValue parent then some (strValue U N parent) else none)
              (cursor :: active)
        | _ => cursor :: active
  termination_by _ active => Successors.unseen nodes active
  decreasing_by exact Successors.unseen_cons_lt nodes (not_or.mp _hstop).2 _hnode

@[simp] lemma activeFrom_none (nodes : Mapping F) (active : List Text) :
    activeFrom U N nodes none active = active := by
  rw [activeFrom]

lemma activeFrom_of_stop (nodes : Mapping F) {cursor : Text} {active : List Text}
    (hstop : cursor = [] ∨ cursor ∈ active) :
    activeFrom U N nodes (some cursor) active = active := by
  rw [activeFrom, dif_pos hstop]

lemma activeFrom_of_node {nodes : Mapping F} {cursor : Text} {active : List Text}
    (hstop : ¬(cursor = [] ∨ cursor ∈ active)) {node : Mapping F}
    (hnode : Dict.get? nodes cursor = some (.obj node)) :
    activeFrom U N nodes (some cursor) active =
      activeFrom U N nodes (if truthyValue (Mapping.get node "parent") then
        some (strValue U N (Mapping.get node "parent")) else none) (cursor :: active) := by
  rw [activeFrom, dif_neg hstop]
  split
  · next node' hnode' =>
      obtain rfl : node = node' := Json.obj.inj (Option.some.inj (hnode.symm.trans hnode'))
      rfl
  · next hnone => exact absurd hnode (hnone node)

lemma activeFrom_of_not_node {nodes : Mapping F} {cursor : Text} {active : List Text}
    (hstop : ¬(cursor = [] ∨ cursor ∈ active))
    (hnode : ∀ node, Dict.get? nodes cursor ≠ some (.obj node)) :
    activeFrom U N nodes (some cursor) active = cursor :: active := by
  rw [activeFrom, dif_neg hstop]
  split
  · next node hnode' => exact absurd hnode' (hnode node)
  · rfl

/-- The walk keeps the nodes that it met. -/
lemma subset_activeFrom (nodes : Mapping F) (cursor : Option Text) (active : List Text) :
    active ⊆ activeFrom U N nodes cursor active := by
  induction cursor, active using activeFrom.induct U N nodes with
  | case1 active =>
      rw [activeFrom_none]
      exact List.Subset.refl active
  | case2 cursor active hstop =>
      rw [activeFrom_of_stop U N nodes hstop]
      exact List.Subset.refl active
  | case3 cursor active hstop node hnode parent =>
      rename_i ih
      rw [activeFrom_of_node U N hstop hnode]
      exact List.Subset.trans (List.subset_cons_self cursor active) ih
  | case4 cursor active hstop hnode =>
      rw [activeFrom_of_not_node U N hstop fun node h => hnode node h]
      exact List.subset_cons_self cursor active

/-- The walk meets a node that it starts at. -/
lemma mem_activeFrom (nodes : Mapping F) {cursor : Text} (hne : cursor ≠ []) :
    cursor ∈ activeFrom U N nodes (some cursor) [] := by
  have hstop : ¬(cursor = [] ∨ cursor ∈ []) := by simp [hne]
  by_cases hnode : ∃ node, Dict.get? nodes cursor = some (.obj node)
  · obtain ⟨node, hnode⟩ := hnode
    rw [activeFrom_of_node U N hstop hnode]
    exact subset_activeFrom U N nodes _ _ List.mem_cons_self
  · push Not at hnode
    rw [activeFrom_of_not_node U N hstop hnode]
    exact List.mem_cons_self

/-- The nodes from the current one up. -/
def chatgptActivePath (nodes : Mapping F) (currentNode : Json F) : List Text :=
  activeFrom U N nodes
    (match currentNode with
      | .null => none
      | node => some (strValue U N node)) []

lemma chatgptActivePath_null (nodes : Mapping F) : chatgptActivePath U N nodes .null = [] :=
  activeFrom_none U N nodes []

lemma chatgptActivePath_of_ne_null (nodes : Mapping F) {currentNode : Json F}
    (hnull : currentNode ≠ .null) : chatgptActivePath U N nodes currentNode =
      activeFrom U N nodes (some (strValue U N currentNode)) [] := by
  cases currentNode with
  | null => exact absurd rfl hnull
  | _ => rfl

/-! ### Conversations -/

/-- The attributes of an author, unless it is of another type. -/
def authorAttributes (author : Json F) : Except PayloadError (Mapping F) :=
  match pyOr author (.obj []) with
  | .obj members => .ok members
  | _ => .error .attributeError

/-- The parents of a node. -/
def chatgptParents (node : Mapping F) : List Text :=
  let parent := Mapping.get node "parent"
  if truthyValue parent then [strValue U N parent] else []

/-- The message of a node. -/
def chatgptMessage (conversation : Mapping F) (activePath : List Text) (id : Text)
    (node : Mapping F) : Except PayloadError (Mapping F) := do
  let sourceMessage := Mapping.get node "message"
  let message := dictOrEmpty sourceMessage
  let content := Mapping.get message "content"
  let contentType := textOr U N (Mapping.get (dictOrEmpty content) "content_type") .null ""
  let metadata := dictOrEmpty (Mapping.get message "metadata")
  let childIds ← textItems U N (getD node "children" (.arr []))
  let author ← authorAttributes (Mapping.get message "author")
  let createdAt ← normalizeTimestamp U N T (Mapping.get message "create_time")
  return [
    ("source_message_id".toList, .str id),
    ("parent_ids".toList, .arr ((chatgptParents U N node).map .str)),
    ("child_ids".toList, .arr (childIds.map .str)),
    ("role".toList, pyOr (Mapping.get author "role") (.str "unknown".toList)),
    ("creator_label".toList, Mapping.get author "name"),
    ("content_parts".toList, match Mapping.get (dictOrEmpty content) "parts" with
      | .arr parts => .arr (parts.map (chatgptPart U N contentType))
      | _ => .arr []),
    ("created_at".toList, textOrNull createdAt),
    ("timestamp_confidence".toList,
      .str (if truthyValue (Mapping.get message "create_time") then "provider" else "missing").toList),
    ("model_name".toList,
      pyOr (Mapping.get metadata "model_slug") (Mapping.get conversation "default_model_slug")),
    ("branch_status".toList, .str (if id ∈ activePath then "active" else "branch").toList),
    ("metadata".toList, .obj [
      ("provider".toList, .obj [("chatgpt".toList, .obj (providerSnapshot U N node))]),
      ("source_node_has_message".toList, .bool (match sourceMessage with
        | .obj _ => true
        | _ => false)),
      ("source_update_time".toList, Mapping.get message "update_time"),
      ("model_slug".toList, Mapping.get metadata "model_slug"),
      ("default_model_slug".toList, Mapping.get conversation "default_model_slug"),
      ("attachments".toList, getD metadata "attachments" (.arr []))])]

/-- The nodes of a conversation. -/
def chatgptNodes (conversation : Mapping F) : Mapping F :=
  dictOrEmpty (getD conversation "mapping" (.obj []))

/-- The messages of a conversation with their ids. -/
def chatgptMessages (conversation : Mapping F) : Except PayloadError (List (Text × Json F)) :=
  let nodes := chatgptNodes conversation
  let activePath := chatgptActivePath U N nodes (Mapping.get conversation "current_node")
  (dictItems nodes).mapM fun p => do
    let message ← chatgptMessage U N T conversation activePath p.1 p.2
    return (p.1, .obj message)

/-- The payload of a conversation. -/
def normalizeChatgpt (conversation : Mapping F) : Except PayloadError (Mapping F) := do
  let messages ← chatgptMessages U N T conversation
  let createdAt ← normalizeTimestamp U N T (Mapping.get conversation "create_time")
  let updatedAt ← normalizeTimestamp U N T (Mapping.get conversation "update_time")
  let roots := (dictItems (chatgptNodes conversation)).filter fun p =>
    ¬truthyValue (Mapping.get p.2 "parent")
  return [
    ("source_platform".toList, .str "chatgpt".toList),
    ("source_conversation_id".toList, Mapping.get conversation "id"),
    ("title".toList, Mapping.get conversation "title"),
    ("created_at".toList, textOrNull createdAt),
    ("updated_at".toList, textOrNull updatedAt),
    ("roots".toList, .arr (roots.map fun p => .str p.1)),
    ("active_leaf_id".toList, Mapping.get conversation "current_node"),
    ("messages".toList, .obj (Dict.ofPairs messages)),
    ("metadata".toList, .obj [("provider".toList, .obj [("chatgpt".toList, .obj conversation)])]),
    ("reconstruction_issues".toList, .arr [])]

/-! ### What is normalized -/

/-- A conversation that was normalized from one of an export, whose nodes have distinct ids. -/
structure NormalizedFrom (conversation : Mapping F) (c : Conversation F) : Prop where
  distinct : ((chatgptNodes conversation).map Prod.fst).Nodup
  normalized : ∃ payload, normalizeChatgpt U N T conversation = .ok payload ∧
    normalizeConversation U N T payload = .ok c

/-- The node of a message: its parents, and its mark. -/
def IsMessageOf (active : List Text) (id : Text) (node : Mapping F) (message : MessageNode F) : Prop :=
  message.parentIds = chatgptParents U N node ∧
    message.branchStatus = (if id ∈ active then "active" else "branch").toList

/-- A message is normalized twice, by the adapter and as part of its conversation. -/
lemma isMessageOf_of_normalize {conversation : Mapping F} {active : List Text} {id : Text}
    {node payload : Mapping F} {message : MessageNode F}
    (hpayload : chatgptMessage U N T conversation active id node = .ok payload)
    (hmessage : normalizeMessage U N T id payload = .ok message) :
    IsMessageOf U N active id node message := by
  simp only [chatgptMessage, Checks.bind_eq_ok, Checks.pure_eq_ok] at hpayload
  obtain ⟨childIds, -, author, -, createdAt, -, rfl⟩ := hpayload
  simp only [normalizeMessage, Checks.bind_eq_ok, Checks.pure_eq_ok] at hmessage
  obtain ⟨_, -, parentIds, hparents, _, -, _, -, _, -, _, -, _, -, _, -, status, hstatus, rfl⟩ := hmessage
  constructor
  · exact (Except.ok.inj ((textItems_strs U N (chatgptParents U N node)).symm.trans hparents)).symm
  · split_ifs at hstatus ⊢ <;> exact (Except.ok.inj hstatus).symm

omit [DecidableEq F] [Zero F] in
/-- The nodes that are of type `dict`. -/
lemma get?_dictItems {nodes : Mapping F} (hnodup : (nodes.map Prod.fst).Nodup) (id : Text)
    (node : Mapping F) :
    Dict.get? (dictItems nodes) id = some node ↔ Dict.get? nodes id = some (.obj node) := by
  induction nodes with
  | nil => simp [dictItems]
  | cons p nodes ih =>
      obtain ⟨key, value⟩ := p
      obtain ⟨hkey, hnodup⟩ := List.nodup_cons.mp hnodup
      have ih := ih hnodup
      have hitems : ∀ members, value = .obj members →
          dictItems ((key, value) :: nodes) = (key, members) :: dictItems nodes := by
        rintro members rfl
        rfl
      have hskip : (∀ members, value ≠ .obj members) →
          dictItems ((key, value) :: nodes) = dictItems nodes := by
        intro h
        cases value <;> first | rfl | exact absurd rfl (h _)
      rw [Dict.get?_cons]
      by_cases hobj : ∃ members, value = .obj members
      · obtain ⟨members, rfl⟩ := hobj
        rw [hitems members rfl, Dict.get?_cons]
        split_ifs
        · simp
        · exact ih
      · push Not at hobj
        rw [hskip hobj, ih]
        split_ifs with heq
        · have heq : key = id := heq
          subst heq
          rw [Dict.get?_of_not_mem hkey]
          simp [hobj]
        · rfl

omit [DecidableEq F] [Zero F] in
/-- Two dictionaries with the same keys in the same order. -/
lemma get?_of_forall₂ {α β : Type} {R : Text → α → β → Prop} {xs : Dict Text α} {ys : Dict Text β}
    (h : List.Forall₂ (fun x y => y.1 = x.1 ∧ R x.1 x.2 y.2) xs ys) (id : Text) :
    (∃ x y, Dict.get? xs id = some x ∧ Dict.get? ys id = some y ∧ R id x y) ∨
      Dict.get? xs id = none ∧ Dict.get? ys id = none := by
  induction h with
  | nil => exact .inr ⟨rfl, rfl⟩
  | @cons x y xs ys hxy _ ih =>
      rw [Dict.get?_cons, Dict.get?_cons, hxy.1]
      split_ifs with heq
      · exact .inl ⟨x.2, y.2, rfl, rfl, heq ▸ hxy.2⟩
      · exact ih

/-- The messages of the adapter, as the items of its payload. -/
lemma forall₂_of_chatgptMessages {conversation : Mapping F} {messages : List (Text × Json F)}
    (h : chatgptMessages U N T conversation = .ok messages) :
    List.Forall₂ (fun node message => message.1 = node.1 ∧
      chatgptMessage U N T conversation (chatgptActivePath U N (chatgptNodes conversation)
        (Mapping.get conversation "current_node")) node.1 node.2 = .ok message.2)
      (dictItems (chatgptNodes conversation)) (dictItems messages) ∧
    messages.map Prod.fst = (dictItems (chatgptNodes conversation)).map Prod.fst := by
  rw [chatgptMessages] at h
  replace h := Checks.mapM_eq_ok.mp h
  generalize dictItems (chatgptNodes conversation) = items at h
  induction h with
  | nil => exact ⟨.nil, rfl⟩
  | @cons item message items messages hitem _ ih =>
      simp only [Checks.bind_eq_ok, Checks.pure_eq_ok] at hitem
      obtain ⟨payload, hpayload, rfl⟩ := hitem
      exact ⟨.cons ⟨rfl, hpayload⟩ ih.1, congrArg (item.1 :: ·) ih.2⟩

/-- What the two normalizations make of a node holds of the messages. -/
lemma forall₂_normalized {conversation payload : Mapping F} {c : Conversation F}
    {R : Text → Mapping F → MessageNode F → Prop}
    (hdistinct : ((chatgptNodes conversation).map Prod.fst).Nodup)
    (hpayload : normalizeChatgpt U N T conversation = .ok payload)
    (hc : normalizeConversation U N T payload = .ok c)
    (hR : ∀ id node payload message,
      chatgptMessage U N T conversation (chatgptActivePath U N (chatgptNodes conversation)
        (Mapping.get conversation "current_node")) id node = .ok payload →
      normalizeMessage U N T id payload = .ok message → R id node message) :
    List.Forall₂ (fun node message => message.1 = node.1 ∧ R node.1 node.2 message.2)
      (dictItems (chatgptNodes conversation)) c.messages ∧
    c.activeLeafId = if truthyValue (Mapping.get conversation "current_node") then
      some (strValue U N (Mapping.get conversation "current_node")) else none := by
  simp only [normalizeChatgpt, Checks.bind_eq_ok, Checks.pure_eq_ok] at hpayload
  obtain ⟨messages, hmessages, createdAt, -, updatedAt, -, rfl⟩ := hpayload
  obtain ⟨hpayloads, hkeys⟩ := forall₂_of_chatgptMessages U N T hmessages
  have hitems : ((dictItems (chatgptNodes conversation)).map Prod.fst).Nodup :=
    (keys_dictItems_sublist _).nodup hdistinct
  rw [normalizeConversation, Checks.bind_eq_ok] at hc
  obtain ⟨read, hread, hc⟩ := hc
  have hcread : c.messages = read.messages ∧ c.activeLeafId = read.activeLeafId := by
    split at hc
    · obtain rfl := Checks.pure_eq_ok.mp hc
      exact ⟨rfl, rfl⟩
    · cases hc
  simp only [readConversation, Checks.bind_eq_ok, Checks.pure_eq_ok] at hread
  obtain ⟨pairs, hpairs, _, -, _, -, _, -, _, -, _, -, _, -, rfl⟩ := hread
  rw [hcread.1, hcread.2]
  refine ⟨?_, rfl⟩
  replace hpairs : (dictItems (Dict.ofPairs messages)).mapM (fun p => do
      let message ← normalizeMessage U N T p.1 p.2
      return (p.1, message)) = .ok pairs := hpairs
  rw [Dict.ofPairs_of_nodup (hkeys.symm ▸ hitems), Checks.mapM_eq_ok] at hpairs
  have hall : List.Forall₂ (fun node message => message.1 = node.1 ∧ R node.1 node.2 message.2)
      (dictItems (chatgptNodes conversation)) pairs := by
    generalize dictItems messages = payloads at hpayloads hpairs
    generalize dictItems (chatgptNodes conversation) = items at hpayloads
    clear hkeys hitems hcread hc
    induction hpayloads generalizing pairs with
    | nil =>
        rw [List.forall₂_nil_left_iff] at hpairs
        rw [hpairs]
        exact .nil
    | @cons node payload nodes payloads hpayload _ ih =>
        obtain ⟨message, pairs, hmessage, htail, rfl⟩ := List.forall₂_cons_left_iff.mp hpairs
        simp only [Checks.bind_eq_ok, Checks.pure_eq_ok] at hmessage
        obtain ⟨message, hmessage, rfl⟩ := hmessage
        rw [hpayload.1] at hmessage
        exact .cons ⟨hpayload.1, hR _ _ _ _ hpayload.2 hmessage⟩ (ih pairs htail)
  have hdict : Dict.ofPairs pairs = pairs :=
    Dict.ofPairs_of_nodup ((keys_of_forall₂ hall).symm ▸ hitems)
  show List.Forall₂ _ _ (Dict.ofPairs pairs)
  rw [hdict]
  exact hall

namespace NormalizedFrom

variable {U N T} {conversation : Mapping F} {c : Conversation F}

/-- The messages are those of the nodes, and the active leaf is the current node. -/
lemma forall₂_messages (h : NormalizedFrom U N T conversation c) :
    List.Forall₂ (fun node message => message.1 = node.1 ∧
        IsMessageOf U N (chatgptActivePath U N (chatgptNodes conversation)
          (Mapping.get conversation "current_node")) node.1 node.2 message.2)
      (dictItems (chatgptNodes conversation)) c.messages ∧
    c.activeLeafId = if truthyValue (Mapping.get conversation "current_node") then
      some (strValue U N (Mapping.get conversation "current_node")) else none := by
  obtain ⟨payload, hpayload, hc⟩ := h.normalized
  exact forall₂_normalized U N T h.distinct hpayload hc fun _ _ _ _ hpayload hmessage =>
    isMessageOf_of_normalize U N T hpayload hmessage

/-- An id names a message if and only if it names a node, which its parents and its mark are of. -/
lemma get?_messages (h : NormalizedFrom U N T conversation c) (id : Text) :
    (∃ node message, Dict.get? (chatgptNodes conversation) id = some (.obj node) ∧
      Dict.get? c.messages id = some message ∧ IsMessageOf U N (chatgptActivePath U N
        (chatgptNodes conversation) (Mapping.get conversation "current_node")) id node message) ∨
    (∀ node, Dict.get? (chatgptNodes conversation) id ≠ some (.obj node)) ∧
      Dict.get? c.messages id = none := by
  rcases get?_of_forall₂ h.forall₂_messages.1 id with ⟨node, message, hnode, hmessage, hof⟩ | ⟨hnode, hnone⟩
  · exact .inl ⟨node, message, (get?_dictItems h.distinct id node).mp hnode, hmessage, hof⟩
  · refine .inr ⟨fun node hget => ?_, hnone⟩
    rw [(get?_dictItems h.distinct id node).mpr hget] at hnode
    cases hnode

end NormalizedFrom

end Memorist.Reconstruction
