import Memorist.Library.JsonStrings
import Memorist.Reconstruction.Chatgpt

/-!
What is left of the internal reasoning of a ChatGPT export (`imports/adapters/chatgpt.py` and
`imports/reconstruction/content_parts.py`).

* `reasoningTexts`: the texts of the contents and parts that are internal reasoning;
* `ReasoningRemoved`: none of them is in the payload, and their parts are quarantined;
* `reasoningRemoved_iff`: the exports of which this holds. The payload holds a copy of the
  conversation, so these are the ones that have no such text.
-/

namespace Memorist.Reconstruction

variable {F : Type}

variable (U : UnicodeData) (N : Floats F) (T : Datetimes F) [Zero F] [DecidableEq F]

/-! ### The texts of internal reasoning -/

/-- The texts of the members of an object, but for those that name its type. -/
def textsBeside (names : List String) (members : Mapping F) : List Text :=
  (members.filter fun p => p.1 ∉ names.map String.toList).flatMap fun p => p.2.strings

/-- The content of the message of a node. -/
def nodeContent (node : Mapping F) : Json F :=
  Mapping.get (dictOrEmpty (Mapping.get node "message")) "content"

/-- The type of a content. -/
def contentTypeOf (content : Json F) : Text :=
  textOr U N (Mapping.get (dictOrEmpty content) "content_type") .null ""

/-- The parts of a content. -/
def partsOf (content : Json F) : List (Json F) :=
  match Mapping.get (dictOrEmpty content) "parts" with
  | .arr parts => parts
  | _ => []

/-- A part whose own type is internal reasoning. -/
def isReasoningPart : Json F → Bool
  | .obj part => isInternalReasoningType U
      (textOr U N (Mapping.get part "content_type") (Mapping.get part "type") "unknown")
  | _ => false

/-- The texts of a content that are internal reasoning. -/
def contentReasoning (content : Json F) : List Text :=
  if isInternalReasoningType U (contentTypeOf U N content) then
    textsBeside ["content_type"] (dictOrEmpty content)
  else ((partsOf content).filter (isReasoningPart U N)).flatMap fun part =>
    textsBeside ["content_type", "type"] (dictOrEmpty part)

/-- The texts of a conversation that are internal reasoning. -/
def reasoningTexts (conversation : Mapping F) : List Text :=
  (dictItems (chatgptNodes conversation)).flatMap fun p => contentReasoning U N (nodeContent p.2)

/-! ### What is to become of them -/

/-- A part of a message that holds nothing of what it was made of. -/
structure Quarantined (message : MessageNode F) (i : ℕ) (part : ContentPart F) : Prop where
  at_index : message.contentParts[i]? = some part
  quarantined : part.quarantined
  text_eq : part.text = none
  raw_strings : part.raw.strings = ["provider_internal_reasoning".toList]
  visible_eq : visibleText U (message.contentParts.eraseIdx i) = visibleText U message.contentParts

/-- The parts of the messages that are internal reasoning are quarantined. -/
def ReasoningQuarantined (conversation : Mapping F) (c : Conversation F) : Prop :=
  ∀ id node, Dict.get? (chatgptNodes conversation) id = some (.obj node) →
    ∃ message, Dict.get? c.messages id = some message ∧
      ∀ i part, (partsOf (nodeContent node))[i]? = some part →
        isInternalReasoningType U (contentTypeOf U N (nodeContent node)) ∨ isReasoningPart U N part →
        ∃ kept, Quarantined U message i kept

/-- No text of internal reasoning is in the payload of a conversation, and what is normalized from
it quarantines the parts. -/
def ReasoningRemoved (conversation payload : Mapping F) : Prop :=
  (∀ text ∈ reasoningTexts U N conversation, text ≠ [] → ¬Json.OccursIn text (.obj payload)) ∧
    ∀ c, normalizeConversation U N T payload = .ok c → ReasoningQuarantined U N conversation c

/-! ### The parts are quarantined -/

variable {U N}

/-- What the adapter makes of a part of internal reasoning. -/
def quarantinedPart : Json F := .obj [
  ("part_type".toList, .str "provider_internal_reasoning".toList),
  ("quarantined".toList, .bool true)]

/-- A part without the text of internal reasoning. -/
def quarantined : ContentPart F where
  partType := "provider_internal_reasoning".toList
  raw := quarantinedPart
  quarantined := true

omit [DecidableEq F] [Zero F] in
lemma strings_quarantinedPart :
    (quarantinedPart : Json F).strings = ["provider_internal_reasoning".toList] := by
  rw [quarantinedPart, Json.strings_obj, List.flatMap_cons, List.flatMap_cons, Json.strings_str,
    Json.strings]
  rfl

lemma normalizeContentPart_quarantinedPart (hlower : LowersAscii U) :
    normalizeContentPart U N quarantinedPart = .ok quarantined := by
  have hget : Mapping.get [("part_type".toList, .str "provider_internal_reasoning".toList),
      ("quarantined".toList, .bool true)] "part_type" =
      (.str "provider_internal_reasoning".toList : Json F) := rfl
  have htype : ∀ other : Json F, strValue U N (pyOr (.str "provider_internal_reasoning".toList) other) =
      "provider_internal_reasoning".toList := by
    intro other
    have htruthy : truthyValue (.str "provider_internal_reasoning".toList : Json F) = true := by
      rw [truthyValue]
      decide
    rw [pyOr, if_pos htruthy, strValue_str]
  refine normalizeContentPart_of_reasoning ?_
  rw [hget, htype]
  exact isInfix_reasoning hlower

/-- What the adapter makes of a part of internal reasoning is quarantined. -/
lemma normalizeContentPart_chatgptPart (hlower : LowersAscii U) {contentType : Text} {part : Json F}
    (h : isInternalReasoningType U contentType ∨ isReasoningPart U N part) :
    normalizeContentPart U N (chatgptPart U N contentType part) = .ok quarantined := by
  have hpart : chatgptPart U N contentType part = quarantinedPart := by
    by_cases htype : isInternalReasoningType U contentType
    · unfold chatgptPart
      exact if_pos htype
    · rcases h with h | h
      · exact absurd h htype
      · cases part with
        | obj members =>
            have hown : isInternalReasoningType U (textOr U N (Mapping.get members "content_type")
              (Mapping.get members "type") "unknown") := h
            simp only [chatgptPart, if_neg htype, if_pos hown]
            rfl
        | _ => cases h
  rw [hpart]
  exact normalizeContentPart_quarantinedPart hlower

variable (U N) in
/-- The parts of a message are what is made of those of its node. -/
def PartsNormalized (node : Mapping F) (message : MessageNode F) : Prop :=
  List.Forall₂ (fun part kept => normalizeContentPart U N
    (chatgptPart U N (contentTypeOf U N (nodeContent node)) part) = .ok kept)
    (partsOf (nodeContent node)) message.contentParts

lemma partsNormalized_of_normalize {conversation : Mapping F} {active : List Text} {id : Text}
    {node payload : Mapping F} {message : MessageNode F}
    (hpayload : chatgptMessage U N T conversation active id node = .ok payload)
    (hmessage : normalizeMessage U N T id payload = .ok message) :
    PartsNormalized U N node message := by
  simp only [chatgptMessage, Checks.bind_eq_ok, Checks.pure_eq_ok] at hpayload
  obtain ⟨childIds, -, author, -, createdAt, -, rfl⟩ := hpayload
  simp only [normalizeMessage, Checks.bind_eq_ok, Checks.pure_eq_ok] at hmessage
  obtain ⟨_, -, _, -, _, -, _, -, contentParts, hparts, _, -, _, -, _, -, _, -, rfl⟩ := hmessage
  replace hparts : normalizeContentParts U N (match Mapping.get (dictOrEmpty (nodeContent node)) "parts" with
      | .arr parts => .arr (parts.map (chatgptPart U N (contentTypeOf U N (nodeContent node))))
      | _ => .arr []) = .ok contentParts := hparts
  show List.Forall₂ _ _ contentParts
  rw [partsOf]
  split at hparts
  · rw [normalizeContentParts, Checks.mapM_eq_ok, List.forall₂_map_left_iff] at hparts
    exact hparts
  · rw [normalizeContentParts, Checks.mapM_eq_ok, List.forall₂_nil_left_iff] at hparts
    rw [hparts]
    exact .nil

/-- The parts of internal reasoning are quarantined. -/
lemma reasoningQuarantined_of_normalize (hlower : LowersAscii U) {conversation payload : Mapping F}
    {c : Conversation F} (hdistinct : ((chatgptNodes conversation).map Prod.fst).Nodup)
    (hpayload : normalizeChatgpt U N T conversation = .ok payload)
    (hc : normalizeConversation U N T payload = .ok c) : ReasoningQuarantined U N conversation c := by
  intro id node hnode
  have hmessages := (forall₂_normalized U N T hdistinct hpayload hc
    (R := fun _ node message => PartsNormalized U N node message)
    fun _ _ _ _ hpayload hmessage => partsNormalized_of_normalize T hpayload hmessage).1
  have hitem := (get?_dictItems hdistinct id node).mpr hnode
  rcases get?_of_forall₂ (R := fun _ node message => PartsNormalized U N node message) hmessages id with ⟨node', message, hnode', hmessage, hparts⟩ | ⟨hnone, -⟩
  · obtain rfl : node = node' := Option.some.inj (hitem.symm.trans hnode')
    refine ⟨message, hmessage, fun i part hpart hreasoning => ?_⟩
    obtain ⟨hlength, hall⟩ := List.forall₂_iff_get.mp hparts
    obtain ⟨hi, rfl⟩ := List.getElem?_eq_some_iff.mp hpart
    have hi' : i < message.contentParts.length := hlength ▸ hi
    have hkept : Except.ok quarantined = Except.ok message.contentParts[i] :=
      (normalizeContentPart_chatgptPart hlower hreasoning).symm.trans (hall i hi hi')
    have hget : message.contentParts[i]? = some quarantined := by
      rw [List.getElem?_eq_getElem hi', ← Except.ok.inj hkept]
    exact ⟨quarantined, hget, rfl, rfl, strings_quarantinedPart, visibleText_eraseIdx U hget rfl⟩
  · rw [hitem] at hnone
    cases hnone

/-! ### The copy of the conversation -/

omit [DecidableEq F] [Zero F] in
lemma strings_get_subset (members : Mapping F) (key : String) :
    (Mapping.get members key).strings ⊆ (Json.obj members).strings := by
  intro s hs
  rw [Mapping.get] at hs
  cases hget : Dict.get? members key.toList with
  | none =>
      rw [hget, Option.getD_none, Json.strings] at hs
      cases hs
  | some value =>
      rw [hget, Option.getD_some] at hs
      exact Json.strings_subset_of_mem_members (Dict.mem_of_get? hget) hs

omit [DecidableEq F] [Zero F] in
lemma strings_dictOrEmpty_subset (value : Json F) :
    (Json.obj (dictOrEmpty value)).strings ⊆ value.strings := by
  cases value <;> simp [dictOrEmpty]

omit [DecidableEq F] [Zero F] in
lemma textsBeside_subset (names : List String) (value : Json F) :
    textsBeside names (dictOrEmpty value) ⊆ value.strings := by
  intro text htext
  obtain ⟨p, hp, htext⟩ := List.mem_flatMap.mp htext
  exact strings_dictOrEmpty_subset value
    (Json.strings_subset_of_mem_members (List.mem_of_mem_filter hp) htext)

omit [DecidableEq F] [Zero F] in
/-- The parts of a content are among its values. -/
lemma strings_subset_of_mem_partsOf {content part : Json F} (hpart : part ∈ partsOf content) :
    part.strings ⊆ content.strings := by
  intro s hs
  refine strings_dictOrEmpty_subset content (strings_get_subset _ "parts" ?_)
  rw [partsOf] at hpart
  split at hpart
  · rename_i parts heq
    rw [heq]
    exact Json.strings_subset_of_mem_items hpart hs
  · cases hpart

/-- The texts of internal reasoning are texts of their content. -/
lemma contentReasoning_subset (content : Json F) : contentReasoning U N content ⊆ content.strings := by
  intro text htext
  rw [contentReasoning] at htext
  split_ifs at htext
  · exact textsBeside_subset _ content htext
  · obtain ⟨part, hpart, htext⟩ := List.mem_flatMap.mp htext
    exact strings_subset_of_mem_partsOf (List.mem_of_mem_filter hpart) (textsBeside_subset _ part htext)

/-- The texts of internal reasoning are texts of their conversation. -/
lemma reasoningTexts_subset (conversation : Mapping F) :
    reasoningTexts U N conversation ⊆ (Json.obj conversation).strings := by
  intro text htext
  obtain ⟨⟨id, node⟩, hnode, htext⟩ := List.mem_flatMap.mp htext
  have hcontent : text ∈ (Json.obj node).strings :=
    strings_get_subset node "message" (strings_dictOrEmpty_subset _
      (strings_get_subset _ "content" (contentReasoning_subset _ htext)))
  have hmapping : text ∈ (Json.obj (chatgptNodes conversation)).strings := by
    obtain ⟨⟨key, value⟩, hmem, hvalue⟩ := List.mem_filterMap.mp hnode
    refine Json.strings_subset_of_mem_members hmem ?_
    cases value <;> simp only [Option.some.injEq, Prod.mk.injEq, reduceCtorEq] at hvalue
    rw [hvalue.2]
    exact hcontent
  refine strings_get_subset conversation "mapping" ?_
  have hnodes := strings_dictOrEmpty_subset _ hmapping
  rw [getD] at hnodes
  rw [Mapping.get]
  cases hget : Dict.get? conversation "mapping".toList with
  | none =>
      rw [hget, Option.getD_none, Json.strings_obj] at hnodes
      cases hnodes
  | some value =>
      rw [hget] at hnodes
      exact hnodes

/-- The payload of a conversation holds its texts. -/
lemma strings_subset_normalizeChatgpt {conversation payload : Mapping F}
    (hpayload : normalizeChatgpt U N T conversation = .ok payload) :
    (Json.obj conversation).strings ⊆ (Json.obj payload).strings := by
  simp only [normalizeChatgpt, Checks.bind_eq_ok, Checks.pure_eq_ok] at hpayload
  obtain ⟨messages, -, createdAt, -, updatedAt, -, rfl⟩ := hpayload
  intro s hs
  -- the copy is a member of a member of the metadata
  have hprovider : s ∈ (Json.obj [("chatgpt".toList, Json.obj conversation)]).strings :=
    Json.strings_subset_of_mem_members List.mem_cons_self hs
  have hmetadata : s ∈ (Json.obj [("provider".toList,
      Json.obj [("chatgpt".toList, Json.obj conversation)])]).strings :=
    Json.strings_subset_of_mem_members List.mem_cons_self hprovider
  exact @Json.strings_subset_of_mem_members F _ "metadata".toList _ (by simp) s hmetadata

/-- The texts of internal reasoning are in the payload. -/
lemma reasoning_occursIn {conversation payload : Mapping F}
    (hpayload : normalizeChatgpt U N T conversation = .ok payload) {text : Text}
    (htext : text ∈ reasoningTexts U N conversation) : Json.OccursIn text (.obj payload) :=
  Json.occursIn_of_mem_strings
    (strings_subset_normalizeChatgpt T hpayload (reasoningTexts_subset conversation htext))

/-- Internal reasoning is removed if and only if there is no text of it. -/
theorem reasoningRemoved_iff (hlower : LowersAscii U) {conversation payload : Mapping F}
    (hdistinct : ((chatgptNodes conversation).map Prod.fst).Nodup)
    (hpayload : normalizeChatgpt U N T conversation = .ok payload) :
    ReasoningRemoved U N T conversation payload ↔
      ∀ text ∈ reasoningTexts U N conversation, text = [] := by
  have hparts : ∀ c, normalizeConversation U N T payload = .ok c →
      ReasoningQuarantined U N conversation c := fun c hc =>
    reasoningQuarantined_of_normalize T hlower hdistinct hpayload hc
  constructor
  · rintro ⟨hnone, -⟩ text htext
    by_contra hne
    exact hnone text htext hne (reasoning_occursIn T hpayload htext)
  · intro hempty
    exact ⟨fun text htext hne => absurd (hempty text htext) hne, hparts⟩

/-- An export of one node, with a message of some parts. -/
def messageOf (contentType : String) (parts : List (Json ℕ)) : Mapping ℕ :=
  [("mapping".toList, .obj [("a".toList, .obj [("message".toList, .obj [("content".toList, .obj [
    ("content_type".toList, .str contentType.toList), ("parts".toList, .arr parts)])])])])]

lemma messageOf_normalized (contentType : String) (parts : List (Json ℕ)) : ∃ payload,
    normalizeChatgpt basicLatin tenths plainDates (messageOf contentType parts) = .ok payload := by
  have hactive : chatgptActivePath basicLatin tenths (chatgptNodes (messageOf contentType parts))
      (Mapping.get (messageOf contentType parts) "current_node") = [] := chatgptActivePath_null _ _ _
  exact ⟨_, by rw [normalizeChatgpt, chatgptMessages, hactive]; rfl⟩

/-- A message with a part of internal reasoning that has no text, and a text that is shown. -/
def greetingParts : Mapping ℕ :=
  messageOf "multimodal_text" [.obj [("content_type".toList, .str "reasoning".toList),
    ("duration".toList, .int 3)], .str "Hello".toList]

lemma greetingParts_normalized : ∃ payload c,
    normalizeChatgpt basicLatin tenths plainDates greetingParts = .ok payload ∧
      normalizeConversation basicLatin tenths plainDates payload = .ok c := by
  have hactive : chatgptActivePath basicLatin tenths (chatgptNodes greetingParts)
      (Mapping.get greetingParts "current_node") = [] := chatgptActivePath_null _ _ _
  have hread : ∃ payload c, normalizeChatgpt basicLatin tenths plainDates greetingParts = .ok payload ∧
      readConversation basicLatin tenths plainDates payload = .ok c ∧
        c.parents = [("a".toList, [])] :=
    ⟨_, _, by rw [normalizeChatgpt, chatgptMessages, hactive]; rfl, rfl, rfl⟩
  obtain ⟨payload, c, hpayload, hc, hparents⟩ := hread
  have hvalid : validateConversation c = .ok (reported c fun _ => false) := by
    refine validateConversation_of_hasCycle c fun id hid => ?_
    have hmem : id ∈ c.parents.map Prod.fst := by
      rw [Conversation.parents, List.map_map]
      exact hid
    rw [hparents] at hmem
    obtain rfl := List.mem_singleton.mp hmem
    rw [hasCycle, Successors.search_singleton, hparents]
    rfl
  refine ⟨payload, { c with
    reconstructionIssues := c.reconstructionIssues ++ reported c fun _ => false }, hpayload, ?_⟩
  rw [normalizeConversation, hc, Checks.ok_bind, hvalid]
  rfl

theorem reasoningRemoved_iff_parts : ∃ payload c,
    normalizeChatgpt basicLatin tenths plainDates greetingParts = .ok payload ∧
      normalizeConversation basicLatin tenths plainDates payload = .ok c ∧
      ReasoningQuarantined basicLatin tenths greetingParts c ∧
      ReasoningRemoved basicLatin tenths plainDates greetingParts payload := by
  obtain ⟨payload, c, hpayload, hc⟩ := greetingParts_normalized
  have hremoved : ReasoningRemoved basicLatin tenths plainDates greetingParts payload :=
    (reasoningRemoved_iff plainDates (fun _ _ => rfl) (by decide) hpayload).mpr (by decide)
  exact ⟨payload, c, hpayload, hc, hremoved.2 c hc, hremoved⟩

/-- A thought is copied with its conversation. -/
theorem not_reasoningRemoved_thoughts : ∃ payload,
    normalizeChatgpt basicLatin tenths plainDates
        (messageOf "thoughts" [.str "to be kept".toList]) = .ok payload ∧
      ¬ReasoningRemoved basicLatin tenths plainDates
        (messageOf "thoughts" [.str "to be kept".toList]) payload := by
  obtain ⟨payload, hpayload⟩ := messageOf_normalized "thoughts" [.str "to be kept".toList]
  refine ⟨payload, hpayload, fun hremoved => ?_⟩
  have htext : "to be kept".toList ∈ reasoningTexts basicLatin tenths
      (messageOf "thoughts" [.str "to be kept".toList]) := by decide
  exact hremoved.1 _ htext (by decide) (reasoning_occursIn plainDates hpayload htext)

end Memorist.Reconstruction
