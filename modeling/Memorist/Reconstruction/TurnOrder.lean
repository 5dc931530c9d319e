import Memorist.Library.KeySort
import Memorist.Reconstruction.Normalizer

/-!
The order of the messages of an imported conversation (`_commit_conversation` in
`imports/service.py`, `create_message` in `repositories/domain.py`); their mappings and schedules
are those of `Memorist.Imports.Commit`.

* `orderedMessages`, `createMessage`, `commitMessages`: the messages in the order they are created,
  each with the next turn index of its session;
* `KeepsOrder`, `keepsOrder_iff`: when every message comes after its parents.
-/

namespace Memorist.Reconstruction

variable {F : Type} (U : UnicodeData)

/-! ### Rows -/

/-- The role of a stored message. -/
inductive MessageRole where
  | user
  | assistant
  | system
  | tool
  deriving DecidableEq, Repr

/-- Who created a stored message. -/
inductive CreatorType where
  | user
  | model
  | tool
  | memoryAugmentedModel
  | system
  deriving DecidableEq, Repr

/-- A stored message, with what its snapshot says of its source. -/
structure MessageRow where
  messageUuid : String
  sessionUuid : String
  turnIndex : ℤ
  role : MessageRole
  creatorType : CreatorType
  rawText : Text
  sourceMessageId : Text
  providerTimestamp : Option Text
  branchStatus : Text
  parentMessageUuid : Option String := none
  deriving DecidableEq

/-- The stored role of a source role. -/
def messageRole : ImportedRole → MessageRole
  | .assistant => .assistant
  | .tool => .tool
  | .user => .user
  | _ => .system

/-- Who created a message of a source role. -/
def creatorType : ImportedRole → CreatorType
  | .assistant => .model
  | .tool => .tool
  | .system => .system
  | _ => .user

/-! ### The commit -/

/-- The rows of a session. -/
def sessionRows (session : String) (table : List MessageRow) : List MessageRow :=
  table.filter fun row => row.sessionUuid = session

/-- The turn after the last of a session. -/
def nextTurnIndex (session : String) (table : List MessageRow) : ℤ :=
  ((sessionRows session table).map MessageRow.turnIndex).max?.getD (-1) + 1

/-- The row of a message at a turn. -/
def messageRow (session messageUuid : String) (turnIndex : ℤ) (id : Text)
    (message : MessageNode F) : MessageRow where
  messageUuid := messageUuid
  sessionUuid := session
  turnIndex := turnIndex
  role := messageRole message.role
  creatorType := creatorType message.role
  rawText := visibleText U message.contentParts
  sourceMessageId := id
  providerTimestamp := message.createdAt
  branchStatus := message.branchStatus

/-- Create a message at the next turn of its session. -/
def createMessage (session messageUuid : String) (id : Text) (message : MessageNode F)
    (table : List MessageRow) : List MessageRow :=
  table ++ [messageRow U session messageUuid (nextTurnIndex session table) id message]

/-- What messages are sorted by: whether the time is missing, the time, the id. -/
def orderKey (p : Text × MessageNode F) : Bool ×ₗ Text ×ₗ Text :=
  toLex (p.2.createdAt.isNone, toLex (p.2.createdAt.getD [], p.1))

/-- The messages in the order they are created. -/
def orderedMessages (c : Conversation F) : List (Text × MessageNode F) :=
  KeySort.sortBy orderKey c.messages

/-- Create messages one after the other, under the uuids that are drawn for their ids. -/
def commitMessages (session : String) (uuid : Text → String) (messages : List (Text × MessageNode F))
    (table : List MessageRow) : List MessageRow :=
  messages.foldl (fun table p => createMessage U session (uuid p.1) p.1 p.2 table) table

/-- Set the first parent of a message, if it was created. -/
def linkParent (uuid : Text → String) (c : Conversation F) (table : List MessageRow)
    (p : Text × MessageNode F) : List MessageRow :=
  match p.2.parentIds.head? with
  | some parent =>
      if c.Names parent then table.map fun row =>
        if row.messageUuid = uuid p.1 then { row with parentMessageUuid := some (uuid parent) } else row
      else table
  | none => table

/-- Create the messages of a conversation in a session, and set their parents. -/
def commitConversation (session : String) (uuid : Text → String) (c : Conversation F)
    (table : List MessageRow) : List MessageRow :=
  (orderedMessages c).foldl (linkParent uuid c)
    (commitMessages U session uuid (orderedMessages c) table)

/-! ### Turns -/

/-- The source messages of a session with their turns. -/
def turns (session : String) (table : List MessageRow) : List (Text × ℤ) :=
  (sessionRows session table).map fun row => (row.sourceMessageId, row.turnIndex)

/-- A session with the first turns goes on with the next. -/
lemma nextTurnIndex_eq {session : String} {table : List MessageRow} {k : ℕ}
    (h : (sessionRows session table).map MessageRow.turnIndex = (List.range k).map Nat.cast) :
    nextTurnIndex session table = k := by
  rw [nextTurnIndex, h]
  cases k with
  | zero => rfl
  | succ k =>
      have hmax : ((List.range (k + 1)).map (Nat.cast : ℕ → ℤ)).max? = some (k : ℤ) := by
        rw [List.max?_eq_some_iff]
        refine ⟨List.mem_map_of_mem (List.mem_range.mpr k.lt_succ_self), ?_⟩
        intro turn hturn
        obtain ⟨i, hi, rfl⟩ := List.mem_map.mp hturn
        exact Int.ofNat_le.mpr (Nat.le_of_lt_succ (List.mem_range.mp hi))
      rw [hmax, Option.getD_some, Nat.cast_succ]

/-- Messages are created at one turn after the other. -/
lemma sessionRows_commitMessages (session : String) (uuid : Text → String)
    (messages : List (Text × MessageNode F)) (table : List MessageRow) (k : ℕ)
    (h : (sessionRows session table).map MessageRow.turnIndex = (List.range k).map Nat.cast) :
    sessionRows session (commitMessages U session uuid messages table) =
      sessionRows session table ++ (messages.zipIdx k).map fun q =>
        messageRow U session (uuid q.1.1) q.2 q.1.1 q.1.2 := by
  induction messages generalizing table k with
  | nil => exact (List.append_nil _).symm
  | cons p messages ih =>
      have hrows : sessionRows session (createMessage U session (uuid p.1) p.1 p.2 table) =
          sessionRows session table ++ [messageRow U session (uuid p.1) k p.1 p.2] := by
        rw [createMessage, nextTurnIndex_eq h, sessionRows, List.filter_append]
        exact congrArg (sessionRows session table ++ ·)
          (List.filter_cons_of_pos (decide_eq_true rfl))
      have hnext : (sessionRows session (createMessage U session (uuid p.1) p.1 p.2 table)).map
          MessageRow.turnIndex = (List.range (k + 1)).map Nat.cast := by
        rw [hrows, List.map_append, h, List.range_succ, List.map_append]
        rfl
      have hrest := ih _ (k + 1) hnext
      rw [hrows, List.append_assoc] at hrest
      exact hrest

/-- Changing what else the rows hold changes no turn. -/
lemma turns_map (session : String) {f : MessageRow → MessageRow}
    (hsession : ∀ row, (f row).sessionUuid = row.sessionUuid)
    (hturn : ∀ row, ((f row).sourceMessageId, (f row).turnIndex) = (row.sourceMessageId, row.turnIndex))
    (table : List MessageRow) : turns session (table.map f) = turns session table := by
  rw [turns, turns, sessionRows, sessionRows, List.filter_map, List.map_map]
  have hfilter : ((fun row => decide (row.sessionUuid = session)) ∘ f) =
      fun row : MessageRow => decide (row.sessionUuid = session) :=
    funext fun row => congrArg (fun uuid => decide (uuid = session)) (hsession row)
  rw [hfilter]
  exact List.map_congr_left fun row _ => hturn row

/-- Setting parents changes no turn. -/
lemma turns_foldl_linkParent (session : String) (uuid : Text → String) (c : Conversation F)
    (messages : List (Text × MessageNode F)) (table : List MessageRow) :
    turns session (messages.foldl (linkParent uuid c) table) = turns session table := by
  have hstep : ∀ table p, turns session (linkParent uuid c table p) = turns session table := by
    intro table p
    rw [linkParent]
    split
    · split_ifs
      · refine turns_map session (fun row => ?_) (fun row => ?_) table <;> split_ifs <;> rfl
      · rfl
    · rfl
  induction messages generalizing table with
  | nil => rfl
  | cons p messages ih => rw [List.foldl_cons, ih, hstep]

/-- The turns of a new session are the places of the messages in their order. -/
theorem turns_commitConversation (session : String) (uuid : Text → String) (c : Conversation F)
    (table : List MessageRow) (hnew : ∀ row ∈ table, row.sessionUuid ≠ session) :
    turns session (commitConversation U session uuid c table) =
      (orderedMessages c).zipIdx.map fun q => (q.1.1, (q.2 : ℤ)) := by
  have hempty : sessionRows session table = [] :=
    List.filter_eq_nil_iff.mpr fun row hrow h => hnew row hrow (of_decide_eq_true h)
  rw [commitConversation, turns_foldl_linkParent, turns,
    sessionRows_commitMessages U session uuid _ table 0 (by rw [hempty]; rfl), hempty,
    List.nil_append, List.map_map]
  rfl

/-! ### Parents before their messages -/

/-- Each message has one turn in a new session, after those of its parents. -/
def KeepsOrder (c : Conversation F) : Prop :=
  ∀ session uuid table, (∀ row ∈ table, row.sessionUuid ≠ session) →
    let turns := turns session (commitConversation U session uuid c table)
    (turns.map Prod.fst).Perm (c.messages.map Prod.fst) ∧
      ∀ child ∈ turns, ∀ parent ∈ turns, c.parents.Edge child.1 parent.1 → parent.2 < child.2

/-- The messages are in the strict order of their keys. -/
lemma pairwise_orderedMessages (c : Conversation F) :
    (orderedMessages c).Pairwise fun p q => orderKey p < orderKey q := by
  have hids : ((orderedMessages c).map Prod.fst).Nodup :=
    ((KeySort.sortBy_perm orderKey c.messages).map Prod.fst).nodup_iff.mpr c.distinct
  have hle := KeySort.pairwise_sortBy orderKey c.messages
  refine (List.pairwise_and_iff.mpr ⟨hle, List.pairwise_map.mp hids⟩).imp ?_
  rintro p q ⟨hpq, hne⟩
  refine lt_of_le_of_ne hpq fun heq => hne ?_
  exact congrArg (fun key => (ofLex (ofLex key).2).2) heq

/-- A message comes before another if and only if its key is smaller. -/
lemma orderKey_lt_iff (c : Conversation F) {p q : Text × MessageNode F} {i j : ℕ}
    (hp : (orderedMessages c)[i]? = some p) (hq : (orderedMessages c)[j]? = some q) :
    i < j ↔ orderKey p < orderKey q := by
  have hlt : ∀ {p q : Text × MessageNode F} {i j : ℕ}, (orderedMessages c)[i]? = some p →
      (orderedMessages c)[j]? = some q → i < j → orderKey p < orderKey q := by
    intro p q i j hp hq hij
    obtain ⟨hi, rfl⟩ := List.getElem?_eq_some_iff.mp hp
    obtain ⟨hj, rfl⟩ := List.getElem?_eq_some_iff.mp hq
    exact List.pairwise_iff_getElem.mp (pairwise_orderedMessages c) i j hi hj hij
  refine ⟨hlt hp hq, fun hkey => ?_⟩
  rcases Nat.lt_trichotomy i j with hij | rfl | hji
  · exact hij
  · rw [Option.some.inj (hp.symm.trans hq)] at hkey
    exact absurd hkey (lt_irrefl _)
  · exact absurd hkey (hlt hq hp hji).asymm

/-- The parents that name messages, by the records. -/
lemma edge_iff {c : Conversation F} {q : Text × MessageNode F} (hq : q ∈ c.messages) (id : Text) :
    c.parents.Edge q.1 id ↔ id ∈ q.2.parentIds := by
  have hget : Dict.get? c.parents q.1 = some q.2.parentIds := by
    rw [Conversation.get?_parents, Dict.get?_of_mem c.distinct hq]
    rfl
  rw [Successors.Edge, hget]
  simp

lemma mem_orderedMessages {c : Conversation F} {p : Text × MessageNode F} :
    p ∈ orderedMessages c ↔ p ∈ c.messages := KeySort.mem_sortBy

/-- Where the order is kept, the key of a parent is smaller. -/
lemma KeepsOrder.orderKey_lt {c : Conversation F} (h : KeepsOrder U c) {p q : Text × MessageNode F}
    (hp : p ∈ c.messages) (hq : q ∈ c.messages) (hparent : p.1 ∈ q.2.parentIds) :
    orderKey p < orderKey q := by
  have hkeeps := h "session" (fun _ => "") [] (fun _ hrow => absurd hrow List.not_mem_nil)
  rw [turns_commitConversation U _ _ c [] fun _ hrow => absurd hrow List.not_mem_nil] at hkeeps
  obtain ⟨i, hi⟩ := List.mem_iff_getElem?.mp (mem_orderedMessages.mpr hp)
  obtain ⟨j, hj⟩ := List.mem_iff_getElem?.mp (mem_orderedMessages.mpr hq)
  have hlt := hkeeps.2 (q.1, (j : ℤ))
    (List.mem_map.mpr ⟨(q, j), List.mem_zipIdx_iff_getElem?.mpr hj, rfl⟩) (p.1, (i : ℤ))
    (List.mem_map.mpr ⟨(p, i), List.mem_zipIdx_iff_getElem?.mpr hi, rfl⟩) ((edge_iff hq p.1).mpr hparent)
  exact (orderKey_lt_iff c hi hj).mp (Int.ofNat_lt.mp hlt)

/-- Where the key of each parent is smaller, the order is kept. -/
lemma keepsOrder_of_orderKey_lt {c : Conversation F}
    (h : ∀ p ∈ c.messages, ∀ q ∈ c.messages, p.1 ∈ q.2.parentIds → orderKey p < orderKey q) :
    KeepsOrder U c := by
  intro session uuid table hnew
  rw [turns_commitConversation U session uuid c table hnew]
  constructor
  · have hfst : ((orderedMessages c).zipIdx.map fun q => (q.1.1, (q.2 : ℤ))).map Prod.fst =
        (orderedMessages c).map Prod.fst := by
      calc ((orderedMessages c).zipIdx.map fun q => (q.1.1, (q.2 : ℤ))).map Prod.fst
          = ((orderedMessages c).zipIdx.map Prod.fst).map Prod.fst := by
            rw [List.map_map, List.map_map]
            rfl
        _ = (orderedMessages c).map Prod.fst := by rw [List.zipIdx_map_fst]
    rw [hfst]
    exact (KeySort.sortBy_perm orderKey c.messages).map Prod.fst
  · intro child hchild parent hparent hedge
    obtain ⟨⟨q, j⟩, hq, rfl⟩ := List.mem_map.mp hchild
    obtain ⟨⟨p, i⟩, hp, rfl⟩ := List.mem_map.mp hparent
    have hi := List.mem_zipIdx_iff_getElem?.mp hp
    have hj := List.mem_zipIdx_iff_getElem?.mp hq
    have hpm := mem_orderedMessages.mp (List.mem_of_getElem? hi)
    have hqm := mem_orderedMessages.mp (List.mem_of_getElem? hj)
    exact Int.ofNat_lt.mpr
      ((orderKey_lt_iff c hi hj).mpr (h p hpm q hqm ((edge_iff hqm p.1).mp hedge)))

/-- The import keeps the order of a conversation if and only if the key of each parent is smaller
than that of its message. -/
theorem keepsOrder_iff (c : Conversation F) : KeepsOrder U c ↔
    ∀ p ∈ c.messages, ∀ q ∈ c.messages, p.1 ∈ q.2.parentIds → orderKey p < orderKey q :=
  ⟨fun h _ hp _ hq hparent => h.orderKey_lt U hp hq hparent, keepsOrder_of_orderKey_lt U⟩

/-- A conversation whose parent graph is acyclic and complete. -/
def Conversation.Sound (c : Conversation F) : Prop :=
  (∀ id, ¬c.parents.ReachesCycle id) ∧ c.danglingEdges = []

/-- A root without a time, as those of ChatGPT exports are, with a question. -/
def untimedRoot : Conversation ℕ where
  messages := [("root".toList, { sourceMessageId := "root".toList }),
    ("question".toList, {
      sourceMessageId := "question".toList
      parentIds := ["root".toList]
      createdAt := some "2024-01-01T00:00:00Z".toList })]

/-- A question and its answer of the same second. -/
def sameSecond : Conversation ℕ where
  messages := [("b".toList, {
      sourceMessageId := "b".toList
      createdAt := some "2024-01-01T00:00:00Z".toList }),
    ("a".toList, {
      sourceMessageId := "a".toList
      parentIds := ["b".toList]
      createdAt := some "2024-01-01T00:00:00Z".toList })]

/-- Neither is a root without a time created first, nor a question before its answer of the same
second. -/
theorem not_keepsOrder : (untimedRoot.Sound ∧ ¬KeepsOrder basicLatin untimedRoot) ∧
    sameSecond.Sound ∧ ¬KeepsOrder basicLatin sameSecond := by
  refine ⟨⟨⟨fun id => ?_, by decide⟩, fun h => ?_⟩, ⟨fun id => ?_, by decide⟩, fun h => ?_⟩
  · exact Successors.not_reachesCycle_of_rank _
      (fun id => (untimedRoot.messages.map Prod.fst).idxOf id) (by decide) id
  · have hlt := h.orderKey_lt basicLatin List.mem_cons_self
      (List.mem_cons_of_mem _ List.mem_cons_self) List.mem_cons_self
    exact absurd hlt (by decide)
  · exact Successors.not_reachesCycle_of_rank _
      (fun id => (sameSecond.messages.map Prod.fst).idxOf id) (by decide) id
  · have hlt := h.orderKey_lt basicLatin List.mem_cons_self
      (List.mem_cons_of_mem _ List.mem_cons_self) List.mem_cons_self
    exact absurd hlt (by decide)

end Memorist.Reconstruction
