import Memorist.Reconstruction.Chatgpt

/-!
The active path of a conversation (`imports/reconstruction/graph.py`).

* `activePath`: the walk along the first parents from the active leaf, as far as its fuel goes;
* `Climb`: the messages of a walk that ends;
* `IsActivePath`, `ActivePathFound`, `ActivePathMarked`: what the walk is for;
* `FirstParentsClear`, `CurrentNodeClear`: when it does it (`activePath_iff`).
-/

namespace Memorist.Reconstruction

variable {F : Type}

/-! ### The walk -/

/-- Walk along the first parents; an id that names no message is the key of a `KeyError`. -/
def activePathLoop (c : Conversation F) :
    ℕ → Text → List Text → Option (Except Text (List Text))
  | 0, _, _ => none
  | fuel + 1, current, path =>
      if current = [] then some (.ok path.reverse)
      else match Dict.get? c.messages current with
        | none => some (.error current)
        | some message => activePathLoop c fuel (message.parentIds.headD []) (path ++ [current])

/-- The active path, where the fuel lasts to its end. -/
def activePath (c : Conversation F) (fuel : ℕ) : Option (Except Text (List Text)) :=
  match c.activeLeafId with
  | none => some (.ok [])
  | some leaf => if c.Names leaf then activePathLoop c fuel leaf [] else some (.ok [])

/-- The messages of a walk that ends, in its order. -/
inductive Climb (c : Conversation F) : Text → List Text → Prop
  | stop : Climb c [] []
  | up {current : Text} {message : MessageNode F} {path : List Text} (hne : current ≠ [])
      (hget : Dict.get? c.messages current = some message)
      (hrest : Climb c (message.parentIds.headD []) path) : Climb c current (current :: path)

lemma activePathLoop_eq_ok_iff (c : Conversation F) (current : Text) (path result : List Text) :
    (∃ fuel, activePathLoop c fuel current path = some (.ok result)) ↔
      ∃ walk, Climb c current walk ∧ result = (path ++ walk).reverse := by
  constructor
  · rintro ⟨fuel, h⟩
    induction fuel generalizing current path with
    | zero => cases h
    | succ fuel ih =>
        rw [activePathLoop] at h
        split_ifs at h with hcurrent
        · subst hcurrent
          refine ⟨[], .stop, ?_⟩
          rw [List.append_nil]
          exact (Except.ok.inj (Option.some.inj h)).symm
        · split at h
          · cases h
          · next message hget =>
              obtain ⟨walk, hwalk, rfl⟩ := ih _ _ h
              exact ⟨current :: walk, .up hcurrent hget hwalk, by rw [List.append_assoc]; rfl⟩
  · rintro ⟨walk, hwalk, rfl⟩
    induction hwalk generalizing path with
    | stop => exact ⟨1, by rw [activePathLoop, if_pos rfl, List.append_nil]⟩
    | @up current message walk hne hget _ ih =>
        obtain ⟨fuel, hfuel⟩ := ih (path ++ [current])
        refine ⟨fuel + 1, ?_⟩
        rw [activePathLoop, if_neg hne, hget]
        rw [List.append_assoc] at hfuel
        exact hfuel

namespace Climb

variable {c : Conversation F} {current : Text} {walk : List Text}

lemma ne_nil_and_names (h : Climb c current walk) : ∀ id ∈ walk, id ≠ [] ∧ c.Names id := by
  induction h with
  | stop => exact fun _ h => absurd h List.not_mem_nil
  | @up current message walk hne hget _ ih =>
      refine List.forall_mem_cons.mpr ⟨⟨hne, ?_⟩, ih⟩
      exact List.mem_map_of_mem (Dict.mem_of_get? hget)

lemma head?_eq (h : Climb c current walk) (hne : current ≠ []) : walk.head? = some current := by
  cases h with
  | stop => exact absurd rfl hne
  | up => rfl

/-- The first parent of a message by its record. -/
lemma first_eq {id : Text} {message : MessageNode F} (h : Dict.get? c.messages id = some message) :
    c.parents.first id = message.parentIds.head? := by
  rw [Successors.first, Conversation.get?_parents, h]
  rfl

/-- Each message of a walk is followed by its first parent. -/
lemma isChain (h : Climb c current walk) :
    walk.IsChain fun id parent => c.parents.first id = some parent := by
  induction h with
  | stop => exact .nil
  | @up current message walk hne hget hrest ih =>
      cases walk with
      | nil => exact .singleton current
      | cons parent walk =>
          refine .cons_cons ?_ ih
          rw [first_eq hget]
          cases hids : message.parentIds with
          | nil => rw [hids] at hrest; cases hrest; contradiction
          | cons first parents => rw [hids] at hrest; cases hrest; rfl

/-- A walk is the line of first parents up to an empty id. -/
lemma line_eq (h : Climb c current walk) (n : ℕ) (id : Text) (hline : c.parents.line n current = some id) :
    walk[n]? = some id ∨ walk.length ≤ n ∧ c.parents.line (n - walk.length) [] = some id ∧
      c.parents.line walk.length current = some [] := by
  induction h generalizing n with
  | stop => exact .inr ⟨Nat.zero_le n, hline, rfl⟩
  | @up current message walk hne hget _ ih =>
      cases n with
      | zero => exact .inl hline
      | succ n =>
          rw [Successors.line, first_eq hget] at hline
          obtain ⟨parent, hparent, hline⟩ := Option.bind_eq_some_iff.mp hline
          have hhead : message.parentIds.headD [] = parent := by
            rw [List.headD_eq_head?_getD, hparent, Option.getD_some]
          rw [hhead] at ih
          refine (ih n hline).imp (fun hid => hid) ?_
          rintro ⟨hle, hrest, hend⟩
          refine ⟨Nat.succ_le_succ hle, ?_, ?_⟩
          · rwa [List.length_cons, Nat.add_sub_add_right]
          · rw [List.length_cons, Successors.line, first_eq hget, hparent]
            exact hend

lemma line_of_getElem? (h : Climb c current walk) (n : ℕ) (id : Text) (hid : walk[n]? = some id) :
    c.parents.line n current = some id := by
  induction h generalizing n with
  | stop => cases hid
  | @up current message walk hne hget hrest ih =>
      cases n with
      | zero => exact hid
      | succ n =>
          have hid : walk[n]? = some id := hid
          rw [Successors.line, first_eq hget]
          cases hids : message.parentIds with
          | nil =>
              rw [hids] at hrest
              cases hrest with
              | stop => cases hid
              | up hne' => exact absurd rfl hne'
          | cons parent parents =>
              rw [hids] at ih
              exact ih n hid

end Climb

/-! ### What the walk is for -/

/-- A list without repetition that ends in the active leaf, in which each id is the first parent of
the next, and whose first has no first parent but a missing one or one of the list. -/
def IsActivePath (c : Conversation F) (path : List Text) : Prop :=
  ∀ leaf, c.activeLeafId = some leaf → c.Names leaf →
    path.Nodup ∧ path.getLast? = some leaf ∧
    path.IsChain (fun parent id => c.parents.first id = some parent) ∧
    ∀ id, path.head? = some id → ∀ parent, c.parents.first id = some parent →
      ¬c.Names parent ∨ parent ∈ path

/-- The walk ends, without an error, in an active path. -/
def ActivePathFound (c : Conversation F) : Prop :=
  ∃ fuel path, activePath c fuel = some (.ok path) ∧ IsActivePath c path

/-- The messages that are marked as active. -/
def Conversation.Active (c : Conversation F) (id : Text) : Prop :=
  ∃ message, Dict.get? c.messages id = some message ∧ message.branchStatus = "active".toList

/-- The walk ends, without an error, in an active path of the messages that are marked. -/
def ActivePathMarked (c : Conversation F) : Prop :=
  ∃ fuel path, activePath c fuel = some (.ok path) ∧ IsActivePath c path ∧
    ∀ id, id ∈ path ↔ c.Active id

/-- Along the first parents of the active leaf no id stands twice, and the ids are those of messages
up to an empty one that is no message. -/
def FirstParentsClear (c : Conversation F) : Prop :=
  ∀ leaf, c.activeLeafId = some leaf → c.Names leaf →
    (∀ n id, c.parents.line n leaf = some id → (c.Names id ↔ id ≠ [])) ∧
    ∀ i j id, c.parents.line i leaf = some id → c.parents.line j leaf = some id → i = j

/-! ### Clear lines are climbed -/

/-- A line of messages up to its end or an empty id is a walk that ends. -/
lemma exists_climb (c : Conversation F) (n : ℕ) (current : Text)
    (hnames : ∀ k id, c.parents.line k current = some id → (c.Names id ↔ id ≠ []))
    (hend : ∀ id, c.parents.line n current = some id → id = []) : ∃ walk, Climb c current walk := by
  induction n generalizing current with
  | zero =>
      obtain rfl := hend current rfl
      exact ⟨[], .stop⟩
  | succ n ih =>
      by_cases hcurrent : current = []
      · subst hcurrent
        exact ⟨[], .stop⟩
      obtain ⟨message, hget⟩ := Option.ne_none_iff_exists'.mp
        (Dict.get?_ne_none ((hnames 0 current rfl).mpr hcurrent))
      have hrest : ∃ walk, Climb c (message.parentIds.headD []) walk := by
        cases hids : message.parentIds with
        | nil => exact ⟨[], .stop⟩
        | cons parent parents =>
            have hline : ∀ k, c.parents.line (k + 1) current = c.parents.line k parent := by
              intro k
              rw [Successors.line, Climb.first_eq hget, hids]
              rfl
            exact ih parent (fun k id h => hnames (k + 1) id ((hline k).trans h))
              fun id h => hend id ((hline n).trans h)
      obtain ⟨walk, hwalk⟩ := hrest
      exact ⟨current :: walk, .up hcurrent hget hwalk⟩

/-- Walks along clear lines end. -/
lemma FirstParentsClear.exists_climb {c : Conversation F} (h : FirstParentsClear c) {leaf : Text}
    (hleaf : c.activeLeafId = some leaf) (hnames : c.Names leaf) : ∃ walk, Climb c leaf walk := by
  obtain ⟨hclear, hinj⟩ := h leaf hleaf hnames
  obtain ⟨n, hn⟩ := c.parents.line_ends hinj
  refine Reconstruction.exists_climb c n leaf hclear fun id hid => ?_
  by_contra hne
  exact c.get?_parents_ne_none.mpr ((hclear n id hid).mpr hne) (hn id hid)

/-- The walk along a clear line is an active path. -/
lemma FirstParentsClear.isActivePath {c : Conversation F} (h : FirstParentsClear c) {leaf : Text}
    (hleaf : c.activeLeafId = some leaf) (hnames : c.Names leaf) {walk : List Text}
    (hwalk : Climb c leaf walk) : IsActivePath c walk.reverse := by
  intro leaf' hleaf' _
  obtain rfl : leaf = leaf' := Option.some.inj (hleaf.symm.trans hleaf')
  obtain ⟨hclear, hinj⟩ := h leaf hleaf hnames
  refine ⟨List.nodup_reverse.mpr ?_, ?_, List.isChain_reverse.mpr hwalk.isChain, ?_⟩
  · rw [List.nodup_iff_getElem?_ne_getElem?]
    intro i j hij hj heq
    have hi : walk[i]? = some walk[j] := heq.trans (List.getElem?_eq_getElem hj)
    exact hij.ne (hinj i j walk[j] (hwalk.line_of_getElem? i _ hi)
      (hwalk.line_of_getElem? j _ (List.getElem?_eq_getElem hj)))
  · rw [List.getLast?_reverse]
    exact hwalk.head?_eq ((hclear 0 leaf rfl).mp hnames)
  · intro id hid parent hparent
    rw [List.head?_reverse, List.getLast?_eq_getElem?] at hid
    have hline := hwalk.line_of_getElem? _ _ hid
    have hnext : c.parents.line (walk.length - 1 + 1) leaf = some parent := by
      rw [Successors.line_succ, hline]
      exact hparent
    have hpos : 0 < walk.length := by
      by_contra hzero
      rw [Nat.eq_zero_of_not_pos hzero] at hid
      simp [List.length_eq_zero_iff.mp (Nat.eq_zero_of_not_pos hzero)] at hid
    rw [Nat.sub_add_cancel hpos] at hnext
    rcases hwalk.line_eq _ _ hnext with hmem | ⟨-, hrest, -⟩
    · rw [List.getElem?_eq_none le_rfl] at hmem
      cases hmem
    · rw [Nat.sub_self] at hrest
      obtain rfl : [] = parent := Option.some.inj hrest
      exact .inl fun hnamed => (hclear _ _ hnext).mp hnamed rfl

/-- A walk that is an active path goes along a clear line. -/
lemma firstParentsClear_of_climb {c : Conversation F} {leaf : Text} (hleaf : c.activeLeafId = some leaf)
    (hnames : c.Names leaf) {walk : List Text} (hwalk : Climb c leaf walk)
    (hpath : IsActivePath c walk.reverse) : FirstParentsClear c := by
  intro leaf' hleaf' _
  obtain rfl : leaf = leaf' := Option.some.inj (hleaf.symm.trans hleaf')
  obtain ⟨hnodup, hlast, -, hstart⟩ := hpath leaf hleaf hnames
  rw [List.nodup_reverse] at hnodup
  rw [List.getLast?_reverse] at hlast
  -- an id past the walk is the empty one, and no message
  have hpast : ∀ n id, c.parents.line n leaf = some id →
      walk[n]? = some id ∨ n = walk.length ∧ id = [] ∧ ¬c.Names [] := by
    intro n id hid
    refine (hwalk.line_eq n id hid).imp (fun h => h) ?_
    rintro ⟨hle, hrest, hend⟩
    have hempty : ¬c.Names [] := by
      obtain ⟨last, hgetLast⟩ : ∃ last, walk.getLast? = some last := by
        cases walk with
        | nil => cases hlast
        | cons first rest => exact ⟨_, List.getLast?_cons⟩
      have hlength : walk.length - 1 + 1 = walk.length :=
        Nat.sub_add_cancel (List.length_pos_of_mem (List.mem_of_getLast? hgetLast))
      have hline := hwalk.line_of_getElem? _ _ (List.getLast?_eq_getElem? ▸ hgetLast)
      rw [← hlength, Successors.line_succ, hline] at hend
      rcases hstart last (List.head?_reverse ▸ hgetLast) [] hend with hnot | hmem
      · exact hnot
      · exact absurd rfl (hwalk.ne_nil_and_names [] (List.mem_reverse.mp hmem)).1
    have hnone : c.parents.first [] = none := by
      rw [Successors.first, not_not.mp fun hne => hempty (c.get?_parents_ne_none.mp hne)]
      rfl
    cases hsub : n - walk.length with
    | zero =>
        rw [hsub] at hrest
        exact ⟨Nat.le_antisymm (Nat.sub_eq_zero_iff_le.mp hsub) hle, (Option.some.inj hrest).symm,
          hempty⟩
    | succ k =>
        rw [hsub, Successors.line, hnone] at hrest
        cases hrest
  constructor
  · intro n id hid
    rcases hpast n id hid with hmem | ⟨-, rfl, hempty⟩
    · obtain ⟨hne, hnamed⟩ := hwalk.ne_nil_and_names id (List.mem_of_getElem? hmem)
      exact iff_of_true hnamed hne
    · exact iff_of_false hempty (fun hne => hne rfl)
  · intro i j id hi hj
    have hnotEmpty : ∀ {k : ℕ}, walk[k]? = some id → id ≠ [] := fun hmem =>
      (hwalk.ne_nil_and_names id (List.mem_of_getElem? hmem)).1
    rcases hpast i id hi with hmem | ⟨hlength, hid, -⟩
    · rcases hpast j id hj with hmem' | ⟨-, hid, -⟩
      · have hlt : i < walk.length := (List.getElem?_eq_some_iff.mp hmem).1
        exact (List.getElem?_inj hlt hnodup).mp (hmem.trans hmem'.symm)
      · exact absurd hid (hnotEmpty hmem)
    · rcases hpast j id hj with hmem' | ⟨hlength', -, -⟩
      · exact absurd hid (hnotEmpty hmem')
      · exact hlength.trans hlength'.symm

/-- The active path by the walk from the active leaf. -/
lemma activePath_eq_ok_iff (c : Conversation F) (path : List Text) :
    (∃ fuel, activePath c fuel = some (.ok path)) ↔
      (∀ leaf, c.activeLeafId = some leaf → c.Names leaf → ∃ walk, Climb c leaf walk ∧
        path = walk.reverse) ∧
      ((∀ leaf, c.activeLeafId = some leaf → ¬c.Names leaf) → path = []) := by
  cases hleaf : c.activeLeafId with
  | none => simp [activePath, hleaf, eq_comm]
  | some leaf =>
      by_cases hnames : c.Names leaf
      · have hloop := activePathLoop_eq_ok_iff c leaf [] path
        simp only [List.nil_append] at hloop
        simp [activePath, hleaf, hnames, hloop]
      · simp [activePath, hleaf, hnames, eq_comm]

/-- The active path is found if and only if the first parents of the active leaf are clear. -/
theorem activePathFound_iff (c : Conversation F) : ActivePathFound c ↔ FirstParentsClear c := by
  constructor
  · rintro ⟨fuel, path, hpath, hactive⟩ leaf hleaf hnames
    obtain ⟨walk, hwalk, rfl⟩ := ((activePath_eq_ok_iff c path).mp ⟨fuel, hpath⟩).1 leaf hleaf hnames
    exact firstParentsClear_of_climb hleaf hnames hwalk hactive leaf hleaf hnames
  · intro h
    by_cases hnamed : ∃ leaf, c.activeLeafId = some leaf ∧ c.Names leaf
    · obtain ⟨leaf, hleaf, hnames⟩ := hnamed
      obtain ⟨walk, hwalk⟩ := h.exists_climb hleaf hnames
      have hpath : ∃ fuel, activePath c fuel = some (.ok walk.reverse) := by
        refine (activePath_eq_ok_iff c walk.reverse).mpr
          ⟨?_, fun hnone => absurd hnames (hnone leaf hleaf)⟩
        intro leaf' hleaf' _
        obtain rfl : leaf = leaf' := Option.some.inj (hleaf.symm.trans hleaf')
        exact ⟨walk, hwalk, rfl⟩
      obtain ⟨fuel, hfuel⟩ := hpath
      exact ⟨fuel, _, hfuel, h.isActivePath hleaf hnames hwalk⟩
    · push Not at hnamed
      obtain ⟨fuel, hfuel⟩ := (activePath_eq_ok_iff c []).mpr
        ⟨fun leaf hleaf hnames => absurd hnames (hnamed leaf hleaf), fun _ => rfl⟩
      exact ⟨fuel, [], hfuel, fun leaf hleaf hnames => absurd hnames (hnamed leaf hleaf)⟩

/-! ### The marks of an export -/

section

variable {U : UnicodeData} {N : Floats F} {T : Datetimes F} [Zero F] [DecidableEq F]
variable {conversation : Mapping F} {c : Conversation F}

/-- A current node that counts as false names no message, unless it is `None`. -/
def CurrentNodeClear (U : UnicodeData) (N : Floats F) (conversation : Mapping F)
    (c : Conversation F) : Prop :=
  let node := Mapping.get conversation "current_node"
  truthyValue node = false → node ≠ .null → strValue U N node ≠ [] → ¬c.Names (strValue U N node)

omit [Zero F] [DecidableEq F] in
lemma Conversation.names_iff_get? (c : Conversation F) (id : Text) :
    c.Names id ↔ Dict.get? c.messages id ≠ none :=
  ⟨Dict.get?_ne_none, fun h => by_contra fun hnot => h (Dict.get?_of_not_mem hnot)⟩

/-- The messages that are marked are those that the adapter's walk meets. -/
lemma NormalizedFrom.active_iff (h : NormalizedFrom U N T conversation c) (id : Text) :
    c.Active id ↔ c.Names id ∧ id ∈ chatgptActivePath U N (chatgptNodes conversation)
      (Mapping.get conversation "current_node") := by
  rw [Conversation.names_iff_get?, Conversation.Active]
  rcases h.get?_messages id with ⟨node, message, -, hmessage, -, hstatus⟩ | ⟨-, hnone⟩
  · rw [hmessage]
    split_ifs at hstatus with hmem
    · exact iff_of_true ⟨message, rfl, hstatus⟩ ⟨Option.some_ne_none message, hmem⟩
    · refine iff_of_false ?_ fun hboth => hmem hboth.2
      rintro ⟨message', hmessage', hactive⟩
      obtain rfl : message = message' := Option.some.inj hmessage'
      exact absurd (hstatus.symm.trans hactive) (by decide)
  · rw [hnone]
    simp

/-- The adapter's walk from a message is the walk along its first parents. -/
lemma NormalizedFrom.activeFrom_of_climb (h : NormalizedFrom U N T conversation c) {current : Text}
    {walk : List Text} (hwalk : Climb c current walk) (hnodup : walk.Nodup) (active : List Text)
    (hfresh : ∀ id ∈ walk, id ∉ active) (cursor : Option Text) (hcursor : cursor.getD [] = current) :
    activeFrom U N (chatgptNodes conversation) cursor active = walk.reverse ++ active := by
  induction hwalk generalizing active cursor with
  | stop =>
      cases cursor with
      | none => rw [activeFrom_none]; rfl
      | some id =>
          obtain rfl : id = [] := hcursor
          rw [activeFrom_of_stop U N _ (.inl rfl)]
          rfl
  | @up current message walk hne hget _ ih =>
      obtain ⟨hnot, hnodup⟩ := List.nodup_cons.mp hnodup
      obtain rfl : cursor = some current := by
        cases cursor with
        | none => exact absurd hcursor.symm hne
        | some id => exact congrArg some hcursor
      have hstop : ¬(current = [] ∨ current ∈ active) :=
        not_or.mpr ⟨hne, hfresh current List.mem_cons_self⟩
      rcases h.get?_messages current with ⟨node, message', hnode, hmessage, hparents, -⟩ | ⟨-, hnone⟩
      · obtain rfl : message = message' := Option.some.inj (hget.symm.trans hmessage)
        rw [activeFrom_of_node U N hstop hnode, ih hnodup, List.reverse_cons, List.append_assoc,
          List.singleton_append]
        · intro id hid hmem
          rcases List.mem_cons.mp hmem with rfl | hmem
          · exact hnot hid
          · exact hfresh id (List.mem_cons_of_mem _ hid) hmem
        · rw [hparents, chatgptParents]
          split_ifs <;> rfl
      · rw [hnone] at hget
        cases hget

/-- The nodes that the adapter's walk meets are none of the messages, where it starts at none. -/
lemma NormalizedFrom.not_active (h : NormalizedFrom U N T conversation c)
    (hstart : Mapping.get conversation "current_node" ≠ .null →
      strValue U N (Mapping.get conversation "current_node") ≠ [] →
      ¬c.Names (strValue U N (Mapping.get conversation "current_node"))) (id : Text) :
    ¬c.Active id := by
  rw [h.active_iff]
  rintro ⟨hnames, hmem⟩
  by_cases hnull : Mapping.get conversation "current_node" = .null
  · rw [hnull, chatgptActivePath_null] at hmem
    exact absurd hmem List.not_mem_nil
  rw [chatgptActivePath_of_ne_null U N _ hnull] at hmem
  by_cases hempty : strValue U N (Mapping.get conversation "current_node") = []
  · rw [activeFrom_of_stop U N _ (.inl hempty)] at hmem
    exact absurd hmem List.not_mem_nil
  have hnot := hstart hnull hempty
  rw [activeFrom_of_not_node U N (by simp [hempty])] at hmem
  · obtain rfl := List.mem_singleton.mp hmem
    exact hnot hnames
  · intro node hget
    rcases h.get?_messages (strValue U N (Mapping.get conversation "current_node")) with
      ⟨_, message, -, hmessage, -⟩ | ⟨hnone, -⟩
    · rw [Conversation.names_iff_get?, hmessage] at hnot
      exact hnot (Option.some_ne_none message)
    · exact hnone node hget

/-- The active path is that of the marked messages if and only if, besides, the current node does
not count as false while it names a message. -/
theorem activePathMarked_iff (h : NormalizedFrom U N T conversation c) :
    ActivePathMarked c ↔ FirstParentsClear c ∧ CurrentNodeClear U N conversation c := by
  have hleaf := h.forall₂_messages.2
  have hfound : ActivePathMarked c → ActivePathFound c := fun ⟨fuel, path, hpath, hactive, _⟩ =>
    ⟨fuel, path, hpath, hactive⟩
  constructor
  · intro hmarked
    refine ⟨(activePathFound_iff c).mp (hfound hmarked), ?_⟩
    intro hfalse hnull hne hnames
    obtain ⟨fuel, path, hpath, -, hmarks⟩ := hmarked
    rw [if_neg (by rw [hfalse]; exact Bool.false_ne_true)] at hleaf
    have hempty : path = [] := ((activePath_eq_ok_iff c path).mp ⟨fuel, hpath⟩).2 fun leaf h => by
      rw [hleaf] at h
      cases h
    have hactive : c.Active (strValue U N (Mapping.get conversation "current_node")) := by
      refine (h.active_iff _).mpr ⟨hnames, ?_⟩
      rw [chatgptActivePath_of_ne_null U N _ hnull]
      exact mem_activeFrom U N _ hne
    rw [← hmarks, hempty] at hactive
    exact absurd hactive List.not_mem_nil
  · rintro ⟨hclear, hcurrent⟩
    obtain ⟨fuel, path, hpath, hactive⟩ := (activePathFound_iff c).mpr hclear
    refine ⟨fuel, path, hpath, hactive, fun id => ?_⟩
    obtain ⟨hwalks, hnone⟩ := (activePath_eq_ok_iff c path).mp ⟨fuel, hpath⟩
    by_cases hnamed : ∃ leaf, c.activeLeafId = some leaf ∧ c.Names leaf
    · obtain ⟨leaf, hleaf', hnames⟩ := hnamed
      obtain ⟨walk, hwalk, rfl⟩ := hwalks leaf hleaf' hnames
      have hnodup := List.nodup_reverse.mp (hactive leaf hleaf' hnames).1
      rw [hleaf'] at hleaf
      split_ifs at hleaf with htruthy
      have hmeets : chatgptActivePath U N (chatgptNodes conversation)
          (Mapping.get conversation "current_node") = walk.reverse := by
        have hnull : Mapping.get conversation "current_node" ≠ .null := by
          intro heq
          rw [heq] at htruthy
          cases htruthy
        have hstart : (some (strValue U N (Mapping.get conversation "current_node"))).getD [] =
            leaf := (Option.some.inj hleaf).symm
        rw [chatgptActivePath_of_ne_null U N _ hnull, h.activeFrom_of_climb hwalk hnodup []
          (fun _ _ => List.not_mem_nil) _ hstart, List.append_nil]
      rw [h.active_iff, hmeets]
      exact ⟨fun hid => ⟨(hwalk.ne_nil_and_names id (List.mem_reverse.mp hid)).2, hid⟩, And.right⟩
    · push Not at hnamed
      rw [hnone hnamed]
      refine iff_of_false List.not_mem_nil (h.not_active ?_ id)
      intro hnull hne
      by_cases htruthy : truthyValue (Mapping.get conversation "current_node")
      · rw [if_pos htruthy] at hleaf
        exact hnamed _ hleaf
      · exact hcurrent (Bool.eq_false_iff.mpr htruthy) hnull hne

end

/-- The active path is found if and only if the first parents of the active leaf are clear; the path
of an export is that of the marked messages if and only if its current node is clear too. -/
theorem activePath_iff (U : UnicodeData) (N : Floats F) (T : Datetimes F) [Zero F] [DecidableEq F] :
    (∀ c : Conversation F, ActivePathFound c ↔ FirstParentsClear c) ∧
    ∀ (conversation : Mapping F) (c : Conversation F), NormalizedFrom U N T conversation c →
      (ActivePathMarked c ↔ FirstParentsClear c ∧ CurrentNodeClear U N conversation c) :=
  ⟨activePathFound_iff, fun _ _ => activePathMarked_iff⟩

/-! ### A branch and a cycle -/

/-- The parent of a node. -/
def parentOf : Option String → Json ℕ
  | some parent => .str parent.toList
  | none => .null

/-- An export of nodes with their parents. -/
def exportOf (nodes : List (String × Option String)) (current : String) : Mapping ℕ :=
  [("mapping".toList,
    .obj (nodes.map fun p => (p.1.toList, .obj [("parent".toList, parentOf p.2)]))),
    ("current_node".toList, .str current.toList)]

/-- The message of a node. -/
def nodeMessage (id : String) (parent : Option String) (branchStatus : String) : MessageNode ℕ where
  sourceMessageId := id.toList
  parentIds := (parent.map String.toList).toList
  branchStatus := branchStatus.toList
  metadata := [
    ("provider".toList, .obj [("chatgpt".toList, .obj [("parent".toList, parentOf parent)])]),
    ("source_node_has_message".toList, .bool false), ("source_update_time".toList, .null),
    ("model_slug".toList, .null), ("default_model_slug".toList, .null),
    ("attachments".toList, .arr [])]

/-- An export of a message with two answers, the first of which is the current one. -/
def branching : Mapping ℕ := exportOf [("a", none), ("b", some "a"), ("c", some "a")] "b"

/-- The conversation of this export. -/
def branchingMessages : Conversation ℕ where
  sourcePlatform := "chatgpt".toList
  roots := ["a".toList]
  activeLeafId := some "b".toList
  messages := [("a".toList, nodeMessage "a" none "active"),
    ("b".toList, nodeMessage "b" (some "a") "active"),
    ("c".toList, nodeMessage "c" (some "a") "branch")]
  metadata := [("provider".toList, .obj [("chatgpt".toList, .obj branching)])]

lemma branching_normalized :
    NormalizedFrom basicLatin tenths plainDates branching branchingMessages := by
  refine ⟨by decide, ?_⟩
  have hactive : chatgptActivePath basicLatin tenths (chatgptNodes branching)
      (Mapping.get branching "current_node") = ["a".toList, "b".toList] := by decide +kernel
  refine ⟨_, by rw [normalizeChatgpt, chatgptMessages, hactive]; rfl, ?_⟩
  have hvalid : validateConversation branchingMessages = .ok [] := by
    refine @validateConversation_of_hasCycle _ branchingMessages (fun _ => false) fun id hid => ?_
    rw [hasCycle, Successors.search_singleton]
    have hids : id ∈ ["a".toList, "b".toList, "c".toList] := hid
    simp only [List.mem_cons, List.not_mem_nil, or_false] at hids
    rcases hids with rfl | rfl | rfl
    all_goals rfl
  have hread : ∀ payload,
      readConversation basicLatin tenths plainDates payload = .ok branchingMessages →
        normalizeConversation basicLatin tenths plainDates payload = .ok branchingMessages := by
    intro payload h
    rw [normalizeConversation, h, Checks.ok_bind, hvalid]
    rfl
  exact hread _ rfl

theorem activePath_iff_branching : ActivePathMarked branchingMessages ↔
    FirstParentsClear branchingMessages ∧
      CurrentNodeClear basicLatin tenths branching branchingMessages :=
  (activePath_iff basicLatin tenths plainDates).2 branching branchingMessages branching_normalized

/-- An export of a message that is its own parent. -/
def selfParent : Mapping ℕ := exportOf [("m", some "m")] "m"

/-- The conversation of this export, as it is read. -/
def selfParentMessages : Conversation ℕ where
  sourcePlatform := "chatgpt".toList
  activeLeafId := some "m".toList
  messages := [("m".toList, nodeMessage "m" (some "m") "active")]
  metadata := [("provider".toList, .obj [("chatgpt".toList, .obj selfParent)])]

lemma selfParent_normalized : NormalizedFrom basicLatin tenths plainDates selfParent
    { selfParentMessages with reconstructionIssues := [messageCycle "m".toList] } := by
  refine ⟨by decide, ?_⟩
  have hactive : chatgptActivePath basicLatin tenths (chatgptNodes selfParent)
      (Mapping.get selfParent "current_node") = ["m".toList] := by decide +kernel
  refine ⟨_, by rw [normalizeChatgpt, chatgptMessages, hactive]; rfl, ?_⟩
  have hvalid : validateConversation selfParentMessages = .ok [messageCycle "m".toList] := by
    refine @validateConversation_of_hasCycle _ selfParentMessages (fun _ => true) fun id hid => ?_
    obtain rfl : id = "m".toList := List.mem_singleton.mp hid
    rw [hasCycle, Successors.search_singleton]
    rfl
  have hread : ∀ payload,
      readConversation basicLatin tenths plainDates payload = .ok selfParentMessages →
        normalizeConversation basicLatin tenths plainDates payload = .ok
          { selfParentMessages with reconstructionIssues := [messageCycle "m".toList] } := by
    intro payload h
    rw [normalizeConversation, h, Checks.ok_bind, hvalid]
    rfl
  exact hread _ rfl

/-- The walk does not end at a message that is its own parent, which is normalized with the issue of
a cycle. -/
theorem not_activePathFound : ¬∀ conversation c,
    NormalizedFrom basicLatin tenths plainDates conversation c → ActivePathFound c := by
  intro h
  have hclear := (activePathFound_iff _).mp (h _ _ selfParent_normalized)
  have hinj := (hclear "m".toList rfl (by decide)).2
  exact absurd (hinj 0 1 "m".toList rfl (by decide)) (by decide)

end Memorist.Reconstruction
