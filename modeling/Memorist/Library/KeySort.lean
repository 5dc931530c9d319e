import Mathlib.Data.List.DropRight
import Mathlib.Data.List.Sort
import Mathlib.Data.Prod.Lex

/-!
Stable sorting by a key, as `sorted(values, key=key)`.

* `sortBy_perm`, `pairwise_sortBy`: the result is the input, in the order of the keys;
* `sortBy_eq_of_perm`: where the key tells the elements apart the result depends on
  the elements only, not on the order they came in;
* `newest`: the last elements in the order of the keys, last first, as a descending query with a
  limit;
* `rtake_filter_newest`: when the last elements that meet a condition are found among the newest;
* `filter_take_eq_iff`: when a limit may be taken before a filter;
* `mem_take_sortBy_iff`, `mem_take_sortBy_of_le`: the first elements are those that few precede, and
  a smaller key keeps an element among them;
* `mem_take_sortBy_zipIdx`: the positions break the ties of a key;
* `sortBy_flatMap`: blocks of one key each are sorted as a whole.
-/

namespace KeySort

variable {α β κ : Type} [LinearOrder κ]

/-- Sort by a key; elements of one key keep their order. -/
def sortBy (key : α → κ) (xs : List α) : List α := xs.insertionSort fun a b => key a ≤ key b

variable {key : α → κ} {xs ys : List α}

lemma sortBy_perm (key : α → κ) (xs : List α) : (sortBy key xs).Perm xs :=
  List.perm_insertionSort _ xs

@[simp] lemma mem_sortBy {a : α} : a ∈ sortBy key xs ↔ a ∈ xs := (sortBy_perm key xs).mem_iff

@[simp] lemma length_sortBy : (sortBy key xs).length = xs.length := (sortBy_perm key xs).length_eq

lemma pairwise_sortBy (key : α → κ) (xs : List α) :
    (sortBy key xs).Pairwise fun a b => key a ≤ key b := by
  have : Std.Total fun a b : α => key a ≤ key b := ⟨fun a b => le_total _ _⟩
  have : IsTrans α fun a b => key a ≤ key b := ⟨fun _ _ _ => le_trans⟩
  exact List.pairwise_insertionSort _ xs

lemma sortBy_eq_self (h : xs.Pairwise fun a b => key a ≤ key b) : sortBy key xs = xs :=
  List.Pairwise.insertionSort_eq h

/-- A key that tells the elements apart makes the result independent of their order. -/
theorem sortBy_eq_of_perm (h : xs.Perm ys)
    (hkey : ∀ a ∈ xs, ∀ b ∈ xs, key a = key b → a = b) : sortBy key xs = sortBy key ys := by
  have hanti : ∀ a b, a ∈ sortBy key xs → b ∈ sortBy key ys → key a ≤ key b → key b ≤ key a →
      a = b := fun a b ha hb hab hba =>
    hkey a (mem_sortBy.mp ha) b (h.mem_iff.mpr (mem_sortBy.mp hb)) (le_antisymm hab hba)
  exact List.Perm.eq_of_pairwise hanti (pairwise_sortBy key xs) (pairwise_sortBy key ys)
    ((sortBy_perm key xs).trans (h.trans (sortBy_perm key ys).symm))

/-- Sorting commutes with a map that keeps the keys. -/
lemma map_sortBy {f : α → β} {key' : β → κ} (hf : ∀ a ∈ xs, key' (f a) = key a) :
    (sortBy key xs).map f = sortBy key' (xs.map f) :=
  List.map_insertionSort _ _ f xs fun a ha b hb => by rw [hf a ha, hf b hb]

/-- An element that no other one precedes is put first. -/
lemma orderedInsert_of_forall_le {a : α} (h : ∀ b ∈ xs, key a ≤ key b) :
    xs.orderedInsert (fun a b => key a ≤ key b) a = a :: xs := by
  cases xs with
  | nil => rfl
  | cons b xs => rw [List.orderedInsert_cons, if_pos (h b List.mem_cons_self)]

lemma filter_orderedInsert {p : α → Bool} {a : α} (h : xs.Pairwise fun a b => key a ≤ key b) :
    (xs.orderedInsert (fun a b => key a ≤ key b) a).filter p =
      if p a then (xs.filter p).orderedInsert (fun a b => key a ≤ key b) a else xs.filter p := by
  induction xs with
  | nil => cases hp : p a <;> simp [hp]
  | cons b xs ih =>
      obtain ⟨hb, hxs⟩ := List.pairwise_cons.mp h
      rw [List.orderedInsert_cons]
      by_cases hab : key a ≤ key b
      · have hfirst : ∀ c ∈ (b :: xs).filter p, key a ≤ key c := fun c hc => by
          rcases List.mem_cons.mp (List.mem_of_mem_filter hc) with rfl | hc
          · exact hab
          · exact hab.trans (hb c hc)
        rw [if_pos hab, List.filter_cons, orderedInsert_of_forall_le hfirst]
      · rw [if_neg hab, List.filter_cons, List.filter_cons, ih hxs]
        split_ifs
        · rw [List.orderedInsert_cons, if_neg hab]
        · rfl
        · rfl
        · rfl

/-- Sorting commutes with a filter. -/
lemma sortBy_filter (key : α → κ) (p : α → Bool) (xs : List α) :
    sortBy key (xs.filter p) = (sortBy key xs).filter p := by
  induction xs with
  | nil => rfl
  | cons a xs ih =>
      have hinsert : sortBy key (a :: xs) =
          (sortBy key xs).orderedInsert (fun a b => key a ≤ key b) a := rfl
      rw [hinsert, filter_orderedInsert (pairwise_sortBy key xs), ← ih, List.filter_cons]
      split_ifs
      · rfl
      · rfl

/-- The last elements in the order of the keys, the last one first. -/
def newest (key : α → κ) (limit : ℕ) (xs : List α) : List α := (sortBy key xs).reverse.take limit

lemma newest_eq (key : α → κ) (limit : ℕ) (xs : List α) :
    newest key limit xs = ((sortBy key xs).rtake limit).reverse := by
  rw [newest, List.rtake_eq_reverse_take_reverse, List.reverse_reverse]

lemma mem_of_mem_newest {limit : ℕ} {a : α} (h : a ∈ newest key limit xs) : a ∈ xs :=
  mem_sortBy.mp (List.mem_reverse.mp (List.mem_of_mem_take h))

/-- The newest elements, put back in order, are the end of the ordered list. -/
lemma sortBy_filter_newest {p : α → Bool} {limit : ℕ}
    (hkey : ∀ a ∈ xs, ∀ b ∈ xs, key a = key b → a = b) :
    sortBy key ((newest key limit xs).filter p) = ((sortBy key xs).rtake limit).filter p := by
  have hinj : ∀ a ∈ newest key limit xs, ∀ b ∈ newest key limit xs, key a = key b → a = b :=
    fun a ha b hb => hkey a (mem_of_mem_newest ha) b (mem_of_mem_newest hb)
  have hsorted : ((sortBy key xs).rtake limit).Pairwise fun a b => key a ≤ key b :=
    (pairwise_sortBy key xs).sublist (List.drop_sublist _ _)
  rw [sortBy_filter, ← sortBy_eq_self hsorted]
  congr 1
  refine sortBy_eq_of_perm ?_ hinj
  rw [newest_eq]
  exact List.reverse_perm _

/-- The end of a list is the end of its second part if that part has enough elements, or all. -/
lemma rtake_append_iff {as bs : List α} {k : ℕ} :
    bs.rtake k = (as ++ bs).rtake k ↔ min k (as ++ bs).length ≤ bs.length := by
  constructor
  · intro h
    have hlength := congrArg List.length h
    simp only [List.rtake, List.length_drop, List.length_append] at hlength ⊢
    omega
  · intro h
    rw [List.length_append] at h
    rcases le_or_gt k bs.length with hk | hk
    · rw [List.rtake, List.rtake, List.length_append,
        show as.length + bs.length - k = as.length + (bs.length - k) by omega, List.drop_append]
      simp
    · have hnil : as = [] := List.length_eq_zero_iff.mp (by omega)
      rw [hnil, List.nil_append]

/-- The last elements that meet a condition are found among the newest exactly when enough of those
meet it, or all that do are among them. -/
theorem rtake_filter_newest {p : α → Bool} {limit k : ℕ}
    (hkey : ∀ a ∈ xs, ∀ b ∈ xs, key a = key b → a = b) :
    (sortBy key ((newest key limit xs).filter p)).rtake k =
        (sortBy key (xs.filter p)).rtake k ↔
      min k (xs.filter p).length ≤ ((newest key limit xs).filter p).length := by
  have hsplit : sortBy key (xs.filter p) = ((sortBy key xs).rdrop limit).filter p ++
      ((sortBy key xs).rtake limit).filter p := by
    rw [sortBy_filter, ← List.filter_append, List.rdrop, List.rtake, List.take_append_drop]
  have hlength : ((newest key limit xs).filter p).length =
      (((sortBy key xs).rtake limit).filter p).length := by
    rw [← sortBy_filter_newest hkey, length_sortBy]
  have hsorted : (sortBy key (xs.filter p)).length = (xs.filter p).length := length_sortBy
  rw [sortBy_filter_newest hkey, hlength, ← hsorted, hsplit, rtake_append_iff]

/-- What meets a condition among the first elements is the beginning of what meets it, and the whole
of it up to the limit exactly when all of the first elements meet it or none of the others does. -/
theorem filter_take_eq_iff (f : α → β) {p : α → Bool} {k : ℕ} :
    ((xs.take k).filter p).map f = ((xs.filter p).take k).map f ↔
      (∀ a ∈ xs.take k, p a) ∨ ∀ a ∈ xs.drop k, p a = false := by
  have hsplit : xs.filter p = (xs.take k).filter p ++ (xs.drop k).filter p := by
    rw [← List.filter_append, List.take_append_drop]
  have hle : ((xs.take k).filter p).length ≤ (xs.take k).length := List.length_filter_le _ _
  have htake : (xs.take k).length ≤ k := List.length_take_le _ _
  constructor
  · intro h
    have hlength := congrArg List.length h
    rw [List.length_map, List.length_map, hsplit, List.length_take, List.length_append] at hlength
    rcases Nat.eq_zero_or_pos ((xs.drop k).filter p).length with hnone | hsome
    · right
      simpa using hnone
    · left
      have hfull : ((xs.take k).filter p).length = (xs.take k).length := by omega
      simpa using List.length_filter_eq_length_iff.mp hfull
  · rintro (hall | hnone)
    · have hfilter : (xs.take k).filter p = xs.take k := List.filter_eq_self.mpr hall
      rcases le_or_gt xs.length k with hk | hk
      · have hrest : xs.drop k = [] := List.drop_eq_nil_of_le hk
        rw [hsplit, hrest, List.filter_nil, List.append_nil, List.take_of_length_le (hle.trans htake)]
      · have hlength : (xs.take k).length = k := List.length_take_of_le hk.le
        rw [hsplit, hfilter, List.take_left' hlength]
    · have hrest : (xs.drop k).filter p = [] := by simpa using hnone
      rw [hsplit, hrest, List.append_nil, List.take_of_length_le (hle.trans htake)]

/-- An element is among the first of a sorted list exactly when few elements precede it, where the
keys tell the elements apart. -/
theorem mem_take_sortBy_iff {k : ℕ} {a : α} (hkey : (xs.map key).Nodup) (ha : a ∈ xs) :
    a ∈ (sortBy key xs).take k ↔ xs.countP (fun b => key b < key a) < k := by
  have hnodup : ((sortBy key xs).map key).Nodup :=
    (((sortBy_perm key xs).map key).nodup_iff).mpr hkey
  obtain ⟨before, rest, hsorted⟩ := List.append_of_mem (mem_sortBy.mpr ha : a ∈ sortBy key xs)
  have hpairwise := pairwise_sortBy key xs
  rw [hsorted] at hpairwise hnodup
  rw [List.pairwise_append] at hpairwise
  obtain ⟨-, hrest, hacross⟩ := hpairwise
  rw [List.map_append, List.map_cons, List.nodup_append] at hnodup
  have hbefore : before.countP (fun b => key b < key a) = before.length := by
    refine List.countP_eq_length.mpr fun b hb => decide_eq_true ?_
    have hne := hnodup.2.2 (key b) (List.mem_map_of_mem hb) (key a) List.mem_cons_self
    exact lt_of_le_of_ne (hacross b hb a List.mem_cons_self) hne
  have hafter : (a :: rest).countP (fun b => key b < key a) = 0 := by
    refine List.countP_eq_zero.mpr fun b hb => ?_
    rw [decide_eq_true_eq, not_lt]
    rcases List.mem_cons.mp hb with rfl | hb
    · exact le_rfl
    · exact (List.pairwise_cons.mp hrest).1 b hb
  have hcount : xs.countP (fun b => key b < key a) = before.length := by
    rw [← (sortBy_perm key xs).countP_eq, hsorted, List.countP_append, hbefore, hafter, Nat.add_zero]
  have hout : a ∉ before := by
    intro hmem
    exact hnodup.2.2 (key a) (List.mem_map_of_mem hmem) (key a) List.mem_cons_self rfl
  rw [hcount, hsorted, List.take_append, List.mem_append, or_iff_right fun h => hout
    (List.mem_of_mem_take h)]
  cases hk : k - before.length with
  | zero => simp; omega
  | succ n => simp; omega

/-- An element among the first of a sorted list stays there when its key falls. -/
theorem mem_take_sortBy_of_le {k : ℕ} {a a' : α} {others : List α} (hxs : xs.Perm (a :: others))
    (hys : ys.Perm (a' :: others)) (hkey : (xs.map key).Nodup) (hkey' : (ys.map key).Nodup)
    (hle : key a' ≤ key a) (h : a ∈ (sortBy key xs).take k) : a' ∈ (sortBy key ys).take k := by
  have ha : a ∈ xs := hxs.mem_iff.mpr List.mem_cons_self
  have ha' : a' ∈ ys := hys.mem_iff.mpr List.mem_cons_self
  rw [mem_take_sortBy_iff hkey' ha', hys.countP_eq, List.countP_cons_of_neg (by simp)]
  rw [mem_take_sortBy_iff hkey ha, hxs.countP_eq, List.countP_cons_of_neg (by simp)] at h
  refine lt_of_le_of_lt (List.countP_mono_left fun b _ hb => ?_) h
  rw [decide_eq_true_eq] at hb ⊢
  exact hb.trans_le hle

/-! ### Stability -/

/-- Elements go before a list whose first key is no smaller. -/
lemma foldr_orderedInsert_of_le {key' : β → κ} {k : κ} {block rest : List β}
    (hblock : ∀ b ∈ block, key' b = k) (hrest : ∀ b, rest.head? = some b → k ≤ key' b) :
    block.foldr (List.orderedInsert fun b c => key' b ≤ key' c) rest = block ++ rest := by
  induction block with
  | nil => rfl
  | cons b block ih =>
      have hb := hblock b List.mem_cons_self
      have hblock := fun c hc => hblock c (List.mem_cons_of_mem b hc)
      rw [List.foldr_cons, ih hblock]
      cases hwhole : block ++ rest with
      | nil => simp [hwhole]
      | cons c cs =>
          have hle : key' b ≤ key' c := by
            cases block with
            | nil =>
                rw [List.nil_append] at hwhole
                rw [hb]
                exact hrest c (by rw [hwhole]; rfl)
            | cons d block =>
                obtain ⟨rfl, -⟩ := List.cons.inj hwhole
                exact (hb.trans (hblock d List.mem_cons_self).symm).le
          rw [List.orderedInsert_cons, if_pos hle, List.cons_append, hwhole]

/-- Elements pass over smaller keys. -/
lemma foldr_orderedInsert_of_lt {key' : β → κ} {k : κ} {block before rest : List β}
    (hblock : ∀ b ∈ block, key' b = k) (hbefore : ∀ b ∈ before, key' b < k) :
    block.foldr (List.orderedInsert fun b c => key' b ≤ key' c) (before ++ rest) =
      before ++ block.foldr (List.orderedInsert fun b c => key' b ≤ key' c) rest := by
  have hone : ∀ b, key' b = k → ∀ rest : List β,
      List.orderedInsert (fun b c => key' b ≤ key' c) b (before ++ rest) =
        before ++ List.orderedInsert (fun b c => key' b ≤ key' c) b rest := by
    intro b hb rest
    induction before with
    | nil => rfl
    | cons c before ih =>
        have hlt : ¬key' b ≤ key' c := by
          rw [hb, not_le]
          exact hbefore c List.mem_cons_self
        rw [List.cons_append, List.orderedInsert_cons, if_neg hlt,
          ih fun d hd => hbefore d (List.mem_cons_of_mem c hd), List.cons_append]
  induction block with
  | nil => rfl
  | cons b block ih =>
      rw [List.foldr_cons, List.foldr_cons, ih fun c hc => hblock c (List.mem_cons_of_mem b hc),
        hone b (hblock b List.mem_cons_self)]

/-- Blocks of one key each are sorted as a whole. -/
theorem sortBy_flatMap {key' : β → κ} {f : α → List β} {xs : List α}
    (hkey : ∀ x ∈ xs, ∀ b ∈ f x, key' b = key x) (hne : ∀ x ∈ xs, f x ≠ []) :
    sortBy key' (xs.flatMap f) = (sortBy key xs).flatMap f := by
  have hinsert : ∀ x, (∀ b ∈ f x, key' b = key x) → ∀ ys : List α,
      (∀ y ∈ ys, ∀ b ∈ f y, key' b = key y) → (∀ y ∈ ys, f y ≠ []) →
      (f x).foldr (List.orderedInsert fun b c => key' b ≤ key' c) (ys.flatMap f) =
        (ys.orderedInsert (fun y z => key y ≤ key z) x).flatMap f := by
    intro x hx ys hys hne
    induction ys with
    | nil =>
        rw [List.flatMap_nil, foldr_orderedInsert_of_le hx (by simp), List.orderedInsert_nil,
          List.flatMap_singleton, List.append_nil]
    | cons y ys ih =>
        have hy := hys y List.mem_cons_self
        by_cases hle : key x ≤ key y
        · rw [List.orderedInsert_cons, if_pos hle, List.flatMap_cons]
          refine foldr_orderedInsert_of_le hx fun b hb => ?_
          rw [List.head?_append_of_ne_nil _ (hne y List.mem_cons_self)] at hb
          rw [hy b (List.mem_of_head? hb)]
          exact hle
        · rw [List.orderedInsert_cons, if_neg hle, List.flatMap_cons, List.flatMap_cons,
            foldr_orderedInsert_of_lt hx fun b hb => (hy b hb).trans_lt (not_le.mp hle),
            ih (fun z hz => hys z (List.mem_cons_of_mem y hz))
              fun z hz => hne z (List.mem_cons_of_mem y hz)]
  induction xs with
  | nil => rfl
  | cons x xs ih =>
      have hxs := fun y hy => hkey y (List.mem_cons_of_mem x hy)
      have hne' := fun y hy => hne y (List.mem_cons_of_mem x hy)
      have hmem : ∀ y, y ∈ sortBy key xs → y ∈ xs := fun y => mem_sortBy.mp
      calc sortBy key' ((x :: xs).flatMap f)
          = (f x).foldr (List.orderedInsert fun b c => key' b ≤ key' c)
              (sortBy key' (xs.flatMap f)) := List.foldr_append
        _ = (f x).foldr (List.orderedInsert fun b c => key' b ≤ key' c)
              ((sortBy key xs).flatMap f) := by rw [ih hxs hne']
        _ = (sortBy key (x :: xs)).flatMap f :=
            hinsert x (hkey x List.mem_cons_self) _ (fun y hy => hxs y (hmem y hy))
              fun y hy => hne' y (hmem y hy)

end KeySort
