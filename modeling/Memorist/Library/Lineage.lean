import Mathlib.Logic.Relation
import Memorist.Library.Dict

/-!
Searches of the graph that a dictionary of successors gives, whose vertices may name others that it
lacks.

* `Edge`, `ReachesCycle`: its edges, and the vertices from which a cycle is reached;
* `search`: depth first, the last successor first, up to a vertex that was seen before or is lacking;
* `lineage`: the ends of the walks from a vertex, in the order of the search, unrolled to a depth;
* `search_eq_true_iff`, `search_eq_false_iff`: the search by the lineage of its start;
* `line`: the first successors from a vertex on (`line_ends`: without repetition it ends).
-/

open Relation

/-- A graph: the successors of its vertices. -/
abbrev Successors (κ : Type) := Dict κ (List κ)

namespace Successors

variable {κ : Type} [DecidableEq κ] (g : Successors κ)

/-- A successor of a vertex, in the dictionary or not. -/
def Edge (v w : κ) : Prop := ∃ ws, Dict.get? g v = some ws ∧ w ∈ ws

/-- A cycle is reached along the edges. -/
def ReachesCycle (v : κ) : Prop := ∃ w, ReflTransGen g.Edge v w ∧ TransGen g.Edge w w

/-- No cycle is reached where every edge leads to a lower rank. -/
lemma not_reachesCycle_of_rank (rank : κ → ℕ) (hrank : ∀ p ∈ g, ∀ w ∈ p.2, rank w < rank p.1) (v : κ) :
    ¬ReachesCycle g v := by
  have hedge : ∀ {u w}, g.Edge u w → rank w < rank u := by
    rintro u w ⟨ws, hws, hw⟩
    exact hrank (u, ws) (Dict.mem_of_get? hws) w hw
  rintro ⟨w, -, hcycle⟩
  have hlt : ∀ {u}, TransGen g.Edge w u → rank u < rank w := by
    intro u hu
    induction hu with
    | single h => exact hedge h
    | tail _ h ih => exact (hedge h).trans ih
  exact lt_irrefl _ (hlt hcycle)

/-! ### The search -/

/-- The keys that were not seen. -/
def unseen {ν : Type} (d : Dict κ ν) (seen : List κ) : ℕ := (d.filter fun p => p.1 ∉ seen).length

/-- Seeing a key leaves fewer of them. -/
lemma unseen_cons_lt {ν : Type} (d : Dict κ ν) {seen : List κ} {v : κ} (hv : v ∉ seen) {x : ν}
    (hx : Dict.get? d v = some x) : unseen d (v :: seen) < unseen d seen := by
  have hmem : (v, x) ∈ d.filter fun p => p.1 ∉ seen :=
    List.mem_filter.mpr ⟨Dict.mem_of_get? hx, decide_eq_true hv⟩
  have hfilter : d.filter (fun p => p.1 ∉ v :: seen) =
      (d.filter fun p => p.1 ∉ seen).filter fun p => p.1 ≠ v := by
    rw [List.filter_filter]
    refine List.filter_congr fun p _ => ?_
    simp [List.mem_cons, not_or]
  rw [unseen, unseen, hfilter]
  refine List.length_filter_lt_length_iff_exists.mpr ⟨_, hmem, ?_⟩
  simp

/-- Search from the vertices of a stack: whether one is met that was seen before; the vertex that
the dictionary lacks where there is one. -/
def search : List κ → List κ → Except κ Bool
  | [], _ => .ok false
  | v :: stack, seen =>
      if _hv : v ∈ seen then .ok true
      else match _hws : Dict.get? g v with
        | none => .error v
        | some ws => search (ws.reverse ++ stack) (v :: seen)
  termination_by _ seen => unseen g seen
  decreasing_by exact unseen_cons_lt g _hv _hws

/-! ### Lineages -/

/-- The ends of the walks from a vertex up to a length, depth first, the last successor first. -/
def lineage : ℕ → κ → List κ
  | 0, v => [v]
  | n + 1, v => v :: ((Dict.get? g v).getD []).reverse.flatMap (lineage n)

/-- What a search reads of the vertices to come. -/
def scan : List κ → List κ → Except κ Bool
  | _, [] => .ok false
  | seen, v :: vs =>
      if v ∈ seen then .ok true
      else if Dict.get? g v = none then .error v
      else scan (v :: seen) vs

lemma lineage_eq_cons (n : ℕ) (v : κ) : ∃ vs, lineage g n v = v :: vs := by
  cases n with
  | zero => exact ⟨[], rfl⟩
  | succ n => exact ⟨_, rfl⟩

/-- A lineage lists the successors of its vertex. -/
lemma mem_lineage_of_mem {v w : κ} {ws : List κ} (hv : Dict.get? g v = some ws) (hw : w ∈ ws) (n : ℕ) :
    w ∈ lineage g (n + 1) v := by
  obtain ⟨vs, hvs⟩ := lineage_eq_cons g n w
  rw [lineage, hv, Option.getD_some]
  refine List.mem_cons_of_mem _ (List.mem_flatMap.mpr ⟨w, List.mem_reverse.mpr hw, ?_⟩)
  rw [hvs]
  exact List.mem_cons_self

/-- Distinct vertices are no more than the dictionary has. -/
lemma length_le_of_nodup {vs : List κ} (hnodup : vs.Nodup) (hvs : ∀ v ∈ vs, Dict.get? g v ≠ none) :
    vs.length ≤ g.length := by
  have hsub : vs ⊆ g.map Prod.fst := by
    intro v hv
    by_contra hnot
    exact hvs v hv (Dict.get?_of_not_mem hnot)
  calc vs.length ≤ (g.map Prod.fst).length := (hnodup.subperm hsub).length_le
    _ = g.length := List.length_map _

/-- A search reads the lineages of its stack, as long as they are deep enough for what it has
seen. -/
lemma search_eq_scan (stack seen : List κ) (items : List (κ × ℕ)) (hstack : stack = items.map Prod.fst)
    (hdeep : ∀ p ∈ items, g.length ≤ seen.length + p.2) (hnodup : seen.Nodup)
    (hseen : ∀ v ∈ seen, Dict.get? g v ≠ none) :
    search g stack seen = scan g seen (items.flatMap fun p => lineage g p.2 p.1) := by
  induction stack, seen using search.induct (g := g) generalizing items with
  | case1 seen =>
      rw [eq_comm, List.map_eq_nil_iff] at hstack
      subst hstack
      rw [search]; rfl
  | case2 v stack seen hv =>
      obtain ⟨⟨w, n⟩, items, rfl, hw, rfl⟩ := List.map_eq_cons_iff.mp hstack.symm
      obtain rfl : w = v := hw
      obtain ⟨vs, hvs⟩ := lineage_eq_cons g n w
      rw [search, dif_pos hv, List.flatMap_cons, hvs, List.cons_append, scan, if_pos hv]
  | case3 v stack seen hv hws =>
      obtain ⟨⟨w, n⟩, items, rfl, hw, rfl⟩ := List.map_eq_cons_iff.mp hstack.symm
      obtain rfl : w = v := hw
      obtain ⟨vs, hvs⟩ := lineage_eq_cons g n w
      rw [search, dif_neg hv, List.flatMap_cons, hvs, List.cons_append, scan, if_neg hv, if_pos hws]
      split
      · rfl
      · next ws hws' => exact absurd (hws.symm.trans hws') (Option.some_ne_none ws).symm
  | case4 v stack seen hv ws hws ih =>
      obtain ⟨⟨w, n⟩, items, rfl, hw, rfl⟩ := List.map_eq_cons_iff.mp hstack.symm
      obtain rfl : w = v := hw
      have hpresent : ∀ u ∈ w :: seen, Dict.get? g u ≠ none := by
        intro u hu
        rcases List.mem_cons.mp hu with rfl | hu
        · rw [hws]
          exact Option.some_ne_none ws
        · exact hseen u hu
      have hcons : (w :: seen).Nodup := List.nodup_cons.mpr ⟨hv, hnodup⟩
      cases n with
      | zero =>
          -- every vertex of the dictionary was seen
          have hle := length_le_of_nodup g hcons hpresent
          have hroot := hdeep (w, 0) List.mem_cons_self
          rw [List.length_cons] at hle
          omega
      | succ n =>
          have hroot := hdeep (w, n + 1) List.mem_cons_self
          have hrest := ih (ws.reverse.map (fun u => (u, n)) ++ items)
            (by rw [List.map_append, List.map_map, Function.comp_def, List.map_id'])
            (by
              intro p hp
              rw [List.length_cons]
              rcases List.mem_append.mp hp with hp | hp
              · obtain ⟨u, -, rfl⟩ := List.mem_map.mp hp
                simp only at hroot ⊢
                omega
              · have := hdeep p (List.mem_cons_of_mem _ hp)
                omega)
            hcons hpresent
          rw [search, dif_neg hv, List.flatMap_cons, lineage, List.cons_append, scan, if_neg hv,
            if_neg (by rw [hws]; exact Option.some_ne_none ws), hws, Option.getD_some]
          split
          · next hnone => exact absurd hnone (Option.some_ne_none ws)
          · next us hus =>
              obtain rfl : ws = us := Option.some.inj hus
              rw [hrest, List.flatMap_append, List.flatMap_map]

/-- A vertex stands a second time, and only vertices of the dictionary before. -/
def RepeatsFirst (vs : List κ) : Prop :=
  ∃ before v after, vs = before ++ v :: after ∧ v ∈ before ∧
    ∀ w ∈ before, Dict.get? g w ≠ none

lemma scan_eq_true_iff (seen vs : List κ) : scan g seen vs = .ok true ↔
    ∃ before v after, vs = before ++ v :: after ∧ (v ∈ seen ∨ v ∈ before) ∧
      ∀ w ∈ before, Dict.get? g w ≠ none := by
  induction vs generalizing seen with
  | nil => simp [scan]
  | cons v vs ih =>
      rw [scan]
      split_ifs with hv hnone
      · exact iff_of_true rfl ⟨[], v, vs, rfl, .inl hv, by simp⟩
      · refine iff_of_false (by simp) ?_
        rintro ⟨before, w, after, hsplit, hw, hbefore⟩
        cases before with
        | nil =>
            obtain ⟨rfl, -⟩ := List.cons.inj hsplit
            exact hw.elim hv (by simp)
        | cons u before =>
            obtain ⟨rfl, -⟩ := List.cons.inj hsplit
            exact hbefore v List.mem_cons_self hnone
      · rw [ih]
        constructor
        · rintro ⟨before, w, after, rfl, hw, hbefore⟩
          refine ⟨v :: before, w, after, rfl, ?_, ?_⟩
          · rw [List.mem_cons] at hw ⊢
            tauto
          · exact List.forall_mem_cons.mpr ⟨hnone, hbefore⟩
        · rintro ⟨before, w, after, hsplit, hw, hbefore⟩
          cases before with
          | nil =>
              obtain ⟨rfl, -⟩ := List.cons.inj hsplit
              exact absurd hw (by simp [hv])
          | cons u before =>
              obtain ⟨rfl, rfl⟩ := List.cons.inj hsplit
              refine ⟨before, w, after, rfl, ?_, (List.forall_mem_cons.mp hbefore).2⟩
              rw [List.mem_cons] at hw ⊢
              tauto

lemma scan_eq_false_iff (seen vs : List κ) : scan g seen vs = .ok false ↔
    vs.Nodup ∧ ∀ v ∈ vs, v ∉ seen ∧ Dict.get? g v ≠ none := by
  induction vs generalizing seen with
  | nil => simp [scan]
  | cons v vs ih =>
      rw [scan, List.forall_mem_cons, List.nodup_cons]
      split_ifs with hv hnone
      · simp [hv]
      · simp [hnone]
      · rw [ih]
        constructor
        · rintro ⟨hnodup, hall⟩
          exact ⟨⟨fun hmem => (hall v hmem).1 List.mem_cons_self, hnodup⟩, ⟨hv, hnone⟩,
            fun w hw => ⟨fun hmem => (hall w hw).1 (List.mem_cons_of_mem v hmem), (hall w hw).2⟩⟩
        · rintro ⟨⟨hnot, hnodup⟩, -, hall⟩
          refine ⟨hnodup, fun w hw => ⟨?_, (hall w hw).2⟩⟩
          rw [List.mem_cons, not_or]
          exact ⟨fun heq => hnot (heq ▸ hw), (hall w hw).1⟩

/-- A search from one vertex reads its lineage. -/
lemma search_singleton (v : κ) : search g [v] [] = scan g [] (lineage g g.length v) := by
  rw [search_eq_scan g [v] [] [(v, g.length)] rfl (by simp) List.nodup_nil (by simp),
    List.flatMap_singleton]

/-- A search finds a vertex again if and only if the lineage repeats one before it names one that
the dictionary lacks. -/
theorem search_eq_true_iff (v : κ) :
    search g [v] [] = .ok true ↔ RepeatsFirst g (lineage g g.length v) := by
  rw [search_singleton, scan_eq_true_iff]
  simp [RepeatsFirst]

/-- A search ends without that if and only if the lineage has distinct vertices of the dictionary
only. -/
theorem search_eq_false_iff (v : κ) : search g [v] [] = .ok false ↔
    (lineage g g.length v).Nodup ∧ ∀ w ∈ lineage g g.length v, Dict.get? g w ≠ none := by
  rw [search_singleton, scan_eq_false_iff]
  simp

/-! ### Lines -/

/-- The first successor of a vertex. -/
def first (v : κ) : Option κ := (Dict.get? g v).bind List.head?

/-- The vertex that is some steps along the first successors. -/
def line : ℕ → κ → Option κ
  | 0, v => some v
  | n + 1, v => (g.first v).bind (line n)

@[simp] lemma line_zero (v : κ) : line g 0 v = some v := rfl

lemma line_add (m n : ℕ) (v : κ) : line g (m + n) v = (line g m v).bind (line g n) := by
  induction m generalizing v with
  | zero => rw [Nat.zero_add, line_zero, Option.bind_some]
  | succ m ih =>
      rw [Nat.add_right_comm, line, line, Option.bind_assoc]
      exact Option.bind_congr fun w _ => ih w

lemma line_succ (n : ℕ) (v : κ) : line g (n + 1) v = (line g n v).bind g.first := by
  rw [line_add]
  refine Option.bind_congr fun w _ => ?_
  rw [line]
  exact Option.bind_fun_some (g.first w)

/-- A line that meets no vertex twice leaves the dictionary. -/
lemma line_ends {v : κ}
    (hinj : ∀ i j w, line g i v = some w → line g j v = some w → i = j) :
    ∃ n, ∀ w, line g n v = some w → Dict.get? g w = none := by
  by_contra hnot
  push Not at hnot
  choose u hu hget using hnot
  have hnodup : ((List.range (g.length + 1)).map u).Nodup :=
    List.nodup_range.map fun i j hij => hinj i j (u i) (hu i) (hij ▸ hu j)
  have hle := length_le_of_nodup g hnodup fun w hw => by
    obtain ⟨n, -, rfl⟩ := List.mem_map.mp hw
    exact hget n
  rw [List.length_map, List.length_range] at hle
  omega

end Successors
