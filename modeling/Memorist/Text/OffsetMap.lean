import Memorist.Library.Bisect
import Memorist.Text.Tokens

/-!
The offset map of normalization for any rules on characters (`textsemantics/normalize.py`).

* `CharacterRules`: combining classes, composition and replacement, of which nothing is assumed;
* `CharacterRules.normalizeWithMapping`: the pass with these rules, which
  `normalizeWithMapping` is at those of Unicode (`normalizeWithMapping_eq`);
* `normalizedSpan`: a raw range looked up by two bisections;
* `Emitter.Bounded`: what every prefix of the pass satisfies. Ranges are non-empty, and neither
  their starts nor their ends ever decrease;
* `offsetMap_exact`: **the map is exact, and a raw range is mapped to the smallest range of the
  characters that it overlaps.**
-/

namespace Memorist

/-- What the interpreter says of characters: combining classes, composition, and what a character is
replaced by. -/
structure CharacterRules where
  combining : Char → ℕ
  nfc : Text → Text
  replace : Char → Text

/-- The rules of Unicode under a contract. -/
def unicodeRules (U : UnicodeData) (contract : NormalizationContract) : CharacterRules where
  combining := U.combining
  nfc := U.nfc
  replace := replace U contract

namespace CharacterRules

variable (rules : CharacterRules) (contract : NormalizationContract)

/-- A mark of a cluster: not ASCII, with a combining class. -/
def isMark (c : Char) : Bool := !isAscii c && rules.combining c != 0

/-- The composed form of a cluster; a lone ASCII character is composed already. -/
def compose (cluster : Text) : Text :=
  if contract.unicodeForm = "NFC" ∧ ¬(cluster.length = 1 ∧ cluster.all isAscii) then
    rules.nfc cluster
  else cluster

/-- The clusters still to come when `cluster`, begun at `start`, has been read up to `index`. -/
def clustersFrom (cluster : Text) (start index : ℕ) : Text → List Cluster
  | [] => [⟨rules.compose contract cluster, start, index⟩]
  | c :: rest =>
      if rules.isMark c then clustersFrom (cluster ++ [c]) start (index + 1) rest
      else ⟨rules.compose contract cluster, start, index⟩ ::
        clustersFrom [c] index (index + 1) rest

/-- Each base character of `raw[start:stop]` with its combining marks, composed. -/
def clusters (raw : Text) (start stop : ℕ) : List Cluster :=
  match slice raw start stop with
  | [] => []
  | c :: rest => rules.clustersFrom contract [c] start (start + 1) rest

/-- Emit one character of a cluster that lies at `[start, stop)`. -/
def emitChar (start stop : ℕ) (e : Emitter) (char : Char) : Emitter :=
  let replacement := rules.replace char
  if replacement = [] then e
  else if replacement = [' '] then e.hold contract start stop
  else { e.flush with glyphs := e.flush.glyphs ++ replacement.map fun c => ⟨c, start, stop⟩ }

/-- Emit one cluster. -/
def emitCluster (e : Emitter) (c : Cluster) : Emitter :=
  c.text.foldl (rules.emitChar contract c.start c.stop) e

/-- Emit a prose block. -/
def emitProse (e : Emitter) (raw : Text) (start stop : ℕ) : Emitter :=
  (rules.clusters contract raw start stop).foldl (rules.emitCluster contract) e

/-- Emit one block. -/
def emitBlock (raw : Text) (e : Emitter) (b : TextBlock) : Emitter :=
  match b.kind with
  | .code => e.emitVerbatim raw b.start b.stop
  | .prose => rules.emitProse contract e raw b.start b.stop

/-- Normalize `raw` and keep an exact map back to its offsets. -/
def normalizeWithMapping (U : UnicodeData) (raw : Text) : NormalizedText :=
  ((normalizationBlocks U contract raw).foldl (rules.emitBlock contract raw)
    ⟨[], [], none⟩).finish contract raw

end CharacterRules

/-! ### The rules of Unicode -/

section

variable (U : UnicodeData) (contract : NormalizationContract)

lemma clustersFrom_unicodeRules (rest : Text) : ∀ (cluster : Text) (start index : ℕ),
    (unicodeRules U contract).clustersFrom contract cluster start index rest =
      clustersFrom U contract cluster start index rest := by
  induction rest with
  | nil => intro cluster start index; rfl
  | cons c rest ih =>
      intro cluster start index
      rw [CharacterRules.clustersFrom, clustersFrom, ih, ih]
      rfl

lemma emitBlock_unicodeRules (raw : Text) :
    (unicodeRules U contract).emitBlock contract raw = Emitter.emitBlock U contract raw := by
  funext e b
  have hclusters : (unicodeRules U contract).clusters contract raw b.start b.stop =
      clusters U contract raw b.start b.stop := by
    rw [CharacterRules.clusters, clusters]
    cases slice raw b.start b.stop with
    | nil => rfl
    | cons c rest => exact clustersFrom_unicodeRules U contract rest _ _ _
  rw [CharacterRules.emitBlock, Emitter.emitBlock, CharacterRules.emitProse, Emitter.emitProse,
    hclusters]
  rfl

/-- Normalization is the pass with the rules of Unicode. -/
theorem normalizeWithMapping_eq (raw : Text) :
    normalizeWithMapping U contract raw =
      (unicodeRules U contract).normalizeWithMapping contract U raw := by
  rw [normalizeWithMapping, CharacterRules.normalizeWithMapping, emitBlock_unicodeRules]

end

/-! ### Looking up a raw range -/

namespace NormalizedText

variable (n : NormalizedText)

/-- The raw range behind each character. -/
def spans : List (ℕ × ℕ) := n.glyphs.map fun g => (g.start, g.stop)

/-- The normalized range that a raw range produced, if it produced a character. -/
def normalizedSpan (rawStart rawEnd : ℕ) : Except String (Option (ℕ × ℕ)) :=
  if n.raw.length < rawEnd ∨ rawEnd ≤ rawStart then
    .error s!"invalid raw span: [{rawStart}, {rawEnd})"
  else
    let first := Bisect.right (n.spans.map Prod.snd) rawStart
    let last : ℤ := Bisect.left (n.spans.map Prod.fst) rawEnd - 1
    if last < first then .ok none else .ok (some (first, (last + 1).toNat))

/-- The raw range of a character overlaps a raw range. -/
def OverlapsAt (rawStart rawEnd i : ℕ) : Prop :=
  ∃ s, n.spans[i]? = some s ∧ s.1 < rawEnd ∧ rawStart < s.2

/-- The smallest range of positions that holds every one with a property. -/
def IsHull (p : ℕ → Prop) (range : ℕ × ℕ) : Prop :=
  (∀ i, p i → range.1 ≤ i ∧ i < range.2) ∧
    ∀ range' : ℕ × ℕ, (∀ i, p i → range'.1 ≤ i ∧ i < range'.2) →
      range'.1 ≤ range.1 ∧ range.2 ≤ range'.2

end NormalizedText

/-- A map of characters into a raw text: ranges are non-empty, and neither their starts nor their
ends ever decrease. -/
structure ExactMap (raw : Text) (spans : List (ℕ × ℕ)) : Prop where
  range : ∀ s ∈ spans, s.1 < s.2 ∧ s.2 ≤ raw.length
  starts : (spans.map Prod.fst).Pairwise (· ≤ ·)
  stops : (spans.map Prod.snd).Pairwise (· ≤ ·)

namespace ExactMap

variable {n : NormalizedText} {a b : ℕ}

/-- What is overlapped are the positions from one bound to the other. -/
lemma overlapsAt_iff (h : ExactMap n.raw n.spans) {i : ℕ} :
    n.OverlapsAt a b i ↔
      Bisect.right (n.spans.map Prod.snd) a ≤ i ∧ i < Bisect.left (n.spans.map Prod.fst) b := by
  rw [← not_lt, Bisect.lt_right_iff h.stops, Bisect.lt_left_iff h.starts, List.getElem?_map,
    List.getElem?_map, NormalizedText.OverlapsAt]
  constructor
  · rintro ⟨s, hs, hb, ha⟩
    rw [hs]
    refine ⟨?_, s.1, rfl, hb⟩
    rintro ⟨y, hy, hle⟩
    obtain rfl := Option.some_inj.mp hy
    omega
  · rintro ⟨hnot, y, hy, hb⟩
    obtain ⟨s, hs, rfl⟩ := Option.map_eq_some_iff.mp hy
    refine ⟨s, hs, hb, ?_⟩
    by_contra hle
    exact hnot ⟨s.2, by rw [hs, Option.map_some], not_lt.mp hle⟩

/-- A raw range is mapped to nothing when it overlaps nothing, and else to the smallest range of the
characters it overlaps. -/
lemma normalizedSpan_spec (h : ExactMap n.raw n.spans) (hab : a < b) (hb : b ≤ n.raw.length) :
    (n.normalizedSpan a b = .ok none ↔ ∀ i, ¬ n.OverlapsAt a b i) ∧
      ∀ range, n.normalizedSpan a b = .ok (some range) ↔
        (∃ i, n.OverlapsAt a b i) ∧ NormalizedText.IsHull (n.OverlapsAt a b) range := by
  have hvalid : ¬(n.raw.length < b ∨ b ≤ a) := by omega
  have hoverlaps := fun i => h.overlapsAt_iff (a := a) (b := b) (i := i)
  rw [NormalizedText.normalizedSpan, if_neg hvalid]
  dsimp only
  generalize Bisect.right (n.spans.map Prod.snd) a = first at hoverlaps ⊢
  generalize Bisect.left (n.spans.map Prod.fst) b = count at hoverlaps ⊢
  simp only [NormalizedText.IsHull, hoverlaps]
  split_ifs with hempty
  · -- the bounds leave no position
    refine ⟨iff_of_true rfl fun i hi => by omega, fun range => iff_of_false nofun ?_⟩
    rintro ⟨⟨i, hi⟩, -⟩
    omega
  · have hlt : first < count := by omega
    have hstop : ((count : ℤ) - 1 + 1).toNat = count := by omega
    rw [hstop]
    refine ⟨iff_of_false nofun fun hnone => hnone first ⟨le_rfl, hlt⟩, fun range => ?_⟩
    rw [Except.ok.injEq, Option.some_inj]
    constructor
    · rintro rfl
      refine ⟨⟨first, le_rfl, hlt⟩, fun i hi => hi, fun range' hrange' => ?_⟩
      have hfirst := hrange' first ⟨le_rfl, hlt⟩
      have hlast := hrange' (count - 1) ⟨by omega, by omega⟩
      exact ⟨hfirst.1, by omega⟩
    · rintro ⟨-, hall, hsmall⟩
      have hfirst := hall first ⟨le_rfl, hlt⟩
      have hlast := hall (count - 1) ⟨by omega, by omega⟩
      obtain ⟨hlow, hhigh⟩ := hsmall (first, count) fun i hi => hi
      refine Prod.ext ?_ ?_ <;> dsimp only at * <;> omega

end ExactMap

/-! ### What every prefix of the pass satisfies -/

/-- Ranges that start at `start` and end at `stop` at the latest, in order, and a separator that is
held back behind all of them. -/
structure Emitter.Bounded (start stop : ℕ) (e : Emitter) : Prop where
  range : ∀ g ∈ e.glyphs, g.start < g.stop ∧ g.start ≤ start ∧ g.stop ≤ stop
  ordered : e.glyphs.Pairwise fun a b => a.start ≤ b.start ∧ a.stop ≤ b.stop
  held : ∀ p ∈ e.pending, p.1 < p.2 ∧ p.1 ≤ start ∧ p.2 ≤ stop ∧
    ∀ g ∈ e.glyphs, g.start ≤ p.1 ∧ g.stop ≤ p.2

namespace Emitter.Bounded

variable {e : Emitter} {start stop : ℕ}

lemma mono (h : e.Bounded start stop) {start' stop' : ℕ} (hstart : start ≤ start')
    (hstop : stop ≤ stop') : e.Bounded start' stop' where
  range g hg := ⟨(h.range g hg).1, (h.range g hg).2.1.trans hstart, (h.range g hg).2.2.trans hstop⟩
  ordered := h.ordered
  held p hp := ⟨(h.held p hp).1, (h.held p hp).2.1.trans hstart, (h.held p hp).2.2.1.trans hstop,
    (h.held p hp).2.2.2⟩

/-- Emitting characters of one range, which lies behind all that were emitted. -/
lemma append (h : e.Bounded start stop) {a b : ℕ} (produced : Text) (hlt : a < b) (ha : a ≤ start)
    (hb : b ≤ stop) (hbehind : ∀ g ∈ e.glyphs, g.start ≤ a ∧ g.stop ≤ b) :
    ({ e with glyphs := e.glyphs ++ produced.map fun c => ⟨c, a, b⟩, pending := none } :
      Emitter).Bounded start stop where
  range g hg := by
    rcases List.mem_append.mp hg with hg | hg
    · exact h.range g hg
    · obtain ⟨_, -, rfl⟩ := List.mem_map.mp hg
      exact ⟨hlt, ha, hb⟩
  ordered := by
    refine List.pairwise_append.mpr ⟨h.ordered, ?_, fun g hg g' hg' => ?_⟩
    · exact List.pairwise_map.mpr (List.pairwise_of_forall fun _ _ => ⟨le_rfl, le_rfl⟩)
    · obtain ⟨_, -, rfl⟩ := List.mem_map.mp hg'
      exact hbehind g hg
  held := by simp

lemma flush (h : e.Bounded start stop) :
    e.flush.Bounded start stop ∧ e.flush.pending = none := by
  rw [Emitter.flush]
  cases hp : e.pending with
  | none => exact ⟨h, hp⟩
  | some p =>
      obtain ⟨hlt, hstart, hstop, hbehind⟩ := h.held p hp
      refine ⟨?_, rfl⟩
      dsimp only
      split_ifs
      · exact ⟨h.range, h.ordered, by simp⟩
      · exact h.append [' '] hlt hstart hstop hbehind

/-- Holding back the separator of the range that is read. -/
lemma hold (contract : NormalizationContract) (h : e.Bounded start stop) (hlt : start < stop) :
    (e.hold contract start stop).Bounded start stop := by
  rw [Emitter.hold]
  split_ifs
  · refine ⟨h.range, h.ordered, fun p hp => ?_⟩
    rw [Option.mem_some_iff] at hp
    subst hp
    dsimp only
    cases hpend : e.pending with
    | none =>
        exact ⟨hlt, le_rfl, le_rfl, fun g hg => (h.range g hg).2⟩
    | some q =>
        obtain ⟨hq, hqstart, hqstop, hbehind⟩ := h.held q hpend
        exact ⟨hqstart.trans_lt hlt, hqstart, le_rfl,
          fun g hg => ⟨(hbehind g hg).1, (h.range g hg).2.2⟩⟩
  · have hheld : ({ e.flush with pending := some (start, stop) } : Emitter).Bounded start stop := by
      refine ⟨h.flush.1.range, h.flush.1.ordered, fun p hp => ?_⟩
      rw [Option.mem_some_iff] at hp
      subst hp
      exact ⟨hlt, le_rfl, le_rfl, fun g hg => (h.flush.1.range g hg).2⟩
    exact hheld.flush.1

lemma emitChar (rules : CharacterRules) (contract : NormalizationContract)
    (h : e.Bounded start stop) (hlt : start < stop) (c : Char) :
    (rules.emitChar contract start stop e c).Bounded start stop := by
  rw [CharacterRules.emitChar]
  dsimp only
  split_ifs
  · exact h
  · exact h.hold contract hlt
  · obtain ⟨hflush, hnone⟩ := h.flush
    have happend := hflush.append (rules.replace c) hlt le_rfl le_rfl fun g hg =>
      (hflush.range g hg).2
    rwa [← hnone] at happend

lemma foldl_emitChar (rules : CharacterRules) (contract : NormalizationContract)
    (hlt : start < stop) (chars : Text) (h : e.Bounded start stop) :
    (chars.foldl (rules.emitChar contract start stop) e).Bounded start stop := by
  induction chars generalizing e with
  | nil => exact h
  | cons c chars ih => exact ih (h.emitChar rules contract hlt c)

end Emitter.Bounded

/-- The clusters follow one another from `start` to `stop`. -/
def ClustersTile : ℕ → List Cluster → ℕ → Prop
  | start, [], stop => start = stop
  | start, c :: cs, stop => c.start = start ∧ start < c.stop ∧ ClustersTile c.stop cs stop

section

variable (rules : CharacterRules) (contract : NormalizationContract)

lemma clustersFrom_tile (rest : Text) : ∀ (cluster : Text) (start index : ℕ), start < index →
    ClustersTile start (rules.clustersFrom contract cluster start index rest)
      (index + rest.length) := by
  induction rest with
  | nil => exact fun cluster start index hlt => ⟨rfl, hlt, rfl⟩
  | cons c rest ih =>
      intro cluster start index hlt
      rw [CharacterRules.clustersFrom,
        show index + (c :: rest).length = index + 1 + rest.length by rw [List.length_cons]; omega]
      split_ifs
      · exact ih _ start (index + 1) (by omega)
      · exact ⟨rfl, hlt, ih [c] index (index + 1) (by omega)⟩

lemma clusters_tile {raw : Text} {start stop : ℕ} (hle : start ≤ stop) (hlen : stop ≤ raw.length) :
    ClustersTile start (rules.clusters contract raw start stop) stop := by
  have hlength : (slice raw start stop).length = stop - start := by rw [slice_length]; omega
  rw [CharacterRules.clusters]
  cases hslice : slice raw start stop with
  | nil =>
      rw [hslice, List.length_nil] at hlength
      rw [ClustersTile]
      omega
  | cons c rest =>
      rw [hslice, List.length_cons] at hlength
      have htile := clustersFrom_tile rules contract rest [c] start (start + 1) (by omega)
      rwa [show start + 1 + rest.length = stop by omega] at htile

variable {rules contract}

lemma Emitter.Bounded.foldl_clusters {cs : List Cluster} {e : Emitter} {start stop : ℕ}
    (h : e.Bounded start start) (hcs : ClustersTile start cs stop) :
    (cs.foldl (rules.emitCluster contract) e).Bounded stop stop := by
  induction cs generalizing e start with
  | nil =>
      rw [ClustersTile] at hcs
      rwa [List.foldl_nil, ← hcs]
  | cons c cs ih =>
      obtain ⟨rfl, hlt, hrest⟩ := hcs
      refine ih ?_ hrest
      have hread := (h.mono le_rfl hlt.le).foldl_emitChar rules contract hlt c.text
      exact hread.mono hlt.le le_rfl

/-- Copying characters one by one. -/
lemma Emitter.Bounded.copy {e : Emitter} (chars : Text) {start : ℕ} (h : e.Bounded start start)
    (hnone : e.pending = none) :
    ({ e with glyphs := e.glyphs ++ (chars.zipIdx start).map fun c => ⟨c.1, c.2, c.2 + 1⟩ } :
      Emitter).Bounded (start + chars.length) (start + chars.length) := by
  induction chars generalizing e start with
  | nil => simpa using h
  | cons c chars ih =>
      have hone := (h.mono le_rfl (Nat.le_succ start)).append [c] (Nat.lt_succ_self start) le_rfl
        le_rfl fun g hg => ⟨(h.range g hg).2.1, (h.range g hg).2.2.trans (Nat.le_succ start)⟩
      have hrest := ih (hone.mono (Nat.le_succ start) le_rfl) rfl
      rw [List.length_cons, show start + (chars.length + 1) = start + 1 + chars.length by omega]
      simpa [hnone] using hrest

lemma Emitter.Bounded.emitVerbatim {e : Emitter} {raw : Text} {start stop : ℕ}
    (h : e.Bounded start start) (hle : start ≤ stop) (hlen : stop ≤ raw.length) :
    (e.emitVerbatim raw start stop).Bounded stop stop := by
  obtain ⟨hflush, hnone⟩ := h.flush
  have hlength : start + (slice raw start stop).length = stop := by rw [slice_length]; omega
  have hcopy := hflush.copy (slice raw start stop) hnone
  rw [hlength] at hcopy
  exact ⟨hcopy.range, hcopy.ordered, hcopy.held⟩

lemma Emitter.Bounded.foldl_blocks {bs : List TextBlock} {e : Emitter} {raw : Text} {start stop : ℕ}
    (h : e.Bounded start start) (hbs : BlocksFrom start bs stop) (hlen : stop ≤ raw.length) :
    (bs.foldl (rules.emitBlock contract raw) e).Bounded stop stop := by
  induction bs generalizing e start with
  | nil =>
      rw [BlocksFrom] at hbs
      rwa [List.foldl_nil, ← hbs]
  | cons b bs ih =>
      obtain ⟨rfl, hlt, hrest⟩ := hbs
      have hstop : b.stop ≤ raw.length := hrest.le.trans hlen
      refine ih ?_ hrest
      rw [CharacterRules.emitBlock]
      cases b.kind with
      | prose => exact h.foldl_clusters (clusters_tile rules contract hlt.le hstop)
      | code => exact h.emitVerbatim hlt.le hstop

variable (rules contract)

/-- The map of a normalized text is exact. -/
lemma exactMap_normalizeWithMapping (U : UnicodeData) (raw : Text) :
    ExactMap raw (rules.normalizeWithMapping contract U raw).spans := by
  have hinit : Emitter.Bounded 0 0 ⟨[], [], none⟩ := ⟨by simp, List.Pairwise.nil, by simp⟩
  have hfinal := @Emitter.Bounded.foldl_blocks rules contract _ _ _ _ _ hinit
    (normalizationBlocks_blocksFrom U contract raw) le_rfl
  constructor
  · intro s hs
    obtain ⟨g, hg, rfl⟩ := List.mem_map.mp hs
    exact ⟨(hfinal.range g hg).1, (hfinal.range g hg).2.2⟩
  · rw [NormalizedText.spans, List.map_map, List.pairwise_map]
    exact hfinal.ordered.imp fun h => h.1
  · rw [NormalizedText.spans, List.map_map, List.pairwise_map]
    exact hfinal.ordered.imp fun h => h.2

/-- The map of a normalized text is exact for any rules on characters, and a raw range is mapped to
nothing when it overlaps no character, and else to the smallest range of those it overlaps. -/
theorem offsetMap_exact (U : UnicodeData) (raw : Text) (a b : ℕ) :
    let n := rules.normalizeWithMapping contract U raw
    n.spans.length = n.text.length ∧ ExactMap raw n.spans ∧
      (a < b ∧ b ≤ raw.length →
        (n.normalizedSpan a b = .ok none ↔ ∀ i, ¬ n.OverlapsAt a b i) ∧
        ∀ range, n.normalizedSpan a b = .ok (some range) ↔
          (∃ i, n.OverlapsAt a b i) ∧ NormalizedText.IsHull (n.OverlapsAt a b) range) := by
  intro n
  have hexact := exactMap_normalizeWithMapping rules contract U raw
  refine ⟨?_, hexact, fun hab => ?_⟩
  · rw [NormalizedText.spans, NormalizedText.text, List.length_map, List.length_map]
  · exact hexact.normalizedSpan_spec (n := n) hab.1 hab.2

end

end Memorist
