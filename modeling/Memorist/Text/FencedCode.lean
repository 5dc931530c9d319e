import Memorist.Library.Checks
import Memorist.Text.OffsetMap

/-!
Fenced code in normalized text (`textsemantics/blocks.py`, `textsemantics/normalize.py`,
`textsemantics/tokens.py`).

* `FencesAt`: blocks of code begin and end at line breaks, and no two blocks of prose are adjacent;
* `Emitter.Fenced`: what every prefix of the pass satisfies. The code spans copy the blocks of code
  read so far, every other character comes from outside of them, and a break stands before a copy;
* `fenced_code_survives`: **code is copied character by character, and no token leaks across a
  fence.**
-/

namespace Memorist

/-! ### The fences of a text -/

/-- A position that starts a line. -/
def StartsLine (raw : Text) (i : ℕ) : Prop := i = 0 ∨ raw[i - 1]? = some '\n'

/-- A position that ends a line, its line break included. -/
def EndsLine (raw : Text) (i : ℕ) : Prop := i = raw.length ∨ raw[i - 1]? = some '\n'

/-- A block of code fills lines. -/
def FillsLines (raw : Text) (b : TextBlock) : Prop :=
  b.kind = .code → StartsLine raw b.start ∧ EndsLine raw b.stop

/-- Neighbours of which one is code. -/
def CodeNear (a b : TextBlock) : Prop := a.kind = .code ∨ b.kind = .code

/-- The blocks hold what they range over, code fills lines, and no two blocks of prose are
adjacent. -/
structure FencesAt (raw : Text) (blocks : List TextBlock) : Prop where
  text : ∀ b ∈ blocks, b.text = slice raw b.start b.stop
  fillsLines : ∀ b ∈ blocks, FillsLines raw b
  codeNear : blocks.IsChain CodeNear

namespace FencesAt

variable {raw : Text} {blocks : List TextBlock}

lemma nil : FencesAt raw [] := ⟨by simp, by simp, List.IsChain.nil⟩

/-- Adding a block of code. -/
lemma concat_code (h : FencesAt raw blocks) {start stop : ℕ} (hstart : StartsLine raw start)
    (hstop : EndsLine raw stop) : FencesAt raw (blocks ++ [block .code raw start stop]) where
  text b hb := by
    rcases List.mem_append.mp hb with hb | hb
    · exact h.text b hb
    · rw [List.mem_singleton.mp hb]
      rfl
  fillsLines b hb := by
    rcases List.mem_append.mp hb with hb | hb
    · exact h.fillsLines b hb
    · rw [List.mem_singleton.mp hb]
      exact fun _ => ⟨hstart, hstop⟩
  codeNear := by
    refine List.isChain_append.mpr ⟨h.codeNear, List.isChain_singleton _, fun a _ b hb => .inr ?_⟩
    rw [List.head?_cons, Option.mem_some_iff] at hb
    exact hb ▸ rfl

/-- Adding a block of prose behind one of code. -/
lemma concat_prose (h : FencesAt raw blocks) (hlast : ∀ b ∈ blocks.getLast?, b.kind = .code)
    (start stop : ℕ) : FencesAt raw (blocks ++ [block .prose raw start stop]) where
  text b hb := by
    rcases List.mem_append.mp hb with hb | hb
    · exact h.text b hb
    · rw [List.mem_singleton.mp hb]
      rfl
  fillsLines b hb := by
    rcases List.mem_append.mp hb with hb | hb
    · exact h.fillsLines b hb
    · rw [List.mem_singleton.mp hb]
      exact nofun
  codeNear :=
    List.isChain_append.mpr ⟨h.codeNear, List.isChain_singleton _, fun a ha _ _ => .inl (hlast a ha)⟩

end FencesAt

/-- The lines still to come start and end at line breaks. -/
lemma linesFrom_breaks {raw : Text} (rest : Text) : ∀ (start : ℕ) (line : Text) (position : ℕ),
    raw.drop position = rest → position ≤ raw.length → StartsLine raw start →
    ∀ l ∈ linesFrom start line position rest, StartsLine raw l.start ∧ EndsLine raw l.stop := by
  induction rest with
  | nil =>
      intro start line position hdrop hle hstart l hl
      rw [linesFrom] at hl
      split_ifs at hl with hempty
      · exact absurd hl List.not_mem_nil
      · rw [List.mem_singleton.mp hl]
        have hge : raw.length ≤ position := List.drop_eq_nil_iff.mp hdrop
        exact ⟨hstart, .inl (hle.antisymm hge)⟩
  | cons c rest ih =>
      intro start line position hdrop hle hstart l hl
      have hget : raw[position]? = some c := by rw [← List.head?_drop, hdrop, List.head?_cons]
      have hlt : position < raw.length := (List.getElem?_eq_some_iff.mp hget).1
      have hdrop' : raw.drop (position + 1) = rest := by
        rw [← List.drop_drop, hdrop, List.drop_one, List.tail_cons]
      rw [linesFrom] at hl
      split_ifs at hl with hbreak
      · have hends : raw[position + 1 - 1]? = some '\n' := by rw [Nat.add_sub_cancel, hget, hbreak]
        rcases List.mem_cons.mp hl with rfl | hl
        · exact ⟨hstart, .inr hends⟩
        · exact ih _ _ _ hdrop' hlt (.inr hends) l hl
      · exact ih _ _ _ hdrop' hlt hstart l hl

/-- What holds of the scan between two lines. -/
structure BlockScan.Fences (raw : Text) (s : BlockScan) : Prop where
  fences : FencesAt raw s.blocks
  closed : s.openFence = none → ∀ b ∈ s.blocks.getLast?, b.kind = .code
  codeStart : s.openFence.isSome → StartsLine raw s.codeStart

lemma BlockScan.Fences.step {U : UnicodeData} {raw : Text} {s : BlockScan} {l : Line}
    (h : s.Fences raw) (hstart : StartsLine raw l.start) (hstop : EndsLine raw l.stop) :
    (s.step U raw l).Fences raw := by
  obtain ⟨blocks, proseStart, openFence, codeStart⟩ := s
  cases hf : fenceToken l.line with
  | none => cases openFence <;> simpa only [BlockScan.step, hf] using h
  | some fence =>
      cases openFence with
      | none =>
          simp only [BlockScan.step, hf]
          refine ⟨?_, by simp, fun _ => hstart⟩
          dsimp only
          split_ifs
          · exact h.fences.concat_prose (h.closed rfl) _ _
          · exact h.fences
      | some f =>
          simp only [BlockScan.step, hf]
          split_ifs
          · refine ⟨h.fences.concat_code (h.codeStart rfl) hstop, fun _ b hb => ?_, by simp⟩
            rw [List.getLast?_concat, Option.mem_some_iff] at hb
            exact hb ▸ rfl
          · exact h

lemma BlockScan.Fences.foldl {U : UnicodeData} {raw : Text} {ls : List Line} {s : BlockScan}
    (h : s.Fences raw) (hls : ∀ l ∈ ls, StartsLine raw l.start ∧ EndsLine raw l.stop) :
    (ls.foldl (BlockScan.step U raw) s).Fences raw := by
  induction ls generalizing s with
  | nil => exact h
  | cons l ls ih =>
      have hl := hls l List.mem_cons_self
      exact ih (h.step hl.1 hl.2) fun l' hl' => hls l' (List.mem_cons_of_mem l hl')

/-- The fences of the blocks of a text. -/
lemma scanBlocks_fencesAt (U : UnicodeData) (raw : Text) : FencesAt raw (scanBlocks U raw) := by
  rw [scanBlocks]
  split_ifs
  · exact .nil
  · have hlines : ∀ l ∈ lines raw, StartsLine raw l.start ∧ EndsLine raw l.stop :=
      linesFrom_breaks raw 0 [] 0 rfl (Nat.zero_le _) (.inl rfl)
    have hinit : BlockScan.Fences raw ⟨[], 0, none, 0⟩ := ⟨.nil, by simp, by simp⟩
    have hfinal := hinit.foldl (U := U) hlines
    set s := (lines raw).foldl (BlockScan.step U raw) ⟨[], 0, none, 0⟩
    dsimp only
    split
    · next f hopen => exact hfinal.fences.concat_code (hfinal.codeStart (by simp [hopen])) (.inl rfl)
    · next hopen =>
        split_ifs
        · exact hfinal.fences.concat_prose (hfinal.closed hopen) _ _
        · exact hfinal.fences

/-! ### What a step adds -/

/-- A character that no token holds. -/
def IsBreak (c : Char) : Prop := c = ' ' ∨ c = '\n'

namespace Emitter

/-- Nothing but characters from `floor` on was added. -/
structure Extends (floor : ℕ) (e e' : Emitter) : Prop where
  glyphs : ∃ more, e'.glyphs = e.glyphs ++ more ∧ ∀ g ∈ more, floor ≤ g.start
  codeSpans : e'.codeSpans = e.codeSpans
  held : ∀ p ∈ e'.pending, floor ≤ p.1

namespace Extends

variable {floor start stop : ℕ} {e e' e'' : Emitter}

lemma refl (h : ∀ p ∈ e.pending, floor ≤ p.1) : Extends floor e e :=
  ⟨⟨[], by simp, by simp⟩, rfl, h⟩

lemma trans (h : Extends floor e e') (h' : Extends floor e' e'') : Extends floor e e'' := by
  obtain ⟨more, hmore, hfloor⟩ := h.glyphs
  obtain ⟨more', hmore', hfloor'⟩ := h'.glyphs
  refine ⟨⟨more ++ more', by rw [hmore', hmore, List.append_assoc], fun g hg => ?_⟩,
    h'.codeSpans.trans h.codeSpans, h'.held⟩
  exact (List.mem_append.mp hg).elim (hfloor g) (hfloor' g)

lemma flush (h : ∀ p ∈ e.pending, floor ≤ p.1) : Extends floor e e.flush := by
  rw [Emitter.flush]
  cases hp : e.pending with
  | none => exact refl h
  | some p =>
      refine ⟨?_, rfl, by simp⟩
      dsimp only
      split_ifs
      · exact ⟨[], by simp, by simp⟩
      · exact ⟨[⟨' ', p.1, p.2⟩], rfl, by simpa using h p hp⟩

lemma hold (contract : NormalizationContract) (h : ∀ p ∈ e.pending, floor ≤ p.1)
    (hstart : floor ≤ start) : Extends floor e (e.hold contract start stop) := by
  rw [Emitter.hold]
  split_ifs
  · refine ⟨⟨[], by simp, by simp⟩, rfl, fun p hp => ?_⟩
    rw [Option.mem_some_iff] at hp
    subst hp
    cases hq : e.pending with
    | none => exact hstart
    | some q => exact h q hq
  · have hheld : Extends floor e { e.flush with pending := some (start, stop) } := by
      refine ⟨(flush h).glyphs, (flush h).codeSpans, fun p hp => ?_⟩
      rw [Option.mem_some_iff] at hp
      exact hp ▸ hstart
    exact hheld.trans (flush hheld.held)

lemma emitChar (rules : CharacterRules) (contract : NormalizationContract)
    (h : ∀ p ∈ e.pending, floor ≤ p.1) (hstart : floor ≤ start) (c : Char) :
    Extends floor e (rules.emitChar contract start stop e c) := by
  rw [CharacterRules.emitChar]
  dsimp only
  split_ifs
  · exact refl h
  · exact hold contract h hstart
  · refine (flush h).trans ⟨⟨_, rfl, fun g hg => ?_⟩, rfl, (flush h).held⟩
    obtain ⟨_, -, rfl⟩ := List.mem_map.mp hg
    exact hstart

lemma emitCluster (rules : CharacterRules) (contract : NormalizationContract) (c : Cluster)
    (h : ∀ p ∈ e.pending, floor ≤ p.1) (hstart : floor ≤ c.start) :
    Extends floor e (rules.emitCluster contract e c) := by
  rw [CharacterRules.emitCluster]
  induction c.text generalizing e with
  | nil => exact refl h
  | cons char chars ih =>
      have hone : Extends floor e (rules.emitChar contract c.start c.stop e char) :=
        emitChar rules contract h hstart char
      exact hone.trans (ih hone.held)

lemma foldl_clusters (rules : CharacterRules) (contract : NormalizationContract)
    {cs : List Cluster} (h : ∀ p ∈ e.pending, floor ≤ p.1) (hcs : ClustersTile start cs stop)
    (hstart : floor ≤ start) : Extends floor e (cs.foldl (rules.emitCluster contract) e) := by
  induction cs generalizing e start with
  | nil => exact refl h
  | cons c cs ih =>
      obtain ⟨rfl, hlt, hrest⟩ := hcs
      have hone := emitCluster rules contract c h hstart
      exact hone.trans (ih hone.held hrest (hstart.trans hlt.le))

end Extends

/-! ### The break before a fence -/

/-- What comes next is put behind a break, or comes first. -/
def Sealed (e : Emitter) : Prop := ∀ g ∈ e.flush.glyphs.getLast?, IsBreak g.char

lemma sealed_of_pending {e : Emitter} (h : e.pending.isSome) : e.Sealed := by
  obtain ⟨p, hp⟩ := Option.isSome_iff_exists.mp h
  intro g hg
  rw [flush, hp] at hg
  dsimp only at hg
  split_ifs at hg with hempty
  · rw [List.isEmpty_iff.mp hempty] at hg
    exact absurd hg (by simp)
  · rw [List.getLast?_concat, Option.mem_some_iff] at hg
    exact hg ▸ .inl rfl

lemma flush_flush (e : Emitter) : e.flush.flush = e.flush := by
  have hnone : e.flush.pending = none := by
    rw [flush]
    cases hp : e.pending with
    | none => exact hp
    | some p => rfl
  rw [flush, hnone]

lemma sealed_hold (contract : NormalizationContract) (e : Emitter) (start stop : ℕ) :
    (e.hold contract start stop).Sealed := by
  rw [hold]
  split_ifs
  · exact sealed_of_pending rfl
  · rw [Sealed, flush_flush]
    exact sealed_of_pending (e := { e.flush with pending := some (start, stop) }) rfl

end Emitter

section

variable {rules : CharacterRules} {contract : NormalizationContract}

lemma compose_newline : rules.compose contract ['\n'] = ['\n'] := by
  rw [CharacterRules.compose, if_neg]
  rintro ⟨-, hlong⟩
  exact hlong ⟨rfl, by decide⟩

lemma isMark_newline : rules.isMark '\n' = false := by
  rw [CharacterRules.isMark, show isAscii '\n' = true by decide, Bool.not_true, Bool.false_and]

/-- A line break is the last cluster of what it ends. -/
lemma clustersFrom_newline (rest : Text) (hlast : rest.getLast? = some '\n') :
    ∀ (cluster : Text) (start index : ℕ), ∃ cs a b,
      rules.clustersFrom contract cluster start index rest = cs ++ [⟨['\n'], a, b⟩] := by
  induction rest with
  | nil => simp at hlast
  | cons c rest ih =>
      intro cluster start index
      rw [CharacterRules.clustersFrom]
      rcases rest.eq_nil_or_concat' with rfl | ⟨init, last, rfl⟩
      · obtain rfl : c = '\n' := by simpa using hlast
        rw [isMark_newline, if_neg Bool.false_ne_true, CharacterRules.clustersFrom, compose_newline]
        exact ⟨[_], index, index + 1, rfl⟩
      · have hlast' : (init ++ [last]).getLast? = some '\n' := by
          rwa [List.getLast?_cons_of_ne_nil (by simp)] at hlast
        split_ifs
        · exact ih hlast' _ _ _
        · obtain ⟨cs, a, b, hcs⟩ := ih hlast' [c] index (index + 1)
          exact ⟨_ :: cs, a, b, by rw [hcs, List.cons_append]⟩

lemma slice_getLast? {raw : Text} {start stop : ℕ} (hlt : start < stop) (hle : stop ≤ raw.length) :
    (slice raw start stop).getLast? = raw[stop - 1]? := by
  rw [List.getLast?_eq_getElem?, slice_length, slice_getElem? raw (by omega)]
  congr 1
  omega

/-- Prose that ends with a line break puts what comes next behind a break. -/
lemma sealed_emitProse (hreplace : rules.replace '\n' = [' ']) (e : Emitter) {raw : Text}
    {start stop : ℕ} (hlt : start < stop) (hle : stop ≤ raw.length)
    (hbreak : raw[stop - 1]? = some '\n') : (rules.emitProse contract e raw start stop).Sealed := by
  have hlast : (slice raw start stop).getLast? = some '\n' := by rw [slice_getLast? hlt hle, hbreak]
  have hclusters : ∃ cs a b, rules.clusters contract raw start stop = cs ++ [⟨['\n'], a, b⟩] := by
    rw [CharacterRules.clusters]
    generalize slice raw start stop = text at hlast
    rcases text with _ | ⟨c, rest⟩
    · simp at hlast
    · rcases rest.eq_nil_or_concat' with rfl | ⟨init, last, rfl⟩
      · obtain rfl : c = '\n' := by simpa using hlast
        dsimp only
        rw [CharacterRules.clustersFrom, compose_newline]
        exact ⟨[], start, start + 1, rfl⟩
      · rw [List.getLast?_cons_of_ne_nil (by simp)] at hlast
        exact clustersFrom_newline _ hlast _ _ _
  obtain ⟨cs, a, b, hcs⟩ := hclusters
  rw [CharacterRules.emitProse, hcs, List.foldl_append, List.foldl_cons, List.foldl_nil,
    CharacterRules.emitCluster, List.foldl_cons, List.foldl_nil, CharacterRules.emitChar, hreplace]
  exact Emitter.sealed_hold contract _ a b

end

/-! ### Copies of code -/

/-- The characters of a block of code, each with its own position. -/
def copiedGlyphs (b : TextBlock) : List Glyph :=
  (b.text.zipIdx b.start).map fun c => ⟨c.1, c.2, c.2 + 1⟩

/-- A range of characters that copies a block. -/
def Copies (glyphs : List Glyph) (s : ℕ × ℕ) (b : TextBlock) : Prop :=
  s.2 = s.1 + b.text.length ∧ s.2 ≤ glyphs.length ∧
    (glyphs.drop s.1).take b.text.length = copiedGlyphs b

section

variable {glyphs : List Glyph} {s : ℕ × ℕ} {b : TextBlock}

lemma Copies.append (h : Copies glyphs s b) (more : List Glyph) : Copies (glyphs ++ more) s b := by
  obtain ⟨hlength, hle, htake⟩ := h
  refine ⟨hlength, by rw [List.length_append]; omega, ?_⟩
  rw [List.drop_append_of_le_length (by omega),
    List.take_append_of_le_length (by rw [List.length_drop]; omega), htake]

lemma copies_concat (glyphs : List Glyph) (b : TextBlock) :
    Copies (glyphs ++ copiedGlyphs b) (glyphs.length, glyphs.length + (copiedGlyphs b).length) b := by
  have hlength : (copiedGlyphs b).length = b.text.length := by
    rw [copiedGlyphs, List.length_map, List.length_zipIdx]
  refine ⟨by rw [hlength], by rw [List.length_append], ?_⟩
  rw [List.drop_left, ← hlength, List.take_length]

/-- A character of a copy, with its position. -/
lemma Copies.getElem? (h : Copies glyphs s b) {i : ℕ} (hi : i < b.text.length) :
    glyphs[s.1 + i]? = b.text[i]?.map fun c => ⟨c, b.start + i, b.start + i + 1⟩ := by
  have hget : ((glyphs.drop s.1).take b.text.length)[i]? = glyphs[s.1 + i]? := by
    rw [List.getElem?_take, if_pos hi, List.getElem?_drop]
  rw [← hget, h.2.2, copiedGlyphs, List.getElem?_map, List.getElem?_zipIdx, Option.map_map]
  rfl

end

/-- A break stands at a position. -/
def BreakAt (glyphs : List Glyph) (i : ℕ) : Prop := ∃ g, glyphs[i]? = some g ∧ IsBreak g.char

lemma BreakAt.append {glyphs : List Glyph} {i : ℕ} (h : BreakAt glyphs i) (more : List Glyph) :
    BreakAt (glyphs ++ more) i := by
  obtain ⟨g, hg, hbreak⟩ := h
  refine ⟨g, ?_, hbreak⟩
  rw [List.getElem?_append_left (List.getElem?_eq_some_iff.mp hg).1, hg]

/-! ### What every prefix of the pass satisfies -/

/-- The pass after some blocks, up to `position`: code spans copy the blocks of code, all else comes
from outside of them, and breaks stand around the copies. -/
structure Emitter.Fenced (raw : Text) (read : List TextBlock) (floor position : ℕ) (e : Emitter) :
    Prop where
  copied : List.Forall₂ (Copies e.glyphs) e.codeSpans (read.filter fun b => b.kind = .code)
  outside : ∀ i g, e.glyphs[i]? = some g → (∀ s ∈ e.codeSpans, ¬(s.1 ≤ i ∧ i < s.2)) →
    ∀ b ∈ read, b.kind = .code → g.stop ≤ b.start ∨ b.stop ≤ g.start
  codeEnds : ∀ b ∈ read, b.kind = .code → b.stop ≤ floor
  held : ∀ p ∈ e.pending, floor ≤ p.1
  before : ∀ s ∈ e.codeSpans, 0 < s.1 → BreakAt e.glyphs (s.1 - 1)
  after : ∀ s ∈ e.codeSpans, BreakAt e.glyphs (s.2 - 1) ∨
    position = raw.length ∧ s.2 = e.glyphs.length

namespace Emitter.Fenced

variable {raw : Text} {read : List TextBlock} {floor position : ℕ} {e e' : Emitter}

/-- Characters from outside of code keep what the pass satisfies. -/
lemma extend (h : e.Fenced raw read floor position) (hext : Extends floor e e')
    (hmore : position < raw.length) (position' : ℕ) : e'.Fenced raw read floor position' := by
  obtain ⟨more, hglyphs, hfrom⟩ := hext.glyphs
  refine ⟨?_, fun i g hg hout b hb hcode => ?_, h.codeEnds, hext.held, fun s hs hpos => ?_,
    fun s hs => .inl ?_⟩
  · rw [hext.codeSpans, hglyphs]
    exact h.copied.imp fun s b hcopy => hcopy.append more
  · rw [hext.codeSpans] at hout
    rw [hglyphs] at hg
    rcases Nat.lt_or_ge i e.glyphs.length with hlt | hge
    · rw [List.getElem?_append_left hlt] at hg
      exact h.outside i g hg hout b hb hcode
    · rw [List.getElem?_append_right hge] at hg
      exact .inr ((h.codeEnds b hb hcode).trans (hfrom g (List.mem_of_getElem? hg)))
  · rw [hext.codeSpans] at hs
    rw [hglyphs]
    exact (h.before s hs hpos).append more
  · rw [hext.codeSpans] at hs
    rw [hglyphs]
    exact ((h.after s hs).resolve_right fun hend => hmore.ne hend.1).append more

/-- Reading a block of prose. -/
lemma concat_prose (h : e.Fenced raw read floor position) {b : TextBlock} (hb : b.kind = .prose) :
    e.Fenced raw (read ++ [b]) floor position := by
  have hcode : ∀ b' ∈ read ++ [b], b'.kind = .code → b' ∈ read := by
    intro b' hb' hkind
    refine (List.mem_append.mp hb').resolve_right fun hlast => ?_
    rw [List.mem_singleton.mp hlast, hb] at hkind
    exact absurd hkind (by decide)
  refine ⟨?_, fun i g hg hout b' hb' hkind => h.outside i g hg hout b' (hcode b' hb' hkind) hkind,
    fun b' hb' hkind => h.codeEnds b' (hcode b' hb' hkind) hkind, h.held, h.before, h.after⟩
  rw [List.filter_append, List.filter_singleton, hb]
  simpa using h.copied

/-- Reading a block of code. -/
lemma emitVerbatim (h : e.Fenced raw read floor position) {b : TextBlock} (hb : b.kind = .code)
    (htext : b.text = slice raw b.start b.stop) (hlt : b.start < b.stop) (hle : b.stop ≤ raw.length)
    (hlines : EndsLine raw b.stop) (hposition : position = b.start) (hfloor : floor ≤ b.start)
    (hbounded : e.Bounded b.start b.start) (hsealed : e.Sealed) :
    (e.emitVerbatim raw b.start b.stop).Fenced raw (read ++ [b]) b.stop b.stop := by
  have hflush := h.extend (.flush h.held) (by omega) position
  have hlength : b.text.length = b.stop - b.start := by rw [htext, slice_length]; omega
  have hcopied : ((slice raw b.start b.stop).zipIdx b.start).map
      (fun c => (⟨c.1, c.2, c.2 + 1⟩ : Glyph)) = copiedGlyphs b := by
    rw [copiedGlyphs, htext]
  have hfilter : (read ++ [b]).filter (fun b => b.kind = .code) =
      read.filter (fun b => b.kind = .code) ++ [b] := by
    rw [List.filter_append, List.filter_singleton]
    simp [hb]
  rw [Emitter.emitVerbatim, hcopied]
  have hnew := copies_concat e.flush.glyphs b
  refine ⟨?_, fun i g hg hout b' hb' hkind => ?_, fun b' hb' hkind => ?_, ?_,
    fun s hs hpos => ?_, fun s hs => ?_⟩
  · rw [hfilter]
    exact List.rel_append (hflush.copied.imp fun s b hcopy => hcopy.append _)
      (.cons hnew .nil)
  · rcases Nat.lt_or_ge i e.flush.glyphs.length with hi | hi
    · rw [List.getElem?_append_left hi] at hg
      rcases List.mem_append.mp hb' with hb' | hb'
      · exact hflush.outside i g hg (fun s hs => hout s (List.mem_append_left _ hs)) b' hb' hkind
      · -- what was emitted before ends where the block begins at the latest
        rw [List.mem_singleton.mp hb']
        exact .inl (hbounded.flush.1.range g (List.mem_of_getElem? hg)).2.2
    · refine absurd ⟨hi, ?_⟩ (hout _ (List.mem_append_right _ (List.mem_singleton_self _)))
      have hlen := (List.getElem?_eq_some_iff.mp hg).1
      rwa [List.length_append] at hlen
  · rcases List.mem_append.mp hb' with hb' | hb'
    · exact (h.codeEnds b' hb' hkind).trans (hfloor.trans hlt.le)
    · rw [List.mem_singleton.mp hb']
  · rw [hbounded.flush.2]
    simp
  · rcases List.mem_append.mp hs with hs | hs
    · exact (hflush.before s hs hpos).append _
    · rw [List.mem_singleton.mp hs] at hpos ⊢
      refine BreakAt.append ?_ _
      have hlast := hsealed
      rw [Sealed, List.getLast?_eq_getElem?] at hlast
      have hget := List.getElem?_eq_getElem (l := e.flush.glyphs)
        (i := e.flush.glyphs.length - 1) (by dsimp only at hpos; omega)
      exact ⟨_, hget, hlast _ hget⟩
  · rcases List.mem_append.mp hs with hs | hs
    · exact .inl (((hflush.after s hs).resolve_right fun hend => by omega).append _)
    · rw [List.mem_singleton.mp hs]
      rcases hlines with hend | hbreak
      · exact .inr ⟨hend, by rw [List.length_append]⟩
      · -- the last character of the block is its line break
        refine .inl ?_
        have hlast : b.text[b.text.length - 1]? = some '\n' := by
          rw [← List.getLast?_eq_getElem?, htext, slice_getLast? hlt hle, hbreak]
        have hget := hnew.getElem? (i := b.text.length - 1) (by omega)
        rw [hlast, Option.map_some] at hget
        have hindex : e.flush.glyphs.length + (copiedGlyphs b).length - 1 =
            e.flush.glyphs.length + (b.text.length - 1) := by
          have := hnew.1
          dsimp only at this
          omega
        rw [BreakAt, hindex]
        exact ⟨_, hget, .inr rfl⟩

end Emitter.Fenced

/-- Reading blocks keeps what the pass satisfies. -/
lemma Emitter.Fenced.foldl_blocks {rules : CharacterRules} {contract : NormalizationContract}
    (hreplace : rules.replace '\n' = [' ']) {raw : Text} {bs : List TextBlock} :
    ∀ {read : List TextBlock} {floor start stop : ℕ} {e : Emitter},
      e.Fenced raw read floor start → e.Bounded start start → floor ≤ start →
      (StartsLine raw start → e.Sealed) → BlocksFrom start bs stop → stop ≤ raw.length →
      (∀ b ∈ bs, FillsLines raw b ∧ b.text = slice raw b.start b.stop) →
      ∃ floor', (bs.foldl (rules.emitBlock contract raw) e).Fenced raw (read ++ bs) floor' stop := by
  induction bs with
  | nil =>
      intro read floor start stop e h _ _ _ hbs _ _
      rw [BlocksFrom] at hbs
      rw [List.foldl_nil, List.append_nil, ← hbs]
      exact ⟨floor, h⟩
  | cons b bs ih =>
      intro read floor start stop e h hbounded hfloor hsealed hbs hlen hb
      obtain ⟨rfl, hlt, hrest⟩ := hbs
      have hle : b.stop ≤ raw.length := hrest.le.trans hlen
      obtain ⟨hfills, htext⟩ := hb b List.mem_cons_self
      have hb' := fun b' hb' => hb b' (List.mem_cons_of_mem b hb')
      have hbounded' : (rules.emitBlock contract raw e b).Bounded b.stop b.stop :=
        hbounded.foldl_blocks (show BlocksFrom b.start [b] b.stop from ⟨rfl, hlt, rfl⟩) hle
      rw [List.foldl_cons, List.append_cons]
      rw [CharacterRules.emitBlock] at hbounded' ⊢
      cases hkind : b.kind with
      | prose =>
          simp only [hkind] at hbounded'
          have htile := clusters_tile rules contract hlt.le hle
          have hread := (h.extend (.foldl_clusters rules contract h.held htile hfloor) (by omega)
            b.stop).concat_prose hkind
          refine ih hread hbounded' (hfloor.trans hlt.le) (fun hstarts => ?_) hrest hlen hb'
          exact sealed_emitProse hreplace e hlt hle (hstarts.resolve_left (by omega))
      | code =>
          simp only [hkind] at hbounded'
          obtain ⟨hstarts, hends⟩ := hfills hkind
          have hread := h.emitVerbatim hkind htext hlt hle hends rfl hfloor hbounded
            (hsealed hstarts)
          refine ih hread hbounded' le_rfl (fun hstarts' => ?_) hrest hlen hb'
          -- the copy ends with the line break of its block
          have hbreak : raw[b.stop - 1]? = some '\n' := hstarts'.resolve_left (by omega)
          have hlast := slice_getLast? hlt hle
          intro g hg
          have hflush : (e.emitVerbatim raw b.start b.stop).flush =
              e.emitVerbatim raw b.start b.stop := by
            rw [Emitter.flush, show (e.emitVerbatim raw b.start b.stop).pending = none from
              hbounded.flush.2]
          rw [hflush, Emitter.emitVerbatim] at hg
          dsimp only at hg
          rw [List.getLast?_append_of_ne_nil, List.getLast?_map, List.getLast?_eq_getElem?,
            List.getElem?_zipIdx, List.length_zipIdx, ← List.getLast?_eq_getElem?, hlast, hbreak] at hg
          · simp only [Option.map_some, Option.mem_some_iff] at hg
            exact .inr (hg ▸ rfl)
          · rw [ne_eq, List.map_eq_nil_iff, List.zipIdx_eq_nil_iff, ← List.length_eq_zero_iff,
              slice_length]
            omega

/-- The pass over a text whose fenced code is preserved. -/
lemma fenced_normalizeWithMapping {rules : CharacterRules} {contract : NormalizationContract}
    (hreplace : rules.replace '\n' = [' ']) (hcode : contract.preserveFencedCode = true)
    (U : UnicodeData) (raw : Text) :
    ∃ e floor, Emitter.Fenced raw (scanBlocks U raw) floor raw.length e ∧
      rules.normalizeWithMapping contract U raw = e.finish contract raw := by
  have hblocks : normalizationBlocks U contract raw = scanBlocks U raw := by
    rw [normalizationBlocks, if_pos hcode]
    split_ifs with hempty
    · rw [scanBlocks, if_pos hempty]
    · rfl
  have hinit : Emitter.Fenced raw [] 0 0 ⟨[], [], none⟩ :=
    ⟨.nil, by simp, by simp, by simp, by simp, by simp⟩
  have hbounded : Emitter.Bounded 0 0 ⟨[], [], none⟩ := ⟨by simp, List.Pairwise.nil, by simp⟩
  have hfences := scanBlocks_fencesAt U raw
  have hkeep := @Emitter.Fenced.foldl_blocks rules contract hreplace raw (scanBlocks U raw)
  obtain ⟨floor, hfinal⟩ := hkeep hinit hbounded le_rfl
    (fun _ g hg => absurd hg (by simp [Emitter.flush])) (scanBlocks_blocksFrom U raw) le_rfl
    fun b hb => ⟨hfences.fillsLines b hb, hfences.text b hb⟩
  refine ⟨_, floor, hfinal, ?_⟩
  rw [CharacterRules.normalizeWithMapping, hblocks]

/-! ### Tokens -/

section

variable {U : UnicodeData} {n : NormalizedText}

/-- The characters of a token are alphanumeric, or marks. -/
lemma tokensFrom_chars (rest : Text) : ∀ (index : ℕ) (start : Option ℕ) (count : ℕ),
    n.text.drop index = rest →
    (∀ s ∈ start, ∀ i, s ≤ i → i < index → ∀ c, n.text[i]? = some c →
      U.isalnum c = true ∨ U.combining c ≠ 0) →
    ∀ t ∈ tokensFrom U n index start count rest, ∀ i, t.start ≤ i → i < t.stop →
      ∀ c, n.text[i]? = some c → U.isalnum c = true ∨ U.combining c ≠ 0 := by
  induction rest with
  | nil =>
      intro index start count _ hrun t ht
      cases start with
      | none => exact absurd ht List.not_mem_nil
      | some s =>
          rw [tokensFrom, List.mem_singleton] at ht
          rw [ht]
          exact hrun s rfl
  | cons c rest ih =>
      intro index start count hdrop hrun t ht
      have hget : n.text[index]? = some c := by rw [← List.head?_drop, hdrop, List.head?_cons]
      have hdrop' : n.text.drop (index + 1) = rest := by
        rw [← List.drop_drop, hdrop, List.drop_one, List.tail_cons]
      cases start with
      | none =>
          rw [tokensFrom] at ht
          split_ifs at ht with hal
          · refine ih _ _ _ hdrop' (fun s hs i hle hlt d hd => ?_) t ht
            rw [Option.mem_some_iff] at hs
            obtain rfl : i = index := by omega
            rw [hget, Option.some_inj] at hd
            exact .inl (hd ▸ hal)
          · exact ih _ _ _ hdrop' (by simp) t ht
      | some s =>
          rw [tokensFrom] at ht
          split_ifs at ht with hal
          · refine ih _ _ _ hdrop' (fun s' hs i hle hlt d hd => ?_) t ht
            rw [Option.mem_some_iff] at hs
            subst hs
            rcases Nat.lt_succ_iff_lt_or_eq.mp hlt with hlt | rfl
            · exact hrun s rfl i hle hlt d hd
            · rw [hget, Option.some_inj] at hd
              simpa [hd] using hal
          · rcases List.mem_cons.mp ht with rfl | ht
            · exact hrun s rfl
            · exact ih _ _ _ hdrop' (by simp) t ht

end

/-- A token ends inside its text. -/
lemma stop_le_of_token {U : UnicodeData} {n : NormalizedText} {t : Token}
    (ht : t ∈ tokenize U n true) : t.stop ≤ n.glyphs.length := by
  obtain ⟨hlt, -, ⟨g, hg, -⟩⟩ :=
    ((tokensFrom_spec n.text 0 none 0 rfl (Nat.zero_le _) (by simp)).1 t ht).1
  have := (List.getElem?_eq_some_iff.mp hg).1
  omega

/-- No token holds a break. -/
lemma not_breakAt_of_token (U : UnicodeTables) {n : NormalizedText} {t : Token}
    (ht : t ∈ tokenize U.toUnicodeData n true) {i : ℕ} (hstart : t.start ≤ i) (hstop : i < t.stop) :
    ¬ BreakAt n.glyphs i := by
  rintro ⟨g, hg, hbreak⟩
  have hchar : n.text[i]? = some g.char := by
    rw [NormalizedText.text, List.getElem?_map, hg, Option.map_some]
  have hcases := tokensFrom_chars (U := U.toUnicodeData) (n := n) n.text 0 none 0 rfl (by simp) t ht
    i hstart hstop g.char hchar
  rcases hbreak with hspace | hnewline
  · rw [hspace, U.isalnum_space, U.combining_ascii ' ' (by decide)] at hcases
    simp at hcases
  · rw [hnewline, U.isalnum_ascii '\n' (by decide), U.combining_ascii '\n' (by decide)] at hcases
    exact absurd hcases (by decide)

/-! ### Code survives -/

/-- The blocks of a tiling lie inside of it. -/
lemma BlocksFrom.bounds {bs : List TextBlock} {start stop : ℕ} (h : BlocksFrom start bs stop)
    {b : TextBlock} (hb : b ∈ bs) : start ≤ b.start ∧ b.start < b.stop ∧ b.stop ≤ stop := by
  induction bs generalizing start with
  | nil => exact absurd hb List.not_mem_nil
  | cons x bs ih =>
      obtain ⟨rfl, hlt, hrest⟩ := h
      rcases List.mem_cons.mp hb with rfl | hb
      · exact ⟨le_rfl, hlt, hrest.le⟩
      · obtain ⟨hstart, hinside⟩ := ih hrest hb
        exact ⟨hlt.le.trans hstart, hinside⟩

/-- A code span of a normalized text holds the text of a block, at the offsets of the block. -/
def NormalizedText.Preserves (n : NormalizedText) (s : ℕ × ℕ) (b : TextBlock) : Prop :=
  s.2 = s.1 + b.text.length ∧ s.2 ≤ n.text.length ∧ slice n.text s.1 s.2 = b.text ∧
    ∀ i < b.text.length, n.spans[s.1 + i]? = some (b.start + i, b.start + i + 1)

/-- A token lies inside one code span, or outside of all. -/
def NormalizedText.KeepsWhole (n : NormalizedText) (t : Token) : Prop :=
  (∃ s ∈ n.codeSpans, s.1 ≤ t.start ∧ t.stop ≤ s.2) ∨
    ∀ s ∈ n.codeSpans, t.stop ≤ s.1 ∨ s.2 ≤ t.start

/-- A copy holds the text of its block. -/
lemma Copies.preserves {n : NormalizedText} {s : ℕ × ℕ} {b : TextBlock}
    (h : Copies n.glyphs s b) : n.Preserves s b := by
  obtain ⟨hlength, hle, htake⟩ := h
  refine ⟨hlength, by rwa [NormalizedText.text, List.length_map], ?_, fun i hi => ?_⟩
  · have hchars : (copiedGlyphs b).map Glyph.char = b.text := by
      rw [copiedGlyphs, List.map_map]
      exact List.zipIdx_map_fst b.start b.text
    rw [slice, NormalizedText.text, ← List.map_drop, ← List.map_take,
      show s.2 - s.1 = b.text.length by omega, htake, hchars]
  · have hget := Copies.getElem? ⟨hlength, hle, htake⟩ hi
    rw [List.getElem?_eq_getElem hi, Option.map_some] at hget
    rw [NormalizedText.spans, List.getElem?_map, hget, Option.map_some]

section

variable {raw : Text} {blocks : List TextBlock} {floor : ℕ} {n : NormalizedText} {e : Emitter}

/-- A character lies in a code span exactly when its raw range lies in a block of code. -/
lemma Emitter.Fenced.isCode_iff {contract : NormalizationContract}
    (h : e.Fenced raw blocks floor raw.length)
    (hlength : ∀ b ∈ blocks, b.start + b.text.length = b.stop)
    (hexact : ExactMap raw (e.finish contract raw).spans) {i : ℕ} {s : ℕ × ℕ}
    (hs : (e.finish contract raw).spans[i]? = some s) :
    (e.finish contract raw).isCode i = true ↔
      ∃ b ∈ blocks, b.kind = .code ∧ b.start ≤ s.1 ∧ s.2 ≤ b.stop := by
  obtain ⟨g, hg, rfl⟩ := Option.map_eq_some_iff.mp (List.getElem?_map .. ▸ hs)
  constructor
  · intro hcode
    rw [NormalizedText.isCode, List.any_eq_true] at hcode
    obtain ⟨c, hc, hinside⟩ := hcode
    rw [Bool.and_eq_true, decide_eq_true_eq, decide_eq_true_eq] at hinside
    obtain ⟨b, hb, hcopy⟩ := Checks.exists_of_mem_left h.copied hc
    obtain ⟨hmem, hkind⟩ := List.mem_filter.mp hb
    have hi : i - c.1 < b.text.length := by
      have := hcopy.1
      omega
    have hget := hcopy.getElem? hi
    rw [Nat.add_sub_cancel' hinside.1, List.getElem?_eq_getElem hi, Option.map_some] at hget
    obtain rfl := Option.some_inj.mp (hg.symm.trans hget)
    have hstop := hlength b hmem
    exact ⟨b, hmem, of_decide_eq_true hkind, by dsimp only; omega, by dsimp only; omega⟩
  · rintro ⟨b, hb, hkind, hstart, hstop⟩
    by_contra hcode
    have hout : ∀ c ∈ e.codeSpans, ¬(c.1 ≤ i ∧ i < c.2) := by
      intro c hc hinside
      refine hcode ?_
      rw [NormalizedText.isCode, List.any_eq_true]
      exact ⟨c, hc, by simpa using hinside⟩
    have hrange := (hexact.range _ (List.mem_of_getElem? hs)).1
    rcases h.outside i g hg hout b hb hkind with hbefore | hafter
    · dsimp only at hstart hrange
      omega
    · dsimp only at hstop hrange
      omega

/-- A token that holds no break stays on its side of every fence. -/
lemma Emitter.Fenced.keepsWhole {contract : NormalizationContract}
    (h : e.Fenced raw blocks floor raw.length) {t : Token} (hstop : t.stop ≤ e.glyphs.length)
    (hbreak : ∀ i, t.start ≤ i → i < t.stop → ¬ BreakAt e.glyphs i) :
    (e.finish contract raw).KeepsWhole t := by
  by_cases hinside : ∃ s ∈ e.codeSpans, s.1 ≤ t.start ∧ t.stop ≤ s.2
  · exact .inl hinside
  · refine .inr fun s hs => ?_
    by_contra hacross
    rw [not_or, not_le, not_le] at hacross
    rcases Nat.lt_or_ge t.start s.1 with hbefore | hbefore
    · -- a break stands before the fence
      exact hbreak (s.1 - 1) (by omega) (by omega) (h.before s hs (by omega))
    · have hlt : s.2 < t.stop := by
        by_contra hle
        exact hinside ⟨s, hs, hbefore, not_lt.mp hle⟩
      rcases h.after s hs with hafter | ⟨-, hend⟩
      · exact hbreak (s.2 - 1) (by omega) (by omega) hafter
      · omega

end

/-- The blocks of a text tile it, code and prose in turn; and normalization copies the blocks of code
into code spans, at their own offsets, which no token leaks out of or into. -/
theorem fenced_code_survives (U : UnicodeTables) (contract : NormalizationContract) (raw : Text) :
    (BlocksFrom 0 (scanBlocks U.toUnicodeData raw) raw.length ∧
      FencesAt raw (scanBlocks U.toUnicodeData raw)) ∧
    (contract.preserveFencedCode = true →
      let n := normalizeWithMapping U.toUnicodeData contract raw
      List.Forall₂ n.Preserves n.codeSpans
        ((scanBlocks U.toUnicodeData raw).filter fun b => b.kind = .code) ∧
      (∀ i s, n.spans[i]? = some s →
        (n.isCode i = true ↔ ∃ b ∈ scanBlocks U.toUnicodeData raw,
          b.kind = .code ∧ b.start ≤ s.1 ∧ s.2 ≤ b.stop)) ∧
      ∀ t ∈ tokenize U.toUnicodeData n true, n.KeepsWhole t) := by
  have htile := scanBlocks_blocksFrom U.toUnicodeData raw
  have hfences := scanBlocks_fencesAt U.toUnicodeData raw
  refine ⟨⟨htile, hfences⟩, fun hcode => ?_⟩
  have hreplace : (unicodeRules U.toUnicodeData contract).replace '\n' = [' '] := by
    change replace U.toUnicodeData contract '\n' = [' ']
    rw [replace, if_pos (by decide), U.isspace_ascii '\n' (by decide), if_pos (by decide)]
  have hexact := exactMap_normalizeWithMapping (unicodeRules U.toUnicodeData contract) contract
    U.toUnicodeData raw
  obtain ⟨e, floor, hfenced, hnormal⟩ :=
    fenced_normalizeWithMapping hreplace hcode U.toUnicodeData raw
  rw [normalizeWithMapping_eq, hnormal]
  rw [hnormal] at hexact
  intro n
  have hlength : ∀ b ∈ scanBlocks U.toUnicodeData raw, b.start + b.text.length = b.stop := by
    intro b hb
    obtain ⟨-, hlt, hle⟩ := htile.bounds hb
    rw [hfences.text b hb, slice_length]
    omega
  refine ⟨hfenced.copied.imp fun s b hcopy => hcopy.preserves,
    fun i s hs => hfenced.isCode_iff hlength hexact hs, fun t ht => ?_⟩
  exact hfenced.keepsWhole (stop_le_of_token ht) fun i => not_breakAt_of_token U ht

end Memorist
