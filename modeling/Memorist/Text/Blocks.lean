import Memorist.Text.Unicode

/-!
The block scanner: prose and fenced code (`textsemantics/blocks.py`).

* `scanBlocks`: the alternating blocks of a text;
* `BlocksFrom`: consecutive, non-empty half-open ranges from a start to an end;
* `scanBlocks_blocksFrom`: the blocks of a text tile it, so normalization reads
  every character once and in order.
-/

namespace Memorist

/-- The indentation a fence may have. -/
def maxFenceIndent : ℕ := 3

/-- The two kinds of block. -/
inductive BlockKind where
  | prose
  | code
  deriving DecidableEq, Repr

/-- A half-open range of the raw text. -/
structure TextBlock where
  kind : BlockKind
  start : ℕ
  stop : ℕ
  text : Text
  deriving DecidableEq, Repr

/-- A line without its newline, where it starts, and where it ends with the newline. -/
structure Line where
  line : Text
  start : ℕ
  stop : ℕ
  deriving DecidableEq, Repr

/-- The lines still to come when the line begun at `start` has been read up to `position`. -/
def linesFrom (start : ℕ) (line : Text) (position : ℕ) : Text → List Line
  | [] => if line.isEmpty then [] else [⟨line, start, position⟩]
  | c :: rest =>
      if c = '\n' then ⟨line, start, position + 1⟩ :: linesFrom (position + 1) [] (position + 1) rest
      else linesFrom start (line ++ [c]) (position + 1) rest

/-- The lines of `raw`. -/
def lines (raw : Text) : List Line := linesFrom 0 [] 0 raw

/-- A blank of an indented fence. -/
def isBlank (c : Char) : Bool := c == ' ' || c == '\t'

/-- The fence character of a line and how often it is repeated. -/
def fenceToken (line : Text) : Option (Char × ℕ) :=
  let stripped := line.dropWhile isBlank
  if maxFenceIndent < line.length - stripped.length then none
  else ['`', '~'].findSome? fun char =>
    if (List.replicate 3 char).isPrefixOf stripped then
      some (char, stripped.length - (stripped.dropWhile (· == char)).length)
    else none

/-- A line of fence characters and whitespace only: it can close a block. -/
def isBareFence (U : UnicodeData) (line : Text) : Bool :=
  match U.strip line with
  | [] => false
  | char :: rest => (char == '`' || char == '~') && rest.all (· == char)

/-- A block of `raw`. -/
def block (kind : BlockKind) (raw : Text) (start stop : ℕ) : TextBlock :=
  ⟨kind, start, stop, slice raw start stop⟩

/-- The state of the scan: the blocks closed so far, where prose resumes, the open fence and
where its block started. -/
structure BlockScan where
  blocks : List TextBlock
  proseStart : ℕ
  openFence : Option (Char × ℕ)
  codeStart : ℕ

/-- Reading one line. -/
def BlockScan.step (U : UnicodeData) (raw : Text) (s : BlockScan) (l : Line) : BlockScan :=
  match s.openFence, fenceToken l.line with
  | none, none => s
  | none, some fence =>
      { s with
        blocks := if s.proseStart < l.start then
            s.blocks ++ [block .prose raw s.proseStart l.start] else s.blocks
        codeStart := l.start
        openFence := some fence }
  | some _, none => s
  | some (char, length), some fence =>
      if fence.1 = char ∧ length ≤ fence.2 ∧ isBareFence U l.line then
        { s with
          blocks := s.blocks ++ [block .code raw s.codeStart l.stop]
          proseStart := l.stop
          openFence := none }
      else s

/-- The blocks of `raw`: prose and fenced code in turn. -/
def scanBlocks (U : UnicodeData) (raw : Text) : List TextBlock :=
  if raw.isEmpty then []
  else
    let s := (lines raw).foldl (BlockScan.step U raw) ⟨[], 0, none, 0⟩
    match s.openFence with
    | some _ => s.blocks ++ [block .code raw s.codeStart raw.length]
    | none =>
        if s.proseStart < raw.length then
          s.blocks ++ [block .prose raw s.proseStart raw.length]
        else s.blocks

/-! ### The blocks tile the text -/

/-- The blocks follow one another without a gap from `start` to `stop`. -/
def BlocksFrom : ℕ → List TextBlock → ℕ → Prop
  | start, [], stop => start = stop
  | start, b :: bs, stop => b.start = start ∧ start < b.stop ∧ BlocksFrom b.stop bs stop

lemma BlocksFrom.append {a b c : ℕ} {bs cs : List TextBlock} (h : BlocksFrom a bs b)
    (h' : BlocksFrom b cs c) : BlocksFrom a (bs ++ cs) c := by
  induction bs generalizing a with
  | nil => rw [BlocksFrom] at h; rwa [List.nil_append, h]
  | cons x xs ih => exact ⟨h.1, h.2.1, ih h.2.2⟩

lemma BlocksFrom.concat {a b c : ℕ} {bs : List TextBlock} (h : BlocksFrom a bs b)
    (kind : BlockKind) (raw : Text) (hbc : b < c) :
    BlocksFrom a (bs ++ [block kind raw b c]) c :=
  h.append ⟨rfl, hbc, rfl⟩

lemma BlocksFrom.le {a b : ℕ} {bs : List TextBlock} (h : BlocksFrom a bs b) : a ≤ b := by
  induction bs generalizing a with
  | nil => exact le_of_eq h
  | cons x xs ih => exact h.2.1.le.trans (ih h.2.2)

/-- The lines follow one another without a gap, and an empty rest is the end of the text. -/
def LinesFrom : ℕ → List Line → ℕ → Prop
  | start, [], stop => start = stop
  | start, l :: ls, stop => l.start = start ∧ start < l.stop ∧ LinesFrom l.stop ls stop

lemma linesFrom_linesFrom (rest : Text) : ∀ (start : ℕ) (line : Text) (position : ℕ),
    start + line.length = position →
    LinesFrom start (linesFrom start line position rest) (position + rest.length) := by
  induction rest with
  | nil =>
      intro start line position h
      cases line with
      | nil => simpa [linesFrom, LinesFrom] using h
      | cons c line =>
          rw [List.length_cons] at h
          exact ⟨rfl, by simp only; omega, rfl⟩
  | cons c rest ih =>
      intro start line position h
      rw [linesFrom]
      split_ifs
      · refine ⟨rfl, by simp only; omega, ?_⟩
        have := ih (position + 1) [] (position + 1) rfl
        rwa [show position + (c :: rest).length = position + 1 + rest.length by
          rw [List.length_cons]; omega]
      · have := ih start (line ++ [c]) (position + 1) (by simp; omega)
        rwa [show position + (c :: rest).length = position + 1 + rest.length by
          rw [List.length_cons]; omega]

/-- What holds of the scan before the line at `position`: the closed blocks tile the text up to
where prose resumes or the open block started, and neither lies past `position`. -/
def BlockScan.Tiles (s : BlockScan) (position : ℕ) : Prop :=
  match s.openFence with
  | none => BlocksFrom 0 s.blocks s.proseStart ∧ s.proseStart ≤ position
  | some _ => BlocksFrom 0 s.blocks s.codeStart ∧ s.codeStart < position

lemma BlockScan.Tiles.step (U : UnicodeData) {raw : Text} {s : BlockScan} {l : Line}
    (h : s.Tiles l.start) (hl : l.start < l.stop) : (s.step U raw l).Tiles l.stop := by
  obtain ⟨blocks, proseStart, openFence, codeStart⟩ := s
  cases hf : fenceToken l.line with
  | none =>
      cases openFence with
      | none =>
          simp only [BlockScan.step, hf, Tiles] at h ⊢
          exact ⟨h.1, h.2.trans hl.le⟩
      | some f =>
          simp only [BlockScan.step, hf, Tiles] at h ⊢
          exact ⟨h.1, h.2.trans hl⟩
  | some fence =>
      cases openFence with
      | none =>
          obtain ⟨htile, hle⟩ := h
          simp only [BlockScan.step, hf, Tiles]
          refine ⟨?_, hl⟩
          split_ifs with hlt
          · exact htile.concat _ _ hlt
          · rwa [show l.start = proseStart by simp only at hle hlt; omega]
      | some f =>
          obtain ⟨htile, hlt⟩ := h
          simp only [BlockScan.step, hf]
          split_ifs
          · exact ⟨htile.concat _ _ (hlt.trans hl), le_rfl⟩
          · exact ⟨htile, hlt.trans hl⟩

lemma BlockScan.Tiles.foldl (U : UnicodeData) (raw : Text) {ls : List Line} {s : BlockScan}
    {a b : ℕ} (h : s.Tiles a) (hls : LinesFrom a ls b) :
    (ls.foldl (BlockScan.step U raw) s).Tiles b := by
  induction ls generalizing s a with
  | nil => rw [LinesFrom] at hls; rwa [List.foldl_nil, ← hls]
  | cons l ls ih =>
      obtain ⟨rfl, hlt, hrest⟩ := hls
      exact ih (h.step U hlt) hrest

/-- The blocks of a text tile it. -/
theorem scanBlocks_blocksFrom (U : UnicodeData) (raw : Text) :
    BlocksFrom 0 (scanBlocks U raw) raw.length := by
  rw [scanBlocks]
  split_ifs with hempty
  · rw [List.isEmpty_iff] at hempty
    simp [hempty, BlocksFrom]
  · have hlines : LinesFrom 0 (lines raw) raw.length := by
      simpa only [lines, Nat.zero_add] using linesFrom_linesFrom raw 0 [] 0 rfl
    have hinit : BlockScan.Tiles ⟨[], 0, none, 0⟩ 0 := ⟨rfl, le_rfl⟩
    have hfinal := hinit.foldl U raw hlines
    set s := (lines raw).foldl (BlockScan.step U raw) ⟨[], 0, none, 0⟩ with hs
    rw [BlockScan.Tiles] at hfinal
    simp only
    split at hfinal
    · next hopen =>
        simp only [hopen]
        split_ifs with hlt
        · exact hfinal.1.concat _ _ hlt
        · rw [show raw.length = s.proseStart by omega]
          exact hfinal.1
    · next f hopen =>
        simp only [hopen]
        exact hfinal.1.concat _ _ hfinal.2

end Memorist
