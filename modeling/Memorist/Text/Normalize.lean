import Memorist.Text.Blocks

/-!
Normalization with an exact map back to the raw text (`textsemantics/normalize.py`,
`textsemantics/contract.py`).

A normalized text is a list of `Glyph`s: a character together with the raw range
that produced it.

* `normalizeWithMapping`: one forward pass over the blocks; prose is read cluster
  by cluster, fenced code verbatim;
* `Emitter.Ok`: what every prefix of the pass satisfies. Ranges are non-empty and
  within what has been read, their ends never decrease, everything emitted before
  an alphanumeric glyph ends where that glyph starts at the latest, and an
  alphanumeric glyph starts at an alphanumeric character of the raw text;
* `normalizeWithMapping_wellMapped`: the same of the finished text.
-/

namespace Memorist

/-- How U+200C is treated inside prose. -/
inductive ZwnjPolicy where
  | boundary
  | remove
  deriving DecidableEq, Repr

/-- One normalization rule set; the defaults are the active contract. -/
structure NormalizationContract where
  version : String := "memorist.text.normalization.v1"
  unicodeForm : String := "NFC"
  unifyPersianLetters : Bool := true
  removeArabicDiacritics : Bool := true
  zwnjPolicy : ZwnjPolicy := .boundary
  normalizeDigits : Bool := true
  lowercaseLetters : Bool := true
  compressWhitespace : Bool := true
  preserveFencedCode : Bool := true
  deriving DecidableEq, Repr

/-- The active contract. -/
def defaultNormalizationContract : NormalizationContract := {}

/-- U+200C ZERO WIDTH NON-JOINER. -/
def zwnj : Char := Char.ofNat 0x200C

/-- U+200D ZERO WIDTH JOINER. -/
def zwj : Char := Char.ofNat 0x200D

/-- U+0640 ARABIC TATWEEL. -/
def tatweel : Char := Char.ofNat 0x0640

/-- The blocks that hold Arabic-script characters. -/
def arabicBlocks : List (ℕ × ℕ) :=
  [(0x0600, 0x06FF), (0x0750, 0x077F), (0x08A0, 0x08FF), (0xFE70, 0xFEFF)]

/-- The non-spacing marks of the Arabic blocks. -/
def isArabicDiacritic (U : UnicodeData) (c : Char) : Bool :=
  arabicBlocks.any (fun b => b.1 ≤ c.toNat && c.toNat ≤ b.2) && U.category c == "Mn"

/-- The letters written with an Arabic code point, and their Persian form. -/
def persianLetterMap (c : Char) : Option Char :=
  if c = 'ي' then some 'ی' else if c = 'ى' then some 'ی' else if c = 'ك' then some 'ک' else none

/-- The Persian and Arabic-Indic digits as ASCII digits. -/
def digitMap (c : Char) : Option Char :=
  if 0x06F0 ≤ c.toNat ∧ c.toNat ≤ 0x06F9 then some (Char.ofNat (c.toNat - 0x06F0 + 48))
  else if 0x0660 ≤ c.toNat ∧ c.toNat ≤ 0x0669 then some (Char.ofNat (c.toNat - 0x0660 + 48))
  else none

/-- A normalized character and the raw range that produced it. -/
structure Glyph where
  char : Char
  start : ℕ
  stop : ℕ
  deriving DecidableEq, Repr

/-- Normalized text plus the map back to raw offsets. -/
structure NormalizedText where
  raw : Text
  glyphs : List Glyph
  contract : NormalizationContract
  codeSpans : List (ℕ × ℕ)

namespace NormalizedText

variable (n : NormalizedText)

/-- The normalized characters. -/
def text : Text := n.glyphs.map Glyph.char

/-- Whether a normalized offset lies in fenced code. -/
def isCode (index : ℕ) : Bool := n.codeSpans.any fun s => s.1 ≤ index && index < s.2

end NormalizedText

section

variable (U : UnicodeData) (contract : NormalizationContract)

/-- The normalized replacement of one raw character; the empty text deletes it. -/
def replace (c : Char) : Text :=
  if isAscii c then
    if U.isspace c then [' ']
    else if c < ' ' ∨ c = Char.ofNat 0x7F then []
    else if contract.lowercaseLetters then U.lower c else [c]
  else if contract.removeArabicDiacritics ∧ isArabicDiacritic U c then []
  else if c = tatweel then []
  else if c = zwnj then if contract.zwnjPolicy = .boundary then [' '] else []
  else if c = zwj then []
  else if U.isspace c then [' ']
  -- bidi marks, byte-order marks and stray control bytes
  else if U.category c = "Cf" ∨ U.category c = "Cc" then []
  else if contract.unifyPersianLetters ∧ (persianLetterMap c).isSome then
    (persianLetterMap c).toList
  else if contract.normalizeDigits ∧ (digitMap c).isSome then (digitMap c).toList
  else if contract.lowercaseLetters then U.lower c
  else [c]

/-- A mark of a cluster: not ASCII, with a combining class. -/
def isMark (c : Char) : Bool := !isAscii c && U.combining c != 0

/-- A composed cluster and its raw range. -/
structure Cluster where
  text : Text
  start : ℕ
  stop : ℕ

/-- The composed form of a cluster; a lone ASCII character is composed already. -/
def compose (cluster : Text) : Text :=
  if contract.unicodeForm = "NFC" ∧ ¬(cluster.length = 1 ∧ cluster.all isAscii) then U.nfc cluster
  else cluster

/-- The clusters still to come when `cluster`, begun at `start`, has been read up to `index`. -/
def clustersFrom (cluster : Text) (start index : ℕ) : Text → List Cluster
  | [] => [⟨compose U contract cluster, start, index⟩]
  | c :: rest =>
      if isMark U c then clustersFrom (cluster ++ [c]) start (index + 1) rest
      else ⟨compose U contract cluster, start, index⟩ ::
        clustersFrom [c] index (index + 1) rest

/-- Each base character of `raw[start:stop]` with its combining marks, composed. -/
def clusters (raw : Text) (start stop : ℕ) : List Cluster :=
  match slice raw start stop with
  | [] => []
  | c :: rest => clustersFrom U contract [c] start (start + 1) rest

/-- The normalized glyphs emitted so far, the ranges copied from code, and a separator held
back until a following character proves it sits between content. -/
structure Emitter where
  glyphs : List Glyph
  codeSpans : List (ℕ × ℕ)
  pending : Option (ℕ × ℕ)

namespace Emitter

/-- Emit a pending separator, unless nothing was emitted before it. -/
def flush (e : Emitter) : Emitter :=
  match e.pending with
  | none => e
  | some p =>
      { e with
        glyphs := if e.glyphs.isEmpty then e.glyphs else e.glyphs ++ [⟨' ', p.1, p.2⟩]
        pending := none }

/-- Hold a separator back. -/
def hold (e : Emitter) (start stop : ℕ) : Emitter :=
  if contract.compressWhitespace then
    { e with pending := some ((e.pending.map Prod.fst).getD start, stop) }
  else { e.flush with pending := some (start, stop) }.flush

/-- Emit one character of a cluster that lies at `[start, stop)`. -/
def emitChar (start stop : ℕ) (e : Emitter) (char : Char) : Emitter :=
  let replacement := replace U contract char
  if replacement = [] then e
  else if replacement = [' '] then e.hold contract start stop
  else { e.flush with glyphs := e.flush.glyphs ++ replacement.map fun c => ⟨c, start, stop⟩ }

/-- Emit one cluster. -/
def emitCluster (e : Emitter) (c : Cluster) : Emitter :=
  c.text.foldl (emitChar U contract c.start c.stop) e

/-- Emit a prose block. -/
def emitProse (e : Emitter) (raw : Text) (start stop : ℕ) : Emitter :=
  (clusters U contract raw start stop).foldl (emitCluster U contract) e

/-- Copy a code block byte for byte. -/
def emitVerbatim (e : Emitter) (raw : Text) (start stop : ℕ) : Emitter :=
  let flushed := e.flush
  let copied := ((slice raw start stop).zipIdx start).map fun c => (⟨c.1, c.2, c.2 + 1⟩ : Glyph)
  { flushed with
    glyphs := flushed.glyphs ++ copied
    codeSpans := flushed.codeSpans ++
      [(flushed.glyphs.length, flushed.glyphs.length + copied.length)] }

/-- Emit one block. -/
def emitBlock (raw : Text) (e : Emitter) (b : TextBlock) : Emitter :=
  match b.kind with
  | .code => e.emitVerbatim raw b.start b.stop
  | .prose => e.emitProse U contract raw b.start b.stop

/-- The finished text; a trailing separator is dropped. -/
def finish (e : Emitter) (raw : Text) : NormalizedText := ⟨raw, e.glyphs, contract, e.codeSpans⟩

end Emitter

/-- The blocks normalization reads. -/
def normalizationBlocks (raw : Text) : List TextBlock :=
  if raw.isEmpty then []
  else if contract.preserveFencedCode then scanBlocks U raw
  else [⟨.prose, 0, raw.length, raw⟩]

/-- Normalize `raw` and keep an exact map back to its offsets. -/
def normalizeWithMapping (raw : Text) : NormalizedText :=
  ((normalizationBlocks U contract raw).foldl (Emitter.emitBlock U contract raw)
    ⟨[], [], none⟩).finish contract raw

/-- The normalized form of `raw` without the offset map. -/
def normalizeText (raw : Text) : Text := (normalizeWithMapping U contract raw).text

end

/-! ### Alphanumeric characters come from alphanumeric characters -/

section

variable (U : UnicodeData) (contract : NormalizationContract)

lemma isalnum_of_persianLetterMap {c : Char} (h : (persianLetterMap c).isSome) :
    U.isalnum c = true := by
  refine U.isalnum_arabicVariant c ?_
  simp only [persianLetterMap] at h
  split_ifs at h with h1 h2 h3
  · simp [arabicVariantLetters, h1]
  · simp [arabicVariantLetters, h2]
  · simp [arabicVariantLetters, h3]
  · simp at h

lemma isalnum_of_digitMap {c : Char} (h : (digitMap c).isSome) : U.isalnum c = true := by
  refine U.isalnum_arabicDigit c ?_
  simp only [digitMap] at h
  split_ifs at h with h1 h2
  · simp [isArabicDigit, h1]
  · simp [isArabicDigit, h2]
  · simp at h

/-- What a replacement can be: nothing, a separator, the character or its lower case, or the
single image of an alphanumeric character. -/
lemma replace_cases (c : Char) :
    replace U contract c = [] ∨ replace U contract c = [' '] ∨ replace U contract c = [c] ∨
      replace U contract c = U.lower c ∨
      (U.isalnum c = true ∧ (replace U contract c).length ≤ 1) := by
  have hletters := isalnum_of_persianLetterMap U (c := c)
  have hdigits := isalnum_of_digitMap U (c := c)
  rw [replace]
  split_ifs <;> simp_all

/-- The replacement of a character that is not alphanumeric has no alphanumeric character. -/
lemma isalnum_of_mem_replace {c d : Char} (hd : d ∈ replace U contract c)
    (hd' : U.isalnum d = true) : U.isalnum c = true := by
  by_contra hc
  rw [Bool.not_eq_true] at hc
  rcases replace_cases U contract c with h | h | h | h | h
  · simp [h] at hd
  · rw [h, List.mem_singleton] at hd
    rw [hd, U.isalnum_space] at hd'
    exact Bool.false_ne_true hd'
  · rw [h, List.mem_singleton] at hd
    rw [hd, hc] at hd'
    exact Bool.false_ne_true hd'
  · rw [h] at hd
    rw [U.isalnum_lower c hc d hd] at hd'
    exact Bool.false_ne_true hd'
  · rw [h.1] at hc
    exact Bool.false_ne_true hc.symm

/-- Only the first character of a replacement can be alphanumeric. -/
lemma isalnum_replace_tail {c d : Char} (hd : d ∈ (replace U contract c).tail) :
    U.isalnum d = false := by
  rcases replace_cases U contract c with h | h | h | h | h
  · simp [h] at hd
  · simp [h] at hd
  · simp [h] at hd
  · rw [h] at hd
    exact U.isalnum_lower_tail c d hd
  · have hnil : (replace U contract c).tail = [] := by
      rw [← List.length_eq_zero_iff, List.length_tail]
      omega
    rw [hnil] at hd
    simp at hd

/-- A cluster: a base character and its marks. -/
def IsCluster (cluster : Text) : Prop :=
  ∃ base marks, cluster = base :: marks ∧ ∀ m ∈ marks, isMark U m = true

lemma combining_of_isMark {c : Char} (h : isMark U c = true) : U.combining c ≠ 0 := by
  simp only [isMark, Bool.and_eq_true, bne_iff_ne] at h
  exact h.2

/-- Only the first character of a composed cluster can be alphanumeric. -/
lemma isalnum_compose_tail {cluster : Text} (h : IsCluster U cluster) {d : Char}
    (hd : d ∈ (compose U contract cluster).tail) : U.isalnum d = false := by
  obtain ⟨base, marks, rfl, hm⟩ := h
  rw [compose] at hd
  split_ifs at hd
  · exact U.isalnum_nfc_tail base marks (fun m hm' => combining_of_isMark U (hm m hm')) d hd
  · exact U.isalnum_of_combining d (combining_of_isMark U (hm d hd))

/-- An alphanumeric character heads a composed cluster only if its base is alphanumeric. -/
lemma isalnum_compose_head {cluster : Text} (h : IsCluster U cluster) {d : Char}
    (hd : (compose U contract cluster).head? = some d) (hd' : U.isalnum d = true) :
    ∃ base, cluster.head? = some base ∧ U.isalnum base = true := by
  obtain ⟨base, marks, rfl, hm⟩ := h
  refine ⟨base, rfl, ?_⟩
  rw [compose] at hd
  split_ifs at hd
  · exact U.isalnum_nfc_head base marks d (fun m hm' => combining_of_isMark U (hm m hm')) hd hd'
  · rw [List.head?_cons, Option.some.injEq] at hd
    rw [hd, hd']

/-! ### The clusters of a block -/

/-- The clusters follow one another from `start` to `stop`, each the composition of a base
character, found at its start, with marks. -/
def ClustersFrom (raw : Text) : ℕ → List Cluster → ℕ → Prop
  | start, [], stop => start = stop
  | start, c :: cs, stop => c.start = start ∧ start < c.stop ∧
      (∃ cluster, IsCluster U cluster ∧ cluster.head? = raw[start]? ∧
        c.text = compose U contract cluster) ∧ ClustersFrom raw c.stop cs stop

lemma clustersFrom_clustersFrom (raw : Text) (rest : Text) :
    ∀ (cluster : Text) (start index : ℕ), IsCluster U cluster →
      cluster.head? = raw[start]? → start < index →
      (∀ i < rest.length, raw[index + i]? = rest[i]?) →
      ClustersFrom U contract raw start (clustersFrom U contract cluster start index rest)
        (index + rest.length) := by
  induction rest with
  | nil =>
      intro cluster start index hc hhead hlt _
      exact ⟨rfl, hlt, ⟨cluster, hc, hhead, rfl⟩, rfl⟩
  | cons c rest ih =>
      intro cluster start index hc hhead hlt hrest
      have hlen : index + (c :: rest).length = index + 1 + rest.length := by
        rw [List.length_cons]; omega
      have hrest' : ∀ i < rest.length, raw[index + 1 + i]? = rest[i]? := by
        intro i hi
        have := hrest (i + 1) (by rw [List.length_cons]; omega)
        rwa [List.getElem?_cons_succ, ← Nat.add_assoc, Nat.add_right_comm] at this
      rw [clustersFrom, hlen]
      split_ifs with hmark
      · refine ih _ start (index + 1) ?_ ?_ (by omega) hrest'
        · obtain ⟨base, marks, rfl, hm⟩ := hc
          refine ⟨base, marks ++ [c], rfl, fun m hm' => ?_⟩
          rcases List.mem_append.mp hm' with h | h
          · exact hm m h
          · rw [List.mem_singleton.mp h, hmark]
        · obtain ⟨base, marks, rfl, -⟩ := hc
          exact hhead
      · refine ⟨rfl, hlt, ⟨cluster, hc, hhead, rfl⟩, ?_⟩
        refine ih [c] index (index + 1) ⟨c, [], rfl, by simp⟩ ?_ (by omega) hrest'
        simpa using (hrest 0 (by simp)).symm

lemma clusters_clustersFrom {raw : Text} {start stop : ℕ} (h : start < stop)
    (h' : stop ≤ raw.length) :
    ClustersFrom U contract raw start (clusters U contract raw start stop) stop := by
  have hlen : (slice raw start stop).length = stop - start := by rw [slice_length]; omega
  have hget : ∀ i < stop - start, raw[start + i]? = (slice raw start stop)[i]? := by
    intro i hi
    rw [slice_getElem? raw (by omega)]
  rw [clusters]
  cases hs : slice raw start stop with
  | nil => rw [hs, List.length_nil] at hlen; omega
  | cons c rest =>
      rw [hs] at hlen hget
      rw [List.length_cons] at hlen
      have hfrom := clustersFrom_clustersFrom U contract raw rest [c] start (start + 1)
        ⟨c, [], rfl, by simp⟩ (by simpa using (hget 0 (by omega)).symm) (by omega)
        (fun i hi => by
          have := hget (i + 1) (by omega)
          rwa [List.getElem?_cons_succ, ← Nat.add_assoc, Nat.add_right_comm] at this)
      rwa [show start + 1 + rest.length = stop by omega] at hfrom

/-! ### What every prefix of the pass satisfies -/

/-- The map of a list of glyphs into the first `bound` characters of `raw` is exact. -/
structure WellMapped (raw : Text) (bound : ℕ) (glyphs : List Glyph) : Prop where
  range : ∀ g ∈ glyphs, g.start < g.stop ∧ g.stop ≤ bound
  ordered : glyphs.Pairwise fun a b => a.stop ≤ b.stop
  separated : glyphs.Pairwise fun a b => U.isalnum b.char = true → a.stop ≤ b.start
  anchored : ∀ g ∈ glyphs, U.isalnum g.char = true →
    ∃ c, raw[g.start]? = some c ∧ U.isalnum c = true

/-- The state of the pass once the raw text has been read up to `bound`. -/
structure Emitter.Ok (raw : Text) (bound : ℕ) (e : Emitter) : Prop where
  wellMapped : WellMapped U raw bound e.glyphs
  held : ∀ p ∈ e.pending, p.1 < p.2 ∧ p.2 ≤ bound ∧ ∀ g ∈ e.glyphs, g.stop ≤ p.2

variable {U contract}

lemma WellMapped.mono {raw : Text} {a b : ℕ} {gs : List Glyph} (h : WellMapped U raw a gs)
    (hab : a ≤ b) : WellMapped U raw b gs :=
  ⟨fun g hg => ⟨(h.range g hg).1, (h.range g hg).2.trans hab⟩, h.ordered, h.separated, h.anchored⟩

/-- Emitting the characters of one range: all but the first are marks or separators, and if the
first is alphanumeric the range starts past everything emitted, at an alphanumeric character. -/
lemma WellMapped.append {raw : Text} {bound bound' start stop : ℕ} {gs : List Glyph}
    (h : WellMapped U raw bound gs) (produced : Text) (hbound : bound ≤ bound')
    (hlt : start < stop) (hstop : stop ≤ bound') (hle : ∀ g ∈ gs, g.stop ≤ stop)
    (htail : ∀ d ∈ produced.tail, U.isalnum d = false)
    (hhead : ∀ d ∈ produced.head?, U.isalnum d = true →
      (∀ g ∈ gs, g.stop ≤ start) ∧ ∃ c, raw[start]? = some c ∧ U.isalnum c = true) :
    WellMapped U raw bound' (gs ++ produced.map fun c => ⟨c, start, stop⟩) := by
  have hcases : ∀ d ∈ produced, U.isalnum d = true → d ∈ produced.head? := by
    intro d hd hal
    cases produced with
    | nil => simp at hd
    | cons x xs =>
        rcases List.mem_cons.mp hd with rfl | hd
        · simp
        · rw [htail d hd] at hal
          exact absurd hal Bool.false_ne_true
  constructor
  · intro g hg
    rcases List.mem_append.mp hg with hg | hg
    · exact ⟨(h.range g hg).1, (h.range g hg).2.trans hbound⟩
    · obtain ⟨d, -, rfl⟩ := List.mem_map.mp hg
      exact ⟨hlt, hstop⟩
  · refine List.pairwise_append.mpr ⟨h.ordered, ?_, ?_⟩
    · exact List.pairwise_map.mpr (List.pairwise_of_forall fun _ _ => le_rfl)
    · intro a ha b hb
      obtain ⟨d, -, rfl⟩ := List.mem_map.mp hb
      exact hle a ha
  · refine List.pairwise_append.mpr ⟨h.separated, ?_, ?_⟩
    · cases produced with
      | nil => simp
      | cons x xs =>
          refine List.pairwise_map.mpr (List.pairwise_cons.mpr ⟨fun d hd hal => ?_, ?_⟩)
          · rw [htail d hd] at hal
            exact absurd hal Bool.false_ne_true
          · refine List.pairwise_of_forall_mem_list fun a _ b hb hal => ?_
            rw [htail b hb] at hal
            exact absurd hal Bool.false_ne_true
    · intro a ha b hb hal
      obtain ⟨d, hd, rfl⟩ := List.mem_map.mp hb
      exact (hhead d (hcases d hd hal) hal).1 a ha
  · intro g hg hal
    rcases List.mem_append.mp hg with hg | hg
    · exact h.anchored g hg hal
    · obtain ⟨d, hd, rfl⟩ := List.mem_map.mp hg
      exact (hhead d (hcases d hd hal) hal).2

namespace Emitter.Ok

variable {raw : Text} {bound start stop : ℕ} {e : Emitter}

lemma mono (h : e.Ok U raw bound) {b : ℕ} (hb : bound ≤ b) : e.Ok U raw b :=
  ⟨h.wellMapped.mono hb, fun p hp =>
    ⟨(h.held p hp).1, (h.held p hp).2.1.trans hb, (h.held p hp).2.2⟩⟩

lemma flush (h : e.Ok U raw bound) : e.flush.Ok U raw bound ∧ e.flush.pending = none := by
  rw [Emitter.flush]
  cases hp : e.pending with
  | none => exact ⟨h, hp⟩
  | some p =>
      obtain ⟨hlt, hle, hstop⟩ := h.held p hp
      refine ⟨⟨?_, by simp⟩, rfl⟩
      split_ifs
      · exact h.wellMapped
      · exact h.wellMapped.append [' '] le_rfl hlt hle hstop (by simp)
          (by simp [U.isalnum_space])

lemma hold (h : e.Ok U raw bound) (hlt : start < stop) (hle : bound ≤ stop) :
    (e.hold contract start stop).Ok U raw stop := by
  have hstop : ∀ {e : Emitter}, e.Ok U raw bound → ∀ g ∈ e.glyphs, g.stop ≤ stop :=
    fun h g hg => (h.wellMapped.range g hg).2.trans hle
  rw [Emitter.hold]
  split_ifs
  · refine ⟨h.wellMapped.mono hle, fun p hp => ?_⟩
    rw [Option.mem_some_iff] at hp
    subst hp
    refine ⟨?_, le_rfl, fun g hg => hstop h g hg⟩
    cases hpend : e.pending with
    | none => simpa using hlt
    | some q =>
        obtain ⟨hq, hqb, -⟩ := h.held q hpend
        simp only [Option.map_some, Option.getD_some]
        omega
  · have hheld : ({ e.flush with pending := some (start, stop) } : Emitter).Ok U raw stop := by
      refine ⟨h.flush.1.wellMapped.mono hle, fun p hp => ?_⟩
      rw [Option.mem_some_iff] at hp
      subst hp
      exact ⟨hlt, le_rfl, fun g hg => hstop h.flush.1 g hg⟩
    exact hheld.flush.1

/-- Emitting one character of a range that ends past everything read. -/
lemma emitChar (h : e.Ok U raw bound) (hlt : start < stop) (hle : bound ≤ stop) {c : Char}
    (hc : U.isalnum c = true →
      bound ≤ start ∧ ∃ d, raw[start]? = some d ∧ U.isalnum d = true) :
    (Emitter.emitChar U contract start stop e c).Ok U raw stop := by
  rw [Emitter.emitChar]
  simp only
  split_ifs
  · exact h.mono hle
  · exact h.hold hlt hle
  · obtain ⟨hflush, hnone⟩ := h.flush
    have hstop : ∀ g ∈ e.flush.glyphs, g.stop ≤ bound := fun g hg =>
      (hflush.wellMapped.range g hg).2
    refine ⟨?_, by simp [hnone]⟩
    refine hflush.wellMapped.append _ hle hlt le_rfl (fun g hg => (hstop g hg).trans hle)
      (fun d hd => isalnum_replace_tail U contract hd) (fun d hd hal => ?_)
    obtain ⟨hbs, hanchor⟩ := hc (isalnum_of_mem_replace U contract (List.mem_of_mem_head? hd) hal)
    exact ⟨fun g hg => (hstop g hg).trans hbs, hanchor⟩

/-- The marks of a cluster keep the invariant at the end of the cluster. -/
lemma foldl_marks (h : e.Ok U raw stop) (hlt : start < stop) {marks : Text}
    (hm : ∀ m ∈ marks, U.isalnum m = false) :
    (marks.foldl (Emitter.emitChar U contract start stop) e).Ok U raw stop := by
  induction marks generalizing e with
  | nil => exact h
  | cons m ms ih =>
      refine ih (h.emitChar hlt le_rfl fun hal => ?_) fun x hx => hm x (by simp [hx])
      rw [hm m (by simp)] at hal
      exact absurd hal Bool.false_ne_true

lemma emitCluster {c : Cluster} (h : e.Ok U raw c.start) (hlt : c.start < c.stop)
    (hc : ∃ cluster, IsCluster U cluster ∧ cluster.head? = raw[c.start]? ∧
      c.text = compose U contract cluster) :
    (Emitter.emitCluster U contract e c).Ok U raw c.stop := by
  obtain ⟨cluster, hcl, hhead, htext⟩ := hc
  have htail : ∀ d ∈ c.text.tail, U.isalnum d = false := by
    rw [htext]
    exact fun d hd => isalnum_compose_tail U contract hcl hd
  rw [Emitter.emitCluster]
  cases hct : c.text with
  | nil => exact h.mono hlt.le
  | cons d ds =>
      rw [hct, List.tail_cons] at htail
      rw [List.foldl_cons]
      refine (h.emitChar hlt hlt.le fun hal => ⟨le_rfl, ?_⟩).foldl_marks hlt htail
      obtain ⟨base, hbase, hbal⟩ := isalnum_compose_head U contract hcl
        (by rw [← htext, hct, List.head?_cons]) hal
      exact ⟨base, by rw [← hhead, hbase], hbal⟩

lemma foldl_clusters {cs : List Cluster} (h : e.Ok U raw start)
    (hcs : ClustersFrom U contract raw start cs stop) :
    (cs.foldl (Emitter.emitCluster U contract) e).Ok U raw stop := by
  induction cs generalizing e start with
  | nil => rw [ClustersFrom] at hcs; rwa [List.foldl_nil, ← hcs]
  | cons c cs ih =>
      obtain ⟨rfl, hlt, hc, hrest⟩ := hcs
      exact ih (h.emitCluster hlt hc) hrest

lemma emitProse (h : e.Ok U raw start) (hlt : start < stop) (hle : stop ≤ raw.length) :
    (e.emitProse U contract raw start stop).Ok U raw stop :=
  h.foldl_clusters (clusters_clustersFrom U contract hlt hle)

/-- Copying characters one by one keeps the map exact. -/
lemma copy {gs : List Glyph} (h : WellMapped U raw start gs) (chars : Text)
    (hchars : ∀ i < chars.length, raw[start + i]? = chars[i]?) :
    WellMapped U raw (start + chars.length)
      (gs ++ (chars.zipIdx start).map fun c => (⟨c.1, c.2, c.2 + 1⟩ : Glyph)) := by
  induction chars generalizing gs start with
  | nil => simpa using h
  | cons c rest ih =>
      have hone := h.append [c] (by omega) (Nat.lt_succ_self start) le_rfl (fun g hg => (h.range g hg).2.trans (by omega)) (by simp)
        (fun d hd hal => ⟨fun g hg => (h.range g hg).2, c, by simpa using hchars 0 (by simp), by
          simp only [List.head?_cons, Option.mem_some_iff] at hd
          rw [hd, hal]⟩)
      have hrest := ih hone fun i hi => by
        have := hchars (i + 1) (by rw [List.length_cons]; omega)
        rwa [List.getElem?_cons_succ, ← Nat.add_assoc, Nat.add_right_comm] at this
      rw [List.length_cons, show start + (rest.length + 1) = start + 1 + rest.length by omega]
      simpa using hrest

lemma emitVerbatim (h : e.Ok U raw start) (hlt : start < stop) (hle : stop ≤ raw.length) :
    (e.emitVerbatim raw start stop).Ok U raw stop := by
  obtain ⟨hflush, hnone⟩ := h.flush
  have hlen : start + (slice raw start stop).length = stop := by rw [slice_length]; omega
  have hcopy := copy hflush.wellMapped (slice raw start stop) fun i hi => by
    rw [slice_length] at hi
    rw [slice_getElem? raw (by omega)]
  rw [hlen] at hcopy
  exact ⟨hcopy, by simp [Emitter.emitVerbatim, hnone]⟩

lemma foldl_blocks {bs : List TextBlock} (h : e.Ok U raw start) (hbs : BlocksFrom start bs stop)
    (hle : stop ≤ raw.length) :
    (bs.foldl (Emitter.emitBlock U contract raw) e).Ok U raw stop := by
  induction bs generalizing e start with
  | nil => rw [BlocksFrom] at hbs; rwa [List.foldl_nil, ← hbs]
  | cons b bs ih =>
      obtain ⟨rfl, hlt, hrest⟩ := hbs
      have hb : b.stop ≤ raw.length := hrest.le.trans hle
      refine ih ?_ hrest
      rw [Emitter.emitBlock]
      cases b.kind with
      | prose => exact h.emitProse hlt hb
      | code => exact h.emitVerbatim hlt hb

end Emitter.Ok

variable (U contract)

lemma normalizationBlocks_blocksFrom (raw : Text) :
    BlocksFrom 0 (normalizationBlocks U contract raw) raw.length := by
  rw [normalizationBlocks]
  split_ifs with hempty
  · rw [List.isEmpty_iff] at hempty
    simp [hempty, BlocksFrom]
  · exact scanBlocks_blocksFrom U raw
  · rw [List.isEmpty_iff] at hempty
    exact ⟨rfl, List.length_pos_of_ne_nil hempty, rfl⟩

/-- The map of a normalized text back to its raw text is exact. -/
theorem normalizeWithMapping_wellMapped (raw : Text) :
    WellMapped U raw raw.length (normalizeWithMapping U contract raw).glyphs := by
  have hinit : Emitter.Ok U raw 0 ⟨[], [], none⟩ :=
    ⟨⟨by simp, List.Pairwise.nil, List.Pairwise.nil, by simp⟩, by simp⟩
  exact (hinit.foldl_blocks (normalizationBlocks_blocksFrom U contract raw) le_rfl).wellMapped

end

end Memorist
