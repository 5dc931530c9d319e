import Memorist.Library.Span
import Memorist.Text.Tokens

/-!
The deterministic envelope of a message (`textsemantics/result.py`,
`textsemantics/referential.py`).

* `Platform`: the character database together with the two digests the code takes
  from the standard library;
* `buildEnvelope`, `TextEnvelope.asDict`: what the planner reads of an envelope, its
  hash, its token ranges and its context-dependency hints;
* `buildEnvelope_tokenRangesOf`: the token ranges of an envelope.
-/

namespace Memorist

/-- What the code takes from the interpreter: the character database, `sha256(..).hexdigest()`
of the UTF-8 bytes of a text, and `str(uuid5(namespace, name))`. -/
structure Platform where
  unicode : UnicodeData
  sha256 : Text → String
  uuid5 : String → String → String

/-- The active envelope contract. -/
def textSemanticsContractVersion : String := "memorist.text.envelope.v3"

/-- The closed-class deictics that may ask for wider context. -/
def deicticTokens : List String :=
  ["این", "آن", "همان", "همین", "چنین", "اینها", "آنها", "ایشان", "اش", "شان", "شون",
   "this", "that", "these", "those", "it", "them", "they", "such", "previous", "earlier",
   "above", "prior", "same", "قبلی", "پیشین", "بالا"]

/-- A closed-class deictic at a raw range. -/
structure ContextDependencyHint where
  rawStart : ℕ
  rawEnd : ℕ
  evidence : Text
  normalizedText : Text
  authority : String := "non_authoritative"
  deriving DecidableEq, Repr

/-- The deictics of a text outside fenced code. -/
def detectContextDependency (U : UnicodeData) (resolved : NormalizedText) :
    List ContextDependencyHint :=
  ((tokenize U resolved false).filter fun t => (deicticTokens.map String.toList).contains t.key).map
    fun t =>
      { rawStart := t.rawStart
        rawEnd := t.rawEnd
        evidence := slice resolved.raw t.rawStart t.rawEnd
        normalizedText := t.text }

/-- What deterministic code says about one raw text. -/
structure TextEnvelope where
  contractVersion : String
  rawTextHash : String
  tokens : List Token
  contextDependencyHints : List ContextDependencyHint

/-- The JSON view of an envelope. -/
structure EnvelopeDict where
  contractVersion : String
  rawTextHash : String
  tokens : List Span
  contextDependencyHints : List Span
  deriving DecidableEq, Repr

/-- The raw range of a token. -/
def Token.span (t : Token) : Span := ⟨t.rawStart, t.rawEnd⟩

/-- The raw range of a hint. -/
def ContextDependencyHint.span (h : ContextDependencyHint) : Span := ⟨h.rawStart, h.rawEnd⟩

/-- The JSON view of an envelope. -/
def TextEnvelope.asDict (e : TextEnvelope) : EnvelopeDict where
  contractVersion := e.contractVersion
  rawTextHash := e.rawTextHash
  tokens := e.tokens.map Token.span
  contextDependencyHints := e.contextDependencyHints.map ContextDependencyHint.span

/-- Build the deterministic envelope for `raw`. -/
def buildEnvelope (P : Platform) (raw : Text) : TextEnvelope :=
  let normalized := normalizeWithMapping P.unicode defaultNormalizationContract raw
  { contractVersion := textSemanticsContractVersion
    rawTextHash := P.sha256 raw
    tokens := tokenize P.unicode normalized true
    contextDependencyHints := detectContextDependency P.unicode normalized }

/-- The token ranges of an envelope are non-empty ranges of the raw text that follow one another
and hold an alphanumeric character each. -/
structure TokenRangesOf (U : UnicodeData) (raw : Text) (tokens : List Span) : Prop where
  lt : ∀ t ∈ tokens, t.start < t.stop
  le_length : ∀ t ∈ tokens, t.stop ≤ raw.length
  separated : Span.Separated tokens
  alnum : ∀ t ∈ tokens, ∃ c, raw[t.start]? = some c ∧ U.isalnum c = true

lemma TokensOf.spans {U : UnicodeData} {raw : Text} {tokens : List Token}
    (h : TokensOf U raw tokens) : TokenRangesOf U raw (tokens.map Token.span) where
  lt := by simpa [Token.span] using h.lt
  le_length := by simpa [Token.span] using h.le_length
  separated := List.pairwise_map.mpr h.separated
  alnum := by simpa [Token.span] using h.alnum

theorem buildEnvelope_tokenRangesOf (P : Platform) (raw : Text) :
    TokenRangesOf P.unicode raw (buildEnvelope P raw).asDict.tokens :=
  (tokenize_tokensOf P.unicode defaultNormalizationContract raw true).spans

/-- A short digest. -/
def checksum (text : Text) : String :=
  toString (text.foldl (fun h c => (h * 257 + c.toNat) % 1000000007) 7)

lemma checksum_ne_empty (text : Text) : checksum text ≠ "" := Nat.repr_ne_empty

/-- The platform of Latin text whose digests are checksums. -/
def latinPlatform : Platform where
  unicode := basicLatin
  sha256 := checksum
  uuid5 := fun space name => checksum (space ++ name).toList

end Memorist
