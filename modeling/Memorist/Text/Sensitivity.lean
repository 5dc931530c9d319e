import Memorist.Library.Regex
import Memorist.Text.Tokens

/-!
Sensitivity classification (`memory_worker/extraction/sensitivity.py`).

* `secretLexicon`, `sensitiveLexicon`: the phrases that raise a text's class;
* the five value patterns, over `Regex`;
* `classifySensitivity`: the class of a text.
-/

namespace Memorist

open Regex (Pattern)

/-- The privacy classes, from free to forbidden. -/
inductive SensitivityClass where
  | normal
  | sensitive
  | secret
  deriving DecidableEq, Repr

/-- The text of a privacy class. -/
def SensitivityClass.value : SensitivityClass → String
  | normal => "normal"
  | sensitive => "sensitive"
  | secret => "secret"

/-- The order of the privacy classes. -/
def SensitivityClass.rank : SensitivityClass → ℕ
  | normal => 0
  | sensitive => 1
  | secret => 2

/-- The phrases of a secret. -/
def secretLexicon : Lexicon where
  name := "secret_terms"
  phrases :=
    ["api key", "api keys", "apikey", "apikeys", "password", "passwords", "passphrase",
     "passphrases", "token", "tokens", "secret", "secrets", "credential", "credentials", "bearer",
     "private key", "private keys", "رمز", "رمزها", "توکن", "توکن‌ها", "کلیدها"]

/-- The phrases of sensitive matter. -/
def sensitiveLexicon : Lexicon where
  name := "sensitive_terms"
  phrases :=
    ["religion", "religions", "religious", "political", "politics", "medical", "health", "phone",
     "telephone", "mobile", "email", "e-mail", "address", "home address", "diagnosis",
     "diagnoses", "مذهب", "مذاهب", "سیاسی", "پزشکی", "سلامت", "تلفن", "موبایل", "ایمیل", "آدرس",
     "نشانی"]

/-- The tokens that open a credential. -/
def secretKeyPrefixes : List String := ["sk"]

/-- The shortest body of a credential. -/
def minKeyBodyLength : ℕ := 8

/-- The connectors of a credential body. -/
def keyBodyCharacters : List Char := ['-', '_']

/-- The letter a character stands for when case is ignored: the four non-ASCII letters that fold
into ASCII are U+0130, U+0131, U+017F and U+212A. -/
def ignoreCase (c : Char) : Char :=
  if c.toNat = 0x0130 ∨ c.toNat = 0x0131 then 'i'
  else if c.toNat = 0x017F then 's'
  else if c.toNat = 0x212A then 'k'
  else c.toLower

/-- The class `[a-z0-9]` when case is ignored. -/
def isLetterOrDigit (c : Char) : Bool := (ignoreCase c).isLower || c.isDigit

section

variable (U : UnicodeData)

/-- The bearer credential, `\bbearer\s+[..]{8,}={0,2}` with case ignored, over letters, digits and
the characters of `._~+-` and the slash. -/
def bearerValue : Pattern :=
  .seq (.boundary U.isWord) <|
  .seq (Regex.literal (fun a b => a == ignoreCase b) "bearer".toList) <|
  .seq (.atLeast 1 U.isspace) <|
  .seq (.atLeast 8 fun c => isLetterOrDigit c || "._~+-/".toList.contains c) <|
  .atMost 2 (· == '=')

/-- The private-key block: `-----BEGIN(?: [A-Z0-9]+)? PRIVATE KEY-----`, case ignored. -/
def privateKeyBlock : Pattern :=
  .seq (Regex.literal (fun a b => a == ignoreCase b) "-----begin".toList) <|
  .seq (.opt (.seq (.cls (· == ' ')) (.atLeast 1 isLetterOrDigit))) <|
  Regex.literal (fun a b => a == ignoreCase b) " private key-----".toList

/-- A character of a token segment, `[a-z0-9_-]`. -/
def isSegment (c : Char) : Bool := isLetterOrDigit c || c == '_' || c == '-'

/-- The three-segment token: `(?<![a-z0-9_-])[a-z0-9_-]{8,}\.[a-z0-9_-]{8,}\.[a-z0-9_-]{8,}` not
followed by a segment character, case ignored. -/
def jwtValue : Pattern :=
  .seq (.notAfter isSegment) <|
  .seq (.atLeast 8 isSegment) <| .seq (.cls (· == '.')) <|
  .seq (.atLeast 8 isSegment) <| .seq (.cls (· == '.')) <|
  .seq (.atLeast 8 isSegment) (.notBefore isSegment)

/-- The address pattern: `(?<![\w.+-])[\w.+-]+@[\w-]+(?:\.[\w-]+)+(?![\w.-])`. -/
def emailValue : Pattern :=
  .seq (.notAfter fun c => U.isWord c || ".+-".toList.contains c) <|
  .seq (.atLeast 1 fun c => U.isWord c || ".+-".toList.contains c) <|
  .seq (.cls (· == '@')) <|
  .seq (.atLeast 1 fun c => U.isWord c || c == '-') <|
  .seq (.plus (.seq (.cls (· == '.')) (.atLeast 1 fun c => U.isWord c || c == '-'))) <|
  .notBefore fun c => U.isWord c || ".-".toList.contains c

/-- The phone pattern: `(?<!\w)(?:\+?\d[\d\s().-]{8,}\d)(?!\w)`. -/
def phoneValue : Pattern :=
  .seq (.notAfter U.isWord) <|
  .seq (.opt (.cls (· == '+'))) <| .seq (.cls U.isdecimal) <|
  .seq (.atLeast 8 fun c => U.isdecimal c || U.isspace c || "().-".toList.contains c) <|
  .seq (.cls U.isdecimal) (.notBefore U.isWord)

/-- Whether the text holds an `sk-` credential: a key prefix, a connector, and a body whose
letters and digits number eight at least. -/
def hasKeyPrefix (normalized : NormalizedText) : Bool :=
  (tokenize U normalized true).any fun token =>
    (secretKeyPrefixes.map String.toList).contains token.key &&
      match normalized.text.drop token.stop with
      | [] => false
      | connector :: rest =>
          keyBodyCharacters.contains connector &&
            let body := rest.takeWhile fun c => U.isalnum c || keyBodyCharacters.contains c
            minKeyBodyLength ≤ (body.filter fun c => !keyBodyCharacters.contains c).length

/-- Classify a text on token boundaries, fenced code included. -/
def classifySensitivity (text : Text) : SensitivityClass :=
  let normalized := normalizeWithMapping U defaultNormalizationContract text
  if Regex.search (bearerValue U) normalized.text || Regex.search privateKeyBlock text ||
      Regex.search jwtValue normalized.text then .secret
  else if (secretLexicon.search U normalized true).isSome then .secret
  else if hasKeyPrefix U normalized then .secret
  else if Regex.search (emailValue U) normalized.text ||
      Regex.search (phoneValue U) normalized.text then .sensitive
  else if (sensitiveLexicon.search U normalized true).isSome then .sensitive
  else .normal

end

example : classifySensitivity basicLatin "Bearer abcdef1234".toList = .secret := by decide +kernel

example : classifySensitivity basicLatin "mail ann@x.io".toList = .sensitive := by decide +kernel

end Memorist
