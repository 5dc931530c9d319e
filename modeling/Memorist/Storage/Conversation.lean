import Mathlib.Data.Char
import Mathlib.Data.List.Lex
import Mathlib.Data.Prod.Lex
import Memorist.Library.KeySort
import Memorist.Library.Table
import Memorist.Storage.Sql

/-!
The rows of a conversation: sessions and their actors, messages, their versions and their text
units.

* `ConversationStore`: the tables, with their primary keys;
* `latestVersion`: the version of a message that the queries rank first.
-/

namespace Memorist

/-- A row of `sessions`. -/
structure SessionRow where
  sessionUuid : String
  workspaceUuid : Option String := none
  projectUuid : Option String := none
  status : String := "active"
  deriving DecidableEq, Repr

/-- A row of `memorist_session_actors`. -/
structure SessionActorRow where
  sessionUuid : String
  userUuid : String
  workspaceUuid : String
  deriving DecidableEq, Repr

/-- A row of `messages`. -/
structure MessageRow where
  messageUuid : String
  sessionUuid : String
  turnIndex : Option ℤ
  role : String
  rawText : Option Text
  rawPayloadIjson : Option String := none
  snapshotIjson : Option String := none
  visibility : String := "visible"
  isDeleted : Bool := false
  redactionStatus : String := "none"
  deriving DecidableEq, Repr

/-- A row of `message_versions`. -/
structure MessageVersionRow where
  messageVersionUuid : String
  messageUuid : String
  versionNumber : ℕ
  rawText : Option Text
  rawPayloadIjson : Option String := none
  snapshotIjson : Option String := none
  deriving DecidableEq, Repr

/-- The kinds of text units. -/
inductive TextUnitType where
  | sentence
  | listItem
  | paragraph
  | codeBlock
  | quote
  | heading
  | fragment
  deriving DecidableEq, Repr

/-- A row of `text_units`, of one message. -/
structure TextUnitRow where
  textUnitUuid : String
  unitIndex : ℕ
  unitType : TextUnitType
  text : Text
  startChar : ℕ
  endChar : ℕ
  deriving DecidableEq, Repr

/-- A row of `text_units`. -/
structure MessageTextUnitRow extends TextUnitRow where
  messageUuid : String
  deriving DecidableEq, Repr

/-- The tables of conversations. -/
structure ConversationStore where
  sessions : Table SessionRow String SessionRow.sessionUuid
  sessionActors : Table SessionActorRow String SessionActorRow.sessionUuid
  messages : Table MessageRow String MessageRow.messageUuid
  messageVersions : Table MessageVersionRow String MessageVersionRow.messageVersionUuid
  textUnits : Table MessageTextUnitRow String fun unit => unit.textUnitUuid

namespace ConversationStore

variable (store : ConversationStore)

/-- The versions of a message. -/
def versionsOf (messageUuid : String) : List MessageVersionRow :=
  store.messageVersions.rows.filter fun version => version.messageUuid = messageUuid

/-- The version of a message with the largest number, of these the one with the largest name. -/
def latestVersion (messageUuid : String) : Option MessageVersionRow :=
  (KeySort.newest
    (fun version : MessageVersionRow =>
      toLex (version.versionNumber, version.messageVersionUuid.toList))
    1 (store.versionsOf messageUuid)).head?

variable {store}

end ConversationStore

end Memorist
