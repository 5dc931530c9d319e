import Memorist.Storage.Schema
import Memorist.Text.Lines
import Memorist.Text.LoadIjson

/-!
Heritage packages (`heritage/package.py`).

* `dataTables`: the files of a package that hold tables;
* `Archive`: the members of a zip file, of which the last one of a name is read;
* `verifyHeritage`: what is wrong with a package;
* `restoreHeritage`: the rows of a package are inserted into a database.
-/

namespace Memorist

open Checks (require)

/-- The names of the files that hold tables, without their ending, and the tables. -/
def dataTableStems : List (String × String) :=
  [("workspaces", "workspaces"),
    ("projects", "projects"),
    ("sessions", "sessions"),
    ("events", "session_events"),
    ("messages", "messages"),
    ("message_versions", "message_versions"),
    ("memory_processing_runs", "memory_processing_runs"),
    ("text_units", "text_units"),
    ("memory_gate_decisions", "memory_gate_decisions"),
    ("jakobson_analysis_runs", "jakobson_analysis_runs"),
    ("jakobson_sentence_annotations", "jakobson_sentence_annotations"),
    ("memory_signal_routes", "memory_signal_routes"),
    ("prompt_execution_runs", "prompt_execution_runs"),
    ("semantic_coverage_runs", "semantic_coverage_runs"),
    ("memory_candidates", "memory_candidates"),
    ("evidence", "candidate_evidence"),
    ("semantic_coverage_items", "semantic_coverage_items"),
    ("semantic_candidate_links", "semantic_candidate_links"),
    ("memories", "memories"),
    ("memory_versions", "memory_versions"),
    ("lineage", "memory_evidence_links"),
    ("blocks", "memory_blocks"),
    ("block_build_runs", "memory_block_build_runs"),
    ("block_versions", "memory_block_versions"),
    ("block_sources", "memory_block_sources"),
    ("attachments", "memory_context_attachments"),
    ("hot_cache", "session_hot_cache"),
    ("imports", "import_runs"),
    ("import_artifacts", "import_artifacts"),
    ("import_records", "import_records"),
    ("source_mappings", "import_mappings"),
    ("import_issues", "import_issues"),
    ("privacy_requests", "privacy_requests"),
    ("privacy_request_items", "privacy_request_items"),
    ("privacy_receipts", "erasure_receipts")]

/-- The files of a package that hold tables, and their tables. -/
def dataTables : List (String × String) :=
  dataTableStems.map fun (stem, table) => (stem ++ ".ijsonl", table)

/-- The contents of files: how texts are encoded and digested. -/
structure FilePlatform (β F : Type) where
  unicode : UnicodeData
  floats : Floats F
  encode : Text → β
  decode : β → Option Text
  sha256 : β → String
  decode_encode : ∀ text, decode (encode text) = some text

/-! ### Archives -/

/-- A member of a zip file; it has no content if it cannot be read. -/
structure ArchiveMember (β : Type) where
  name : String
  content : Option β

/-- The members of a zip file. -/
abbrev Archive (β : Type) : Type := List (ArchiveMember β)

/-- The names of the members. -/
def Archive.names {β : Type} (archive : Archive β) : List String :=
  archive.map ArchiveMember.name

/-- The content of the last member of a name. -/
def Archive.read {β : Type} (archive : Archive β) (name : String) : Except String β :=
  match archive.reverse.find? fun member => member.name = name with
  | none => .error "There is no item of this name in the archive"
  | some member =>
      match member.content with
      | none => .error "Bad zip file"
      | some content => .ok content

/-- The name of a file in a package. -/
def packagePath (relativePath : String) : String := "memorist-heritage/" ++ relativePath

/-- The path of the file of a table. -/
def dataPath (filename : String) : String := "data/" ++ filename

/-- Whether a name leads out of the package. -/
def unsafePath (name : String) : Bool :=
  name.toList.head? = some '/' || (name.toList.splitOnP (· = '/')).contains ['.', '.']

section

variable {β F : Type} (P : FilePlatform β F)

/-- The text of a member. -/
def readText (archive : Archive β) (name : String) : Except String Text := do
  let content ← archive.read name
  match P.decode content with
  | none => .error "invalid utf-8"
  | some text => pure text

/-! ### Verification -/

/-- The text before the first two blanks, and the text after them. -/
def splitBlanks : Text → Option (Text × Text)
  | [] => none
  | c :: rest =>
      if c = ' ' ∧ rest.head? = some ' ' then some ([], rest.tail)
      else (splitBlanks rest).map fun (before, after) => (c :: before, after)

/-- The path and the digest of a line. -/
def parseChecksumLine (line : Text) : Except String (String × String) :=
  match splitBlanks line with
  | none => .error "not enough values to unpack (expected 2, got 1)"
  | some (digest, relativePath) => .ok (String.ofList relativePath, String.ofList digest)

/-- The digests of the files. -/
def parseChecksums (text : Text) : Except String (Dict String String) := do
  let pairs ← (splitLines text).mapM parseChecksumLine
  pure (Dict.ofPairs pairs)

/-- What is wrong with a package. -/
structure HeritageIssue where
  severity : String := "error"
  issueCode : String
  path : Option String := none
  deriving DecidableEq, Repr

/-- A verification is passed without an error. -/
def isValid (issues : List HeritageIssue) : Bool := !issues.any fun issue => issue.severity = "error"

/-- What is wrong with a file and its digest. -/
def checksumIssues (archive : Archive β) (entry : String × String) :
    Except String (List HeritageIssue) :=
  if packagePath entry.1 ∉ archive.names then
    .ok [{ issueCode := "missing_payload", path := some entry.1 }]
  else do
    let content ← archive.read (packagePath entry.1)
    pure (if P.sha256 content ≠ entry.2 then
      [{ issueCode := "checksum_mismatch", path := some entry.1 }] else [])

/-- The lines of a text that are not blank. -/
def nonblankLines (text : Text) : List Text :=
  (splitLines text).filter fun line => P.unicode.strip line ≠ []

/-- The records of a file. -/
def loadRecords (archive : Archive β) (name : String) : Except String (List (Json F)) := do
  let text ← readText P archive name
  (nonblankLines P text).mapM (loadIjson P.unicode P.floats)

/-- Check the records of a file, if it has records. -/
def validateRecords (archive : Archive β) (name : String) : Except String Unit :=
  if ".ijsonl".toList.isSuffixOf name.toList then do
    let _ ← loadRecords P archive name
    pure ()
  else .ok ()

/-- The member of an object. -/
def memberOf (value : Json F) (key : String) : Except String (Option (Json F)) :=
  match value with
  | .obj members => .ok (Dict.get? members key.toList)
  | _ => .error "the value is no object"

/-- Whether a value is a text. -/
def equalsText (text : String) : Option (Json F) → Bool
  | some (.str s) => s = text.toList
  | _ => false

/-- The manifest of a package. -/
def loadManifest (archive : Archive β) : Except String (Json F) := do
  let text ← readText P archive (packagePath "manifest.ijson")
  loadIjson P.unicode P.floats text

/-- The digests that a package lists. -/
def loadChecksums (archive : Archive β) : Except String (Dict String String) := do
  let text ← readText P archive (packagePath "checksums.sha256")
  parseChecksums text

/-- Verify a package: the listed files against their digests, and the records of all files. -/
def verifyHeritage (archive : Archive β) : Except String (List HeritageIssue) := do
  require (archive.names.all fun name => !unsafePath name) "unsafe heritage package path"
  if packagePath "manifest.ijson" ∉ archive.names then
    pure [{ issueCode := "missing_manifest" }]
  else do
    let manifest ← loadManifest P archive
    let format ← memberOf manifest "format"
    let expected ← loadChecksums P archive
    let issues ← expected.mapM (checksumIssues P archive)
    archive.names.forM (validateRecords P archive)
    pure ((if equalsText "memorist-heritage" format then []
      else [{ issueCode := "unsupported_format" }]) ++ issues.flatten)

/-! ### Restoring -/

/-- What a restore did. -/
inductive RestoreStatus where
  | invalid
  | dryRun
  | restored
  deriving DecidableEq, Repr

/-- The result of a restore. -/
structure RestoreResult where
  status : RestoreStatus
  recordCounts : Dict String ℕ := []
  verification : List HeritageIssue

/-- The records of the file of a table. -/
def loadTable (archive : Archive β) (file : String × String) :
    Except String (String × List (Json F)) := do
  let records ← loadRecords P archive (packagePath (dataPath file.1))
  pure (file.2, records)

/-- The records of the tables. -/
def loadTables (archive : Archive β) : Except String (List (String × List (Json F))) :=
  dataTables.mapM (loadTable P archive)

/-- The records of the tables, if the package is valid. -/
def loadHeritageRows (archive : Archive β) :
    Except String (List HeritageIssue × List (String × List (Json F))) := do
  let issues ← verifyHeritage P archive
  if isValid issues then
    let rows ← loadTables P archive
    pure (issues, rows)
  else pure (issues, [])

/-- A value as a parameter of a statement. -/
def sqlParameter : Json F → Except String (SqlValue F)
  | .null => .ok .null
  | .bool b => .ok (.integer (if b then 1 else 0))
  | .int i => .ok (.integer i)
  | .float x => .ok (.real x)
  | .str s => .ok (.text s)
  | .arr _ | .obj _ => .error "Error binding parameter: type is not supported"

/-- The value of a member for its column. -/
def memberField (member : Text × Json F) : Except String (Text × SqlValue F) := do
  let value ← sqlParameter member.2
  pure (member.1, value)

/-- The values of a record for the columns of a table. -/
def recordFields (table : TableSchema F) : Json F → Except String (Fields F)
  | .obj members => (members.filter fun m => m.1 ∈ table.columns.map Column.name).mapM memberField
  | _ => .error "the record is no object"

variable [DecidableEq F]

/-- Insert a record, unless it has nothing for the columns of its table. -/
def insertRecord (schema : Schema F) (db : Database F) (entry : String × Json F) :
    Except String (Database F) := do
  let fields ← recordFields (schema entry.1) entry.2
  if fields = [] then pure db else insertOrIgnore schema db entry.1 fields

/-- The records of the tables, each with its table. -/
def recordEntries (rows : List (String × List (Json F))) : List (String × Json F) :=
  rows.flatMap fun (table, records) => records.map fun record => (table, record)

/-- Restore a package into a database. Nothing is committed when a statement raises. -/
def restoreHeritage (schema : Schema F) (archive : Archive β) (dryRun : Bool) (db : Database F) :
    Except String (RestoreResult × Database F) := do
  let (issues, rows) ← loadHeritageRows P archive
  let counts := rows.map fun (table, records) => (table, records.length)
  if !isValid issues then pure ({ status := .invalid, verification := issues }, db)
  else if dryRun then
    pure ({ status := .dryRun, recordCounts := counts, verification := issues }, db)
  else
    let restored ← (recordEntries rows).foldlM (insertRecord schema) db
    pure ({ status := .restored, recordCounts := counts, verification := issues }, restored)

end

end Memorist
