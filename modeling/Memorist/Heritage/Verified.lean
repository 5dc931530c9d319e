import Memorist.Heritage.Package

/-!
What a verified package restores.

* `Accepted`: a package is verified as valid;
* `Signed`: a file is listed with the digest of its content;
* `RestoresSigned`: all files of tables are signed and counted, and a restore inserts their rows;
* `SignsAll`: the list names all files of tables, and the database takes their records;
* `verified_restore_iff`: a verified package restores what was signed exactly when its list names
  all files of tables, its counts are true and the database takes its records.
-/

namespace Memorist

section

variable {β F : Type}

/-! ### What is restored -/

variable (P : FilePlatform β F)

/-- A package is verified as valid. -/
def Accepted (archive : Archive β) : Prop :=
  ∃ issues, verifyHeritage P archive = .ok issues ∧ isValid issues

/-- A file is listed with the digest of its content. -/
def Signed (archive : Archive β) (path : String) : Prop :=
  ∃ expected content, loadChecksums P archive = .ok expected ∧
    archive.read (packagePath path) = .ok content ∧
    expected.get? path = some (P.sha256 content)

/-- The number of records of a table that a manifest gives. -/
def manifestCount (manifest : Json F) (table : String) : Option ℤ :=
  match memberOf manifest "record_counts" with
  | .ok (some (.obj counts)) =>
      match Dict.get? counts table.toList with
      | some (.int n) => some n
      | _ => none
  | _ => none

/-- The manifest counts the records of the files. -/
def CountsRecords (archive : Archive β) : Prop :=
  ∃ manifest, loadManifest P archive = .ok manifest ∧ ∀ file ∈ dataTables, ∃ records,
    loadRecords P archive (packagePath (dataPath file.1)) = .ok records ∧
      manifestCount manifest file.2 = some (records.length : ℤ)

variable [DecidableEq F]

/-- A row of a table comes from a record of a file that is signed. -/
def FromSigned (schema : Schema F) (archive : Archive β) (table : String) (row : Row F) : Prop :=
  ∃ file ∈ dataTables, file.2 = table ∧ Signed P archive (dataPath file.1) ∧ ∃ records,
    loadRecords P archive (packagePath (dataPath file.1)) = .ok records ∧
      ∃ record ∈ records, ∃ fields, recordFields (schema table) record = .ok fields ∧
        row = (schema table).newRow fields

/-- A package restores exactly what was signed: its files of tables are there, signed and counted,
and a restore returns, with rows of signed files only. -/
structure RestoresSigned (schema : Schema F) (archive : Archive β) (db : Database F) : Prop where
  signed : ∀ file ∈ dataTables, Signed P archive (dataPath file.1)
  present : ∀ file ∈ dataTables, packagePath (dataPath file.1) ∈ archive.names
  counted : CountsRecords P archive
  restores : ∃ result db', restoreHeritage P schema archive false db = .ok (result, db') ∧
    result.status = .restored ∧ ∀ table row, row ∈ db' table →
      row ∈ db table ∨ FromSigned P schema archive table row

/-! ### What the database takes -/

/-- The values of a record for the columns of its table. -/
def entryFields (schema : Schema F) (entry : String × Json F) :
    Except String (String × Fields F) := do
  let fields ← recordFields (schema entry.1) entry.2
  pure (entry.1, fields)

/-- The references of every row hold when it is inserted, unless it is passed over for another
constraint. -/
def TakenInOrder (schema : Schema F) : Database F → List (String × Fields F) → Prop
  | _, [] => True
  | db, (table, fields) :: rest =>
      let row := (schema table).newRow fields
      if (schema table).fits (db table) row then
        referencesHold schema (db.add table row) table row ∧
          TakenInOrder schema (db.add table row) rest
      else TakenInOrder schema db rest

/-- The list of digests names all files of tables, the manifest counts their records, and the
records are objects of plain values whose references hold in their order. -/
structure SignsAll (schema : Schema F) (archive : Archive β) (db : Database F) : Prop where
  listed : ∀ expected, loadChecksums P archive = .ok expected →
    ∀ file ∈ dataTables, dataPath file.1 ∈ expected.map Prod.fst
  counted : CountsRecords P archive
  taken : ∀ rows, loadTables P archive = .ok rows →
    ∃ entries, (recordEntries rows).mapM (entryFields schema) = .ok entries ∧
      TakenInOrder schema db (entries.filter fun entry => entry.2 ≠ [])

end

section

variable {β F : Type} {P : FilePlatform β F} {archive : Archive β}

/-! ### What a verified package has -/

/-- Every issue of a file is an error. -/
lemma severity_checksumIssues {entry : String × String} {issues : List HeritageIssue}
    (h : checksumIssues P archive entry = .ok issues) :
    ∀ issue ∈ issues, issue.severity = "error" := by
  unfold checksumIssues at h
  split_ifs at h
  · obtain ⟨content, -, hissues⟩ := Checks.bind_eq_ok.mp h
    obtain rfl := Checks.pure_eq_ok.mp hissues
    split_ifs <;> simp
  · obtain rfl := Except.ok.inj h
    simp

/-- A listed file without issues is there, with its digest. -/
lemma digest_of_checksumIssues {entry : String × String}
    (h : checksumIssues P archive entry = .ok []) :
    packagePath entry.1 ∈ archive.names ∧ ∃ content,
      archive.read (packagePath entry.1) = .ok content ∧ P.sha256 content = entry.2 := by
  unfold checksumIssues at h
  split_ifs at h with hname
  · obtain ⟨content, hread, hissues⟩ := Checks.bind_eq_ok.mp h
    refine ⟨hname, content, hread, ?_⟩
    by_contra hne
    have hissues := Checks.pure_eq_ok.mp hissues
    rw [if_pos hne] at hissues
    exact absurd hissues (by simp)
  · exact absurd (Except.ok.inj h) (by simp)

/-- What is known of a verified package. -/
structure VerifiedFacts (P : FilePlatform β F) (archive : Archive β) (manifest : Json F)
    (expected : Dict String String) : Prop where
  manifest_eq : loadManifest P archive = .ok manifest
  expected_eq : loadChecksums P archive = .ok expected
  digests : ∀ entry ∈ expected, packagePath entry.1 ∈ archive.names ∧ ∃ content,
    archive.read (packagePath entry.1) = .ok content ∧ P.sha256 content = entry.2
  records : ∀ name ∈ archive.names, ".ijsonl".toList.isSuffixOf name.toList →
    ∃ records, loadRecords P archive name = .ok records

lemma Accepted.facts (h : Accepted P archive) :
    ∃ manifest expected, VerifiedFacts P archive manifest expected := by
  obtain ⟨issues, hverify, hvalid⟩ := h
  unfold verifyHeritage at hverify
  obtain ⟨-, -, hverify⟩ := Checks.bind_eq_ok.mp hverify
  by_cases hmanifest : packagePath "manifest.ijson" ∉ archive.names
  · rw [if_pos hmanifest] at hverify
    obtain rfl := Checks.pure_eq_ok.mp hverify
    exact absurd hvalid (by simp [isValid])
  rw [if_neg hmanifest] at hverify
  obtain ⟨manifest, hload, hverify⟩ := Checks.bind_eq_ok.mp hverify
  obtain ⟨format, -, hverify⟩ := Checks.bind_eq_ok.mp hverify
  obtain ⟨expected, hexpected, hverify⟩ := Checks.bind_eq_ok.mp hverify
  obtain ⟨found, hfound, hverify⟩ := Checks.bind_eq_ok.mp hverify
  obtain ⟨_, hrecords, hverify⟩ := Checks.bind_eq_ok.mp hverify
  obtain rfl := Checks.pure_eq_ok.mp hverify
  refine ⟨manifest, expected, hload, hexpected, fun entry hentry => ?_, fun name hname hsuffix => ?_⟩
  · -- no listed file has an issue, since each issue would be an error
    have hall := Checks.mapM_eq_ok.mp hfound
    obtain ⟨issues, hmem, hissues⟩ := Checks.exists_of_mem_left hall hentry
    have hnil : issues = [] := by
      refine List.eq_nil_iff_forall_not_mem.mpr fun issue hissue => ?_
      have herror := severity_checksumIssues hissues issue hissue
      have hvalid' : ∀ i ∈ found.flatten, ¬ i.severity = "error" := by
        intro i hi
        have := List.any_eq_false.mp (Bool.not_eq_true' _ ▸ hvalid) i (List.mem_append_right _ hi)
        simpa using this
      exact hvalid' issue (List.mem_flatten.mpr ⟨issues, hmem, hissue⟩) herror
    exact digest_of_checksumIssues (hnil ▸ hissues)
  · have hname := Checks.forM_eq_ok.mp hrecords name hname
    rw [validateRecords, if_pos hsuffix] at hname
    obtain ⟨records, hloaded, -⟩ := Checks.bind_eq_ok.mp hname
    exact ⟨records, hloaded⟩

end

section

variable {β F : Type} [DecidableEq F] {P : FilePlatform β F} {archive : Archive β}
variable {schema : Schema F} {db db' : Database F}

/-! ### Insertions -/

/-- Rows are inserted exactly when their references hold in their order. -/
lemma insertAll_ok_iff {rows : List (String × Fields F)} :
    (∃ db', insertAll schema db rows = .ok db') ↔ TakenInOrder schema db rows := by
  induction rows generalizing db with
  | nil => exact ⟨fun _ => trivial, fun _ => ⟨db, rfl⟩⟩
  | cons entry rest ih =>
      obtain ⟨table, fields⟩ := entry
      rw [insertAll_cons, TakenInOrder, insertOrIgnore]
      split_ifs with hfits hholds
      · rw [Checks.ok_bind, ih]
        exact ⟨fun h => ⟨hholds, h⟩, fun h => h.2⟩
      · refine ⟨?_, fun h => absurd h.1 hholds⟩
        rintro ⟨_, h⟩
        cases h
      · rw [Checks.ok_bind, ih]

/-- Records are inserted when they are objects of plain values and the rows are. -/
lemma insertRecords_eq_ok {entries : List (String × Json F)} :
    entries.foldlM (insertRecord schema) db = .ok db' ↔
      ∃ fields, entries.mapM (entryFields schema) = .ok fields ∧
        insertAll schema db (fields.filter fun entry => entry.2 ≠ []) = .ok db' := by
  induction entries generalizing db with
  | nil => simp [insertAll, pure, Except.pure]
  | cons entry entries ih =>
      rw [List.foldlM_cons, Checks.bind_eq_ok, List.mapM_cons]
      simp only [insertRecord, entryFields, Checks.bind_eq_ok, Checks.pure_eq_ok]
      constructor
      · rintro ⟨mid, ⟨fields, hfields, hinsert⟩, hrest⟩
        obtain ⟨more, hmore, hall⟩ := ih.mp hrest
        refine ⟨(entry.1, fields) :: more, ⟨_, ⟨fields, hfields, rfl⟩, more, hmore, rfl⟩, ?_⟩
        by_cases hnil : fields = []
        · rw [if_pos hnil] at hinsert
          rw [List.filter_cons_of_neg (by simpa using hnil), Checks.pure_eq_ok.mp hinsert]
          exact hall
        · rw [if_neg hnil] at hinsert
          rw [List.filter_cons_of_pos (by simpa using hnil), insertAll_cons, hinsert]
          exact hall
      · rintro ⟨_, ⟨_, ⟨fields, hfields, rfl⟩, more, hmore, rfl⟩, hall⟩
        by_cases hnil : fields = []
        · rw [List.filter_cons_of_neg (by simpa using hnil)] at hall
          exact ⟨db, ⟨fields, hfields, by rw [if_pos hnil]; rfl⟩, ih.mpr ⟨more, hmore, hall⟩⟩
        · rw [List.filter_cons_of_pos (by simpa using hnil), insertAll_cons,
            Checks.bind_eq_ok] at hall
          obtain ⟨mid, hmid, hall⟩ := hall
          exact ⟨mid, ⟨fields, hfields, by rw [if_neg hnil]; exact hmid⟩,
            ih.mpr ⟨more, hmore, hall⟩⟩

end

section

variable {β F : Type} {P : FilePlatform β F} {archive : Archive β}

/-! ### What a verified package restores -/

/-- What a path ends with. -/
lemma suffix_path (a b stem ending : String) :
    ending.toList <:+ (a ++ (b ++ (stem ++ ending))).toList := by
  rw [String.toList_append, String.toList_append, String.toList_append]
  exact (List.suffix_append _ _).trans
    ((List.suffix_append _ _).trans (List.suffix_append _ _))

/-- The files of tables hold lines. -/
lemma isSuffixOf_dataTables : ∀ file ∈ dataTables,
    ".ijsonl".toList.isSuffixOf (packagePath (dataPath file.1)).toList := by
  intro file hfile
  obtain ⟨entry, -, rfl⟩ := List.mem_map.mp hfile
  exact List.isSuffixOf_iff_suffix.mpr (suffix_path _ _ entry.1 _)

/-- A listed file of a verified package is signed. -/
lemma VerifiedFacts.signed {manifest : Json F} {expected : Dict String String}
    (h : VerifiedFacts P archive manifest expected) {path : String}
    (hlisted : path ∈ expected.map Prod.fst) :
    packagePath path ∈ archive.names ∧ Signed P archive path := by
  obtain ⟨digest, hdigest⟩ : ∃ digest, expected.get? path = some digest := by
    exact Option.ne_none_iff_exists'.mp (Dict.get?_ne_none hlisted)
  obtain ⟨hname, content, hread, hsha⟩ := h.digests _ (Dict.mem_of_get? hdigest)
  exact ⟨hname, expected, content, h.expected_eq, hread, hdigest.trans (congrArg some hsha.symm)⟩

/-- The tables of a verified package load when their files are listed. -/
lemma VerifiedFacts.exists_loadTables {manifest : Json F} {expected : Dict String String}
    (h : VerifiedFacts P archive manifest expected)
    (hlisted : ∀ file ∈ dataTables, dataPath file.1 ∈ expected.map Prod.fst) :
    ∃ rows, loadTables P archive = .ok rows := by
  have hload : ∀ file ∈ dataTables, ∃ row, loadTable P archive file = .ok row := by
    intro file hfile
    obtain ⟨records, hrecords⟩ := h.records _ (h.signed (hlisted file hfile)).1
      (isSuffixOf_dataTables file hfile)
    exact ⟨(file.2, records), by rw [loadTable, hrecords]; rfl⟩
  obtain ⟨rows, hrows⟩ := Checks.exists_forall₂ hload
  exact ⟨rows, Checks.mapM_eq_ok.mpr hrows⟩

/-- A record of a table that loads comes from a record of its file. -/
lemma exists_file_of_mem {rows : List (String × List (Json F))}
    (hrows : loadTables P archive = .ok rows) {entry : String × Json F}
    (hentry : entry ∈ recordEntries rows) : ∃ file ∈ dataTables, file.2 = entry.1 ∧ ∃ records,
      loadRecords P archive (packagePath (dataPath file.1)) = .ok records ∧ entry.2 ∈ records := by
  obtain ⟨row, hrow, hmem⟩ := List.mem_flatMap.mp hentry
  obtain ⟨record, hrecord, rfl⟩ := List.mem_map.mp hmem
  obtain ⟨file, hfile, hload⟩ := Checks.exists_of_mem_right (Checks.mapM_eq_ok.mp hrows) hrow
  obtain ⟨records, hrecords, heq⟩ := Checks.bind_eq_ok.mp hload
  obtain rfl := Checks.pure_eq_ok.mp heq
  exact ⟨file, hfile, rfl, records, hrecords, hrecord⟩

end

section

variable {β F : Type} [DecidableEq F] {P : FilePlatform β F} {archive : Archive β}
variable {schema : Schema F} {db db' : Database F}

/-- A restore of a verified package inserts the records of its tables. -/
lemma restoreHeritage_eq_ok (haccepted : Accepted P archive) {result : RestoreResult}
    (hrestore : restoreHeritage P schema archive false db = .ok (result, db')) :
    ∃ rows, loadTables P archive = .ok rows ∧
      (recordEntries rows).foldlM (insertRecord schema) db = .ok db' := by
  obtain ⟨issues, hverify, hvalid⟩ := haccepted
  unfold restoreHeritage loadHeritageRows at hrestore
  rw [hverify, Checks.ok_bind, if_pos hvalid] at hrestore
  obtain ⟨⟨issues', rows⟩, hload, hrestore⟩ := Checks.bind_eq_ok.mp hrestore
  obtain ⟨rows', hrows, heq⟩ := Checks.bind_eq_ok.mp hload
  obtain ⟨rfl, rfl⟩ := Prod.mk.inj (Checks.pure_eq_ok.mp heq)
  simp only [hvalid, Bool.not_true, Bool.false_eq_true, if_false] at hrestore
  obtain ⟨restored, hinsert, heq⟩ := Checks.bind_eq_ok.mp hrestore
  obtain ⟨-, rfl⟩ := Prod.mk.inj (Checks.pure_eq_ok.mp heq)
  exact ⟨rows', hrows, hinsert⟩

/-- A verified package is restored when its tables load and the database takes their records. -/
lemma exists_restoreHeritage (haccepted : Accepted P archive)
    {rows : List (String × List (Json F))} (hrows : loadTables P archive = .ok rows)
    (hinsert : (recordEntries rows).foldlM (insertRecord schema) db = .ok db') :
    ∃ result, restoreHeritage P schema archive false db = .ok (result, db') ∧
      result.status = .restored := by
  obtain ⟨issues, hverify, hvalid⟩ := haccepted
  refine ⟨⟨.restored, rows.map fun row => (row.1, row.2.length), issues⟩, ?_, rfl⟩
  unfold restoreHeritage loadHeritageRows
  rw [hverify, Checks.ok_bind, if_pos hvalid, hrows]
  simp only [Checks.ok_bind, pure, Except.pure, hvalid, Bool.not_true, Bool.false_eq_true, if_false,
    hinsert]

/-- A verified package restores what was signed exactly when its list of digests names all files of
tables, its manifest counts their records, and the database takes them. -/
theorem verified_restore_iff :
    (Accepted P archive → RestoresSigned P schema archive db) ↔
      (Accepted P archive → SignsAll P schema archive db) := by
  refine forall_congr' fun haccepted => ?_
  obtain ⟨manifest, expected, hfacts⟩ := haccepted.facts
  constructor
  · intro h
    refine ⟨fun expected' hexpected file hfile => ?_, h.counted, fun rows hrows => ?_⟩
    · -- a signed file is listed
      obtain ⟨expected'', content, hload, -, hget⟩ := h.signed file hfile
      obtain rfl := Except.ok.inj (hexpected.symm.trans hload)
      exact List.mem_map_of_mem (Dict.mem_of_get? hget)
    · -- a restore that returns has inserted the records
      obtain ⟨result, db', hrestore, -, -⟩ := h.restores
      obtain ⟨rows', hrows', hinsert⟩ := restoreHeritage_eq_ok haccepted hrestore
      obtain rfl := Except.ok.inj (hrows.symm.trans hrows')
      obtain ⟨entries, hentries, hall⟩ := insertRecords_eq_ok.mp hinsert
      exact ⟨entries, hentries, insertAll_ok_iff.mp ⟨db', hall⟩⟩
  · intro h
    have hlisted := h.listed expected hfacts.expected_eq
    obtain ⟨rows, hrows⟩ := hfacts.exists_loadTables hlisted
    obtain ⟨entries, hentries, htaken⟩ := h.taken rows hrows
    obtain ⟨db', hall⟩ := insertAll_ok_iff.mpr htaken
    have hinsert := insertRecords_eq_ok.mpr ⟨entries, hentries, hall⟩
    obtain ⟨result, hrestore, hstatus⟩ := exists_restoreHeritage haccepted hrows hinsert
    refine ⟨fun file hfile => (hfacts.signed (hlisted file hfile)).2,
      fun file hfile => (hfacts.signed (hlisted file hfile)).1, h.counted,
      result, db', hrestore, hstatus, fun table row hrow => ?_⟩
    -- a row that is new comes from a record of a file, which is signed
    refine (mem_of_insertAll hall hrow).imp_right ?_
    rintro ⟨fields, hfields, rfl⟩
    obtain ⟨entry, hentry, heq⟩ := Checks.exists_of_mem_right (Checks.mapM_eq_ok.mp hentries)
      (List.mem_of_mem_filter hfields)
    obtain ⟨fields', hrecord, heq⟩ := Checks.bind_eq_ok.mp heq
    obtain ⟨rfl, rfl⟩ := Prod.mk.inj (Checks.pure_eq_ok.mp heq)
    obtain ⟨file, hfile, htable, records, hrecords, hmem⟩ := exists_file_of_mem hrows hentry
    exact ⟨file, hfile, htable, (hfacts.signed (hlisted file hfile)).2, records, hrecords, entry.2,
      hmem, fields', hrecord, rfl⟩

end

/-! ### A package that lists nothing -/

section

variable {β F : Type} (P : FilePlatform β F)

/-- A manifest with its format only. -/
def bareManifest : Text := "\x7b\"format\":\"memorist-heritage\"\x7d".toList

/-- A package with a manifest and an empty list of digests. -/
def barePackage : Archive β :=
  [⟨packagePath "manifest.ijson", some (P.encode bareManifest)⟩,
    ⟨packagePath "checksums.sha256", some (P.encode [])⟩]

lemma loadIjson_bareManifest {U : UnicodeData} {N : Floats F} : loadIjson U N bareManifest =
    .ok (.obj [("format".toList, .str "memorist-heritage".toList)]) := by
  have hwell : Json.WellFormed N (.obj [("format".toList, .str "memorist-heritage".toList)]) := by
    refine .obj (by simp [Json.distinctNames]) fun m hm => ?_
    obtain rfl := List.mem_singleton.mp hm
    exact .str _
  have hdump : dumpJson U N (.obj [("format".toList, .str "memorist-heritage".toList)]) =
      .ok bareManifest := by
    refine dumpJson_eq_ok.mpr ⟨validJson_obj.mpr fun m hm => ?_, by rfl⟩
    obtain rfl := List.mem_singleton.mp hm
    exact ⟨fun _ => rfl, by rfl⟩
  exact loadIjson_dumpJson hwell hdump

lemma packagePath_injective : Function.Injective packagePath := by
  intro a b heq
  have hlist : ("memorist-heritage/" ++ a).toList = ("memorist-heritage/" ++ b).toList :=
    congrArg String.toList heq
  rw [String.toList_append, String.toList_append] at hlist
  exact String.toList_inj.mp (List.append_cancel_left hlist)

/-- The text of a member is read. -/
lemma readText_of_read {archive : Archive β} {name : String} {text : Text}
    (hread : archive.read name = .ok (P.encode text)) : readText P archive name = .ok text := by
  rw [readText, hread, Checks.ok_bind, P.decode_encode]
  rfl

lemma names_barePackage : (barePackage P).names =
    [packagePath "manifest.ijson", packagePath "checksums.sha256"] := rfl

lemma loadChecksums_barePackage : loadChecksums P (barePackage P) = .ok [] := by
  have hread : (barePackage P).read (packagePath "checksums.sha256") = .ok (P.encode []) := by
    rw [Archive.read, barePackage]
    generalize packagePath "checksums.sha256" = name
    simp
  rw [loadChecksums, readText_of_read P hread, Checks.ok_bind]
  rfl

lemma loadManifest_barePackage : loadManifest P (barePackage P) =
    .ok (.obj [("format".toList, .str "memorist-heritage".toList)]) := by
  have hread : (barePackage P).read (packagePath "manifest.ijson") =
      .ok (P.encode bareManifest) := by
    have hne : packagePath "checksums.sha256" ≠ packagePath "manifest.ijson" :=
      packagePath_injective.ne (by decide)
    rw [Archive.read, barePackage]
    generalize packagePath "manifest.ijson" = name at hne ⊢
    generalize packagePath "checksums.sha256" = other at hne ⊢
    simp [hne]
  rw [loadManifest, readText_of_read P hread, Checks.ok_bind, loadIjson_bareManifest]

/-- A package that lists nothing is accepted. -/
lemma accepted_barePackage : Accepted P (barePackage P) := by
  have hpaths : (barePackage P).names.all (fun name => !unsafePath name) = true := by
    rw [names_barePackage]
    decide +kernel
  have hmanifest : ¬ packagePath "manifest.ijson" ∉ (barePackage P).names :=
    not_not_intro List.mem_cons_self
  have hrecords : (barePackage P).names.forM (validateRecords P (barePackage P)) = .ok () := by
    refine Checks.forM_eq_ok.mpr fun name hname => ?_
    rw [names_barePackage, List.mem_cons, List.mem_singleton] at hname
    rw [validateRecords, if_neg]
    rcases hname with rfl | rfl
    · decide +kernel
    · decide +kernel
  refine ⟨[], ?_, rfl⟩
  unfold verifyHeritage
  refine Checks.check_bind_eq_ok.mpr ⟨Checks.require_eq_ok.mpr hpaths, ?_⟩
  rw [if_neg hmanifest, loadManifest_barePackage, Checks.ok_bind, loadChecksums_barePackage, hrecords]
  rfl

/-- No file of a table is in a package that lists nothing. -/
lemma workspaces_not_mem_barePackage :
    packagePath (dataPath "workspaces.ijsonl") ∉ (barePackage P).names := by
  have hmanifest : packagePath (dataPath "workspaces.ijsonl") ≠ packagePath "manifest.ijson" :=
    packagePath_injective.ne (by decide)
  have hchecksums : packagePath (dataPath "workspaces.ijsonl") ≠ packagePath "checksums.sha256" :=
    packagePath_injective.ne (by decide)
  rw [names_barePackage]
  exact List.not_mem_cons_of_ne_of_not_mem hmanifest
    (List.not_mem_cons_of_ne_of_not_mem hchecksums List.not_mem_nil)

end

/-- Texts as files, with one digest for all. -/
def plainPlatform : FilePlatform Text Unit where
  unicode := basicLatin
  floats := ⟨fun _ => false, fun _ => [], fun _ => (), nofun, nofun⟩
  encode := id
  decode := some
  sha256 := fun _ => "0"
  decode_encode := fun _ => rfl

/-- A package that lists nothing is accepted, and its files of tables are missing. -/
theorem bare_package_restores_nothing :
    ¬ ∀ (archive : Archive Text) (schema : Schema Unit) (db : Database Unit),
      Accepted plainPlatform archive → RestoresSigned plainPlatform schema archive db := by
  intro h
  have hrestores := h (barePackage plainPlatform) (fun _ => {}) (fun _ => [])
    (accepted_barePackage plainPlatform)
  refine workspaces_not_mem_barePackage plainPlatform ?_
  exact hrestores.present (_, "workspaces")
    (List.mem_map.mpr ⟨("workspaces", "workspaces"), List.mem_cons_self, rfl⟩)

end Memorist
