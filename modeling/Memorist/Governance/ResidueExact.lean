import Memorist.Governance.ImportResidue

/-!
When the imported copies of a memory are erased exactly.

* `like_of_infix`: a text that JSON writes as it is is found where it stands;
* `foldl_redactRecord`: what the statements of all fragments do to a row;
* `erasesExactly_iff`: the versions and tables of which the erasure is exact.
-/

namespace Memorist.ImportResidue

open Json (OccursIn WellFormed strings)

variable {F : Type}

/-! ### Patterns -/

lemma like_percent (pattern text : Text) (skipped : Text) (h : like pattern text) :
    like ('%' :: pattern) (skipped ++ text) := by
  rw [like, List.any_eq_true]
  exact ⟨text, (List.mem_tails _ _).mpr (List.suffix_append skipped text), h⟩

/-- A pattern finds the text that it is. -/
lemma like_append_self (fragment : Text) {pattern text : Text} (h : like pattern text) :
    like (fragment ++ pattern) (fragment ++ text) := by
  induction fragment with
  | nil => exact h
  | cons c fragment ih =>
      by_cases hpercent : c = '%'
      · rw [hpercent]
        exact like_percent _ (fragment ++ text) ['%'] ih
      · by_cases hunderscore : c = '_'
        · rw [hunderscore]
          exact ih
        · rw [List.cons_append, List.cons_append, like]
          · rw [ih, Bool.and_true, beq_self_eq_true]
          · exact hpercent
          · exact hunderscore

/-- A fragment finds a text that it is a part of. -/
lemma like_of_infix {fragment text : Text} (h : fragment <:+: text) :
    like (likeFragment fragment) text := by
  obtain ⟨before, after, rfl⟩ := h
  have hend : like ['%'] after := by
    have := like_percent [] [] after rfl
    rwa [List.append_nil] at this
  rw [likeFragment, List.append_assoc]
  exact like_percent _ _ before (like_append_self fragment hend)

lemma isInfix_strip (U : UnicodeData) (text : Text) : U.strip text <:+: text := by
  have hleft : ∀ t : Text, U.lstrip t <:+ t := fun t => List.dropWhile_suffix _
  have hright : (U.lstrip (U.lstrip text).reverse).reverse <+: U.lstrip text := by
    have := List.reverse_prefix.mpr (hleft (U.lstrip text).reverse)
    rwa [List.reverse_reverse] at this
  exact hright.isInfix.trans (hleft text).isInfix

/-! ### JSON texts -/

/-- The value of a column is the one it was written of, its members in order. -/
lemma columnStrings_eq {N : Floats F} {column : IjsonColumn N} {value : Json F}
    (hvalue : WellFormed N value) (htext : column.1 = (sortKeys value).print N) :
    columnStrings column = strings (sortKeys value) := by
  rw [columnStrings, htext, Json.read_print (wellFormed_sortKeys hvalue)]

lemma flatMap_escapeChar {text : Text} (h : Unescaped text) : text.flatMap IJson.escapeChar = text := by
  induction text with
  | nil => rfl
  | cons c text ih =>
      rw [List.flatMap_cons, h c List.mem_cons_self, ih fun d hd => h d (List.mem_cons_of_mem _ hd)]
      rfl

/-- A fragment that is written as it is, is found where a string has it. -/
lemma columnLike_of_unescaped {N : Floats F} {column : IjsonColumn N} {fragment s : Text}
    (hs : s ∈ columnStrings column) (hfragment : fragment <:+: s) (h : Unescaped fragment) :
    columnLike fragment (some column) := by
  obtain ⟨value, hvalue, htext⟩ := column.2
  rw [columnStrings_eq hvalue htext] at hs
  have hprint := Json.printString_infix N _ hs
  have hescaped : fragment <:+: IJson.printString s := by
    obtain ⟨before, after, rfl⟩ := hfragment
    rw [IJson.printString, List.flatMap_append, List.flatMap_append, flatMap_escapeChar h]
    exact ⟨'"' :: before.flatMap IJson.escapeChar, after.flatMap IJson.escapeChar ++ ['"'], by simp⟩
  rw [columnLike, htext]
  exact like_of_infix (hescaped.trans hprint)

/-! ### Fragments -/

lemma mem_dedupeSensitiveFragments (U : UnicodeData) {fragment : Text} (texts seen : List Text) :
    fragment ∈ dedupeSensitiveFragments U seen texts ↔
      fragment ∉ seen ∧ 8 ≤ fragment.length ∧ ∃ text ∈ texts, U.strip text = fragment := by
  induction texts generalizing seen with
  | nil => simp [dedupeSensitiveFragments]
  | cons text texts ih =>
      simp only [dedupeSensitiveFragments]
      split_ifs with hskip
      · rw [ih]
        refine and_congr_right fun hseen => and_congr_right fun hlength => ?_
        rw [List.exists_mem_cons_iff]
        refine ⟨.inr, fun h => h.resolve_left ?_⟩
        rintro rfl
        rcases hskip with hshort | hmem
        · omega
        · exact hseen hmem
      · push Not at hskip
        rw [List.mem_cons, ih, List.exists_mem_cons_iff, List.mem_cons, not_or]
        constructor
        · rintro (rfl | ⟨⟨-, hseen⟩, hlength, htext⟩)
          · exact ⟨hskip.2, hskip.1, .inl rfl⟩
          · exact ⟨hseen, hlength, .inr htext⟩
        · rintro ⟨hseen, hlength, htext⟩
          by_cases heq : fragment = U.strip text
          · exact .inl heq
          · exact .inr ⟨⟨heq, hseen⟩, hlength, htext.resolve_left fun h => heq h.symm⟩

section

variable {N : Floats F} {U : UnicodeData} {version : MemoryVersion N}

lemma columnStrings_of_nil {column : IjsonColumn N} (h : column.1 = []) : columnStrings column = [] := by
  rw [columnStrings, h]
  rfl

lemma mem_columnFragments {column : Option (IjsonColumn N)} {text : Text} (hne : text ≠ []) :
    text ∈ columnFragments column ↔
      ∃ c, column = some c ∧ (text = c.1 ∨ text ∈ columnStrings c) := by
  cases column with
  | none => simp [columnFragments]
  | some c =>
      rw [columnFragments]
      split_ifs with hnil
      · refine iff_of_false List.not_mem_nil ?_
        rintro ⟨c', heq, htext⟩
        obtain rfl := Option.some.inj heq
        rw [hnil, columnStrings_of_nil hnil] at htext
        exact htext.elim hne List.not_mem_nil
      · simp

/-- The fragments are the patterns. -/
lemma mem_sensitiveFragments {pattern : Text} :
    pattern ∈ sensitiveFragments U version ↔ IsPattern U version pattern := by
  have hstrip : U.strip [] = [] := rfl
  rw [sensitiveFragments, mem_dedupeSensitiveFragments, IsPattern]
  simp only [List.not_mem_nil, not_false_eq_true, true_and]
  refine and_congr_right fun hlength => exists_congr fun text => ?_
  rw [and_comm]
  refine and_congr_right fun htext => ?_
  have hne : text ≠ [] := by
    rintro rfl
    rw [hstrip] at htext
    rw [← htext] at hlength
    exact absurd hlength (by decide)
  rw [List.mem_cons, List.mem_append, mem_columnFragments hne, mem_columnFragments hne]
  refine or_congr_right ?_
  constructor
  · rintro (⟨c, hc, h⟩ | ⟨c, hc, h⟩)
    · exact ⟨c, .inl hc, h⟩
    · exact ⟨c, .inr hc, h⟩
  · rintro ⟨c, hc | hc, h⟩
    · exact .inl ⟨c, hc, h⟩
    · exact .inr ⟨c, hc, h⟩

/-! ### Rows -/

/-- The statements of a fragment on a record. -/
def redactRecord (requestUuid fragment : Text) (record : ImportRecord N) : ImportRecord N :=
  redactNormalized requestUuid fragment (redactRaw requestUuid fragment record)

/-- The statements of all fragments on a record. -/
def redactedRecord (requestUuid : Text) (fragments : List Text) (record : ImportRecord N) :
    ImportRecord N :=
  { record with
    rawPayloadIjson := if fragments.any (columnLike · record.rawPayloadIjson) then
      some (redactedPayload N requestUuid) else record.rawPayloadIjson
    normalizedPayloadIjson := if fragments.any (columnLike · record.normalizedPayloadIjson) then
      some (redactedPayload N requestUuid) else record.normalizedPayloadIjson
    status := if fragments.any (fun f => columnLike f record.rawPayloadIjson ||
      columnLike f record.normalizedPayloadIjson) then "redacted" else record.status }

lemma redactRecord_eq (requestUuid fragment : Text) (record : ImportRecord N) :
    redactRecord requestUuid fragment record = redactedRecord requestUuid [fragment] record := by
  rw [redactRecord, redactRaw, redactedRecord]
  cases hraw : columnLike fragment record.rawPayloadIjson <;>
    cases hnormalized : columnLike fragment record.normalizedPayloadIjson <;>
    simp [redactNormalized, hraw, hnormalized]

/-- A record is redacted by the fragments together as by one after the other. -/
lemma foldl_redactRecord (requestUuid : Text) (fragments : List Text) (record : ImportRecord N) :
    fragments.foldl (fun record fragment => redactRecord requestUuid fragment record) record =
      redactedRecord requestUuid fragments record := by
  induction fragments generalizing record with
  | nil => simp [redactedRecord]
  | cons fragment fragments ih =>
      rw [List.foldl_cons, ih, redactRecord_eq]
      cases hraw : columnLike fragment record.rawPayloadIjson <;>
        cases hnormalized : columnLike fragment record.normalizedPayloadIjson <;>
        simp [redactedRecord, hraw, hnormalized]

section

variable (sha256 : Text → String) (requestUuid : Text)

/-- The statements of some fragments on a mapping. -/
def erasedMapping (fragments : List Text) (mapping : ImportMapping) : ImportMapping :=
  fragments.foldl (fun mapping fragment => eraseMapping sha256 requestUuid fragment mapping) mapping

lemma erasedMapping_kind (fragments : List Text) (mapping : ImportMapping) :
    (erasedMapping sha256 requestUuid fragments mapping).sourcePlatform = mapping.sourcePlatform ∧
      (erasedMapping sha256 requestUuid fragments mapping).sourceObjectType =
        mapping.sourceObjectType := by
  induction fragments generalizing mapping with
  | nil => exact ⟨rfl, rfl⟩
  | cons fragment fragments ih =>
      have hstep : (eraseMapping sha256 requestUuid fragment mapping).sourcePlatform =
          mapping.sourcePlatform ∧
          (eraseMapping sha256 requestUuid fragment mapping).sourceObjectType =
            mapping.sourceObjectType := by
        rw [eraseMapping]
        split_ifs <;> exact ⟨rfl, rfl⟩
      rw [erasedMapping, List.foldl_cons]
      exact ⟨(ih _).1.trans hstep.1, (ih _).2.trans hstep.2⟩

/-- An erased mapping stays so. -/
lemma erasedMapping_of_erased (fragments : List Text) {mapping : ImportMapping}
    (h : mapping.sourceObjectId = some "[erased]".toList) :
    (erasedMapping sha256 requestUuid fragments mapping).sourceObjectId = some "[erased]".toList := by
  induction fragments generalizing mapping with
  | nil => exact h
  | cons fragment fragments ih =>
      rw [erasedMapping, List.foldl_cons]
      refine ih ?_
      rw [eraseMapping]
      split_ifs
      · rfl
      · exact h

/-- A mapping that no fragment finds stays as it is. -/
lemma erasedMapping_of_not_found {fragments : List Text} {mapping : ImportMapping}
    (h : ∀ fragment ∈ fragments, ¬mappingLike fragment mapping) :
    erasedMapping sha256 requestUuid fragments mapping = mapping := by
  induction fragments with
  | nil => rfl
  | cons fragment fragments ih =>
      rw [erasedMapping, List.foldl_cons, eraseMapping, if_neg (h fragment List.mem_cons_self)]
      exact ih fun f hf => h f (List.mem_cons_of_mem _ hf)

/-- A mapping that a fragment finds is erased. -/
lemma erasedMapping_of_found {fragments : List Text} {mapping : ImportMapping} {fragment : Text}
    (hfragment : fragment ∈ fragments) (h : mappingLike fragment mapping) :
    (erasedMapping sha256 requestUuid fragments mapping).sourceObjectId = some "[erased]".toList := by
  induction fragments with
  | nil => cases hfragment
  | cons first fragments ih =>
      rw [erasedMapping, List.foldl_cons]
      by_cases hfirst : mappingLike first mapping
      · refine erasedMapping_of_erased sha256 requestUuid fragments ?_
        rw [eraseMapping, if_pos hfirst]
      · rw [eraseMapping, if_neg hfirst]
        refine ih ((List.mem_cons.mp hfragment).resolve_left ?_)
        rintro rfl
        exact hfirst h

/-- What a mapping is found by in the end. -/
lemma sourceText_erasedMapping {fragments : List Text} {mapping : ImportMapping} :
    (erasedMapping sha256 requestUuid fragments mapping).sourceText =
      if ∃ fragment ∈ fragments, mappingLike fragment mapping then "[erased]".toList
      else mapping.sourceText := by
  split_ifs with hfound
  · obtain ⟨fragment, hfragment, h⟩ := hfound
    rw [ImportMapping.sourceText, erasedMapping_of_found sha256 requestUuid hfragment h]
    rfl
  · push Not at hfound
    rw [erasedMapping_of_not_found sha256 requestUuid hfound]

/-! ### Runs -/

/-- What the statements of the fragments leave, where they pass. -/
lemma eq_of_eraseImportResidue {fragments : List Text} {tables after : Tables N} {counts counts' : Counts}
    (h : fragments.foldlM (eraseFragment sha256 requestUuid) (tables, counts) = .ok (after, counts')) :
    after.records = tables.records.map (redactedRecord requestUuid fragments) ∧
      after.mappings = tables.mappings.map (erasedMapping sha256 requestUuid fragments) := by
  induction fragments generalizing tables counts with
  | nil =>
      obtain ⟨rfl, rfl⟩ := Prod.mk.inj (Checks.pure_eq_ok.mp h)
      refine ⟨?_, (List.map_id _).symm⟩
      have hid : redactedRecord (N := N) requestUuid [] = id := by
        funext record
        exact (foldl_redactRecord requestUuid [] record).symm
      rw [hid, List.map_id]
  | cons fragment fragments ih =>
      rw [List.foldlM_cons] at h
      obtain ⟨⟨tables₁, counts₁⟩, hstep, hrest⟩ := Checks.bind_eq_ok.mp h
      simp only [eraseFragment] at hstep
      split_ifs at hstep
      obtain ⟨rfl, rfl⟩ := Prod.mk.inj (Except.ok.inj hstep)
      obtain ⟨hrecords, hmappings⟩ := ih hrest
      rw [hrecords, hmappings, List.map_map, List.map_map, List.map_map]
      refine ⟨List.map_congr_left fun record _ => ?_, rfl⟩
      rw [← foldl_redactRecord requestUuid (fragment :: fragments), List.foldl_cons,
        foldl_redactRecord]
      rfl

/-- The statements pass if the mappings stay distinct. -/
lemma exists_eraseImportResidue {fragments : List Text} {tables : Tables N} {counts : Counts}
    (h : ∀ earlier, earlier <+: fragments →
      ((tables.mappings.map (erasedMapping sha256 requestUuid earlier)).map
        ImportMapping.dedupeKey).Nodup) :
    ∃ out, fragments.foldlM (eraseFragment sha256 requestUuid) (tables, counts) = .ok out := by
  induction fragments generalizing tables counts with
  | nil => exact ⟨_, rfl⟩
  | cons fragment fragments ih =>
      have hfirst : ((tables.mappings.map (eraseMapping sha256 requestUuid fragment)).map
          ImportMapping.dedupeKey).Nodup := h [fragment] (List.prefix_append [fragment] fragments)
      obtain ⟨tables₁, counts₁, hstep, hmappings⟩ : ∃ tables₁ counts₁,
          eraseFragment sha256 requestUuid (tables, counts) fragment = .ok (tables₁, counts₁) ∧
            tables₁.mappings = tables.mappings.map (eraseMapping sha256 requestUuid fragment) :=
        ⟨_, _, dif_pos hfirst, rfl⟩
      rw [List.foldlM_cons, hstep]
      refine ih fun earlier hearlier => ?_
      have hnodup := h (fragment :: earlier) (List.cons_prefix_cons.mpr ⟨rfl, hearlier⟩)
      rw [hmappings, List.map_map (l := tables.mappings)]
      exact hnodup

/-- The statements pass if and only if no two mappings of one kind are erased by now. -/
lemma exists_eraseImportResidue_iff {tables : Tables N} :
    (∃ out, eraseImportResidue sha256 (sensitiveFragments U version) requestUuid tables = .ok out) ↔
      NothingClashes U version tables := by
  have hfound : ∀ mapping, (∃ fragment ∈ sensitiveFragments U version, mappingLike fragment mapping) ↔
      MappingFound U version mapping := by
    intro mapping
    simp only [MappingFound, mem_sensitiveFragments]
  constructor
  · rintro ⟨⟨after, counts⟩, h⟩
    have hnodup := after.distinct
    rw [(eq_of_eraseImportResidue sha256 requestUuid h).2, List.map_map, List.Nodup,
      List.pairwise_map] at hnodup
    refine hnodup.imp fun {mapping mapping'} hne hends hends' hkind => hne ?_
    -- both keys end with the text of an erased mapping
    have hkey : ∀ m, (MappingFound U version m ∨ m.sourceText = "[erased]".toList) →
        (erasedMapping sha256 requestUuid (sensitiveFragments U version) m).dedupeKey =
          (m.sourcePlatform, m.sourceObjectType, "[erased]".toList) := by
      intro m hm
      rw [ImportMapping.dedupeKey, sourceText_erasedMapping,
        (erasedMapping_kind sha256 requestUuid _ m).1, (erasedMapping_kind sha256 requestUuid _ m).2]
      split_ifs with hm'
      · rfl
      · rw [hm.resolve_left fun hm => hm' ((hfound m).mpr hm)]
    obtain ⟨hplatform, htype⟩ := Prod.mk.inj hkind
    rw [Function.comp_apply, Function.comp_apply, hkey mapping hends, hkey mapping' hends', hplatform,
      htype]
  · intro hclash
    refine exists_eraseImportResidue sha256 requestUuid fun earlier hearlier => ?_
    have hfound' : ∀ mapping, (∃ fragment ∈ earlier, mappingLike fragment mapping) →
        MappingFound U version mapping := by
      rintro mapping ⟨fragment, hfragment, hlike⟩
      exact (hfound mapping).mp ⟨fragment, hearlier.subset hfragment, hlike⟩
    have hdistinct := tables.distinct
    rw [List.Nodup, List.pairwise_map] at hdistinct
    rw [List.map_map, List.Nodup, List.pairwise_map]
    refine (hdistinct.and hclash).imp fun {mapping mapping'} ⟨hne, hkinds⟩ heq => ?_
    rw [Function.comp_apply, Function.comp_apply, ImportMapping.dedupeKey, ImportMapping.dedupeKey,
      sourceText_erasedMapping, sourceText_erasedMapping,
      (erasedMapping_kind sha256 requestUuid _ mapping).1,
      (erasedMapping_kind sha256 requestUuid _ mapping).2,
      (erasedMapping_kind sha256 requestUuid _ mapping').1,
      (erasedMapping_kind sha256 requestUuid _ mapping').2] at heq
    obtain ⟨hplatform, hrest⟩ := Prod.mk.inj heq
    obtain ⟨htype, htext⟩ := Prod.mk.inj hrest
    have hkind : (mapping.sourcePlatform, mapping.sourceObjectType) =
        (mapping'.sourcePlatform, mapping'.sourceObjectType) := by rw [hplatform, htype]
    split_ifs at htext with h h' h'
    · exact hkinds (.inl (hfound' _ h)) (.inl (hfound' _ h')) hkind
    · exact hkinds (.inl (hfound' _ h)) (.inr htext.symm) hkind
    · exact hkinds (.inr htext) (.inl (hfound' _ h')) hkind
    · exact hne (by rw [ImportMapping.dedupeKey, ImportMapping.dedupeKey, hplatform, htype, htext])

end

/-! ### Exactness -/

variable {requestUuid : Text}

lemma any_columnLike_iff {column : Option (IjsonColumn N)} :
    (sensitiveFragments U version).any (columnLike · column) = true ↔ ColumnFound U version column := by
  simp only [List.any_eq_true, ColumnFound, mem_sensitiveFragments]

/-- A column is redacted if and only if it is found, or was redacted before. -/
lemma redacted_iff {column : Option (IjsonColumn N)} {status' : String}
    (hstatus : ColumnFound U version column → status' = "redacted") :
    Redacted requestUuid column (if (sensitiveFragments U version).any (columnLike · column) then
      some (redactedPayload N requestUuid) else column) status' ↔
        ColumnFound U version column ∨ column = some (redactedPayload N requestUuid) := by
  rw [← any_columnLike_iff]
  by_cases hfound : (sensitiveFragments U version).any (columnLike · column) = true
  · rw [if_pos hfound]
    exact iff_of_true ⟨rfl, .inr (hstatus (any_columnLike_iff.mp hfound))⟩ (.inl hfound)
  · rw [if_neg hfound]
    exact ⟨fun h => .inr h.1, fun h => ⟨h.resolve_left hfound, .inl rfl⟩⟩

lemma status_of_found {record : ImportRecord N} (h : ColumnFound U version record.rawPayloadIjson ∨
    ColumnFound U version record.normalizedPayloadIjson) :
    (redactedRecord requestUuid (sensitiveFragments U version) record).status = "redacted" := by
  refine if_pos ?_
  rw [List.any_eq_true]
  rcases h with ⟨pattern, hpattern, hlike⟩ | ⟨pattern, hpattern, hlike⟩
  · exact ⟨pattern, mem_sensitiveFragments.mpr hpattern, by rw [hlike, Bool.true_or]⟩
  · exact ⟨pattern, mem_sensitiveFragments.mpr hpattern, by rw [hlike, Bool.or_true]⟩

/-- A record is left as it is if and only if it is written so. -/
lemma redactedRecord_eq_self_iff {record : ImportRecord N} :
    redactedRecord requestUuid (sensitiveFragments U version) record = record ↔
      RecordWritten U requestUuid version record := by
  constructor
  · intro h
    refine ⟨fun hfound => ?_, fun hfound => ?_, fun hfound => ?_⟩
    · have hraw := congrArg ImportRecord.rawPayloadIjson h
      rw [redactedRecord, if_pos (any_columnLike_iff.mpr hfound)] at hraw
      exact hraw.symm
    · have hnormalized := congrArg ImportRecord.normalizedPayloadIjson h
      rw [redactedRecord] at hnormalized
      dsimp only at hnormalized
      rw [if_pos (any_columnLike_iff.mpr hfound)] at hnormalized
      exact hnormalized.symm
    · exact (congrArg ImportRecord.status h).symm.trans (status_of_found hfound)
  · rintro ⟨hraw, hnormalized, hstatus⟩
    have hstatus' : (redactedRecord requestUuid (sensitiveFragments U version) record).status =
        record.status := by
      by_cases hfound : ColumnFound U version record.rawPayloadIjson ∨
          ColumnFound U version record.normalizedPayloadIjson
      · rw [status_of_found hfound, hstatus hfound]
      · rw [not_or] at hfound
        refine if_neg ?_
        rw [Bool.not_eq_true, List.any_eq_false]
        intro fragment hfragment hlike
        rcases (Bool.or_eq_true _ _).mp hlike with hlike | hlike
        · exact hfound.1 ⟨fragment, mem_sensitiveFragments.mp hfragment, hlike⟩
        · exact hfound.2 ⟨fragment, mem_sensitiveFragments.mp hfragment, hlike⟩
    have hcolumn : ∀ column : Option (IjsonColumn N), (ColumnFound U version column →
        column = some (redactedPayload N requestUuid)) →
        (if (sensitiveFragments U version).any (columnLike · column) then
          some (redactedPayload N requestUuid) else column) = column := by
      intro column h
      split_ifs with hany
      · exact (h (any_columnLike_iff.mp hany)).symm
      · rfl
    have hraw' := hcolumn _ hraw
    have hnormalized' := hcolumn _ hnormalized
    obtain ⟨uuid, raw, normalized, status⟩ := record
    rw [redactedRecord] at hstatus' ⊢
    dsimp only at hraw' hnormalized' hstatus' ⊢
    rw [hraw', hnormalized', hstatus']

/-- Nothing is hidden if and only if each column that has the text is found, or was redacted before. -/
lemma nothingHidden_iff {tables : Tables N} : NothingHidden U requestUuid version tables ↔
    ∀ record ∈ tables.records, ∀ column,
      column = record.rawPayloadIjson ∨ column = record.normalizedPayloadIjson →
      ColumnHolds version.normalizedText column →
        ColumnFound U version column ∨ column = some (redactedPayload N requestUuid) := by
  refine ⟨fun h => h.elim (fun ⟨hlength, hunescaped⟩ => ?_) id, .inr⟩
  rintro - - - - ⟨column, rfl, s, hs, htext⟩
  exact .inl ⟨U.strip version.normalizedText, ⟨hlength, _, rfl, .inl rfl⟩,
    columnLike_of_unescaped hs ((isInfix_strip U _).trans htext) hunescaped⟩

/-- A mapping is left as it is if and only if no pattern finds it, or it was erased before and is
written again as it is. -/
lemma erasedMapping_eq_self_iff {sha256 : Text → String} {mapping : ImportMapping} :
    erasedMapping sha256 requestUuid (sensitiveFragments U version) mapping = mapping ↔
      ¬MappingFound U version mapping ∨ mapping.sourceObjectId = some "[erased]".toList ∧
        erasedMapping sha256 requestUuid (sensitiveFragments U version) mapping = mapping := by
  constructor
  · intro h
    by_cases hfound : MappingFound U version mapping
    · obtain ⟨pattern, hpattern, hlike⟩ := hfound
      refine .inr ⟨?_, h⟩
      rw [← h]
      exact erasedMapping_of_found sha256 requestUuid (mem_sensitiveFragments.mpr hpattern) hlike
    · exact .inl hfound
  · rintro (hnone | ⟨-, h⟩)
    · refine erasedMapping_of_not_found sha256 requestUuid fun fragment hfragment hlike => ?_
      exact hnone ⟨fragment, mem_sensitiveFragments.mp hfragment, hlike⟩
    · exact h

/-- What the statements leave is exact if and only if no copy is hidden and nothing else is found. -/
lemma erasesExactly_map_iff {sha256 : Text → String} {tables after : Tables N}
    (hrecords : after.records = tables.records.map
      (redactedRecord requestUuid (sensitiveFragments U version)))
    (hmappings : after.mappings = tables.mappings.map
      (erasedMapping sha256 requestUuid (sensitiveFragments U version))) :
    ErasesExactly requestUuid version tables after ↔
      NothingHidden U requestUuid version tables ∧
        NothingStray U sha256 requestUuid version tables := by
  have hraw : ∀ record : ImportRecord N, Redacted requestUuid record.rawPayloadIjson
      (redactedRecord requestUuid (sensitiveFragments U version) record).rawPayloadIjson
      (redactedRecord requestUuid (sensitiveFragments U version) record).status ↔
        ColumnFound U version record.rawPayloadIjson ∨
          record.rawPayloadIjson = some (redactedPayload N requestUuid) := fun record =>
    redacted_iff fun hfound => status_of_found (.inl hfound)
  have hnormalized : ∀ record : ImportRecord N, Redacted requestUuid record.normalizedPayloadIjson
      (redactedRecord requestUuid (sensitiveFragments U version) record).normalizedPayloadIjson
      (redactedRecord requestUuid (sensitiveFragments U version) record).status ↔
        ColumnFound U version record.normalizedPayloadIjson ∨
          record.normalizedPayloadIjson = some (redactedPayload N requestUuid) := fun record =>
    redacted_iff fun hfound => status_of_found (.inr hfound)
  constructor
  · rintro ⟨hrecord, hmapping⟩
    rw [hrecords, List.forall₂_map_right_iff, List.forall₂_same] at hrecord
    rw [hmappings, List.forall₂_map_right_iff, List.forall₂_same] at hmapping
    refine ⟨nothingHidden_iff.mpr ?_, fun record hmem hfree => ?_, fun mapping hmem hfree => ?_⟩
    · rintro record hmem column (rfl | rfl) hholds
      · exact (hraw record).mp ((hrecord record hmem).1 hholds)
      · exact (hnormalized record).mp ((hrecord record hmem).2.1 hholds)
    · exact redactedRecord_eq_self_iff.mp ((hrecord record hmem).2.2 hfree)
    · exact erasedMapping_eq_self_iff.mp (hmapping mapping hmem hfree)
  · rintro ⟨hhidden, hstray⟩
    have hhidden := nothingHidden_iff.mp hhidden
    constructor
    · rw [hrecords, List.forall₂_map_right_iff, List.forall₂_same]
      intro record hmem
      exact ⟨fun hholds => (hraw record).mpr (hhidden record hmem _ (.inl rfl) hholds),
        fun hholds => (hnormalized record).mpr (hhidden record hmem _ (.inr rfl) hholds),
        fun hfree => redactedRecord_eq_self_iff.mpr (hstray.1 record hmem hfree)⟩
    · rw [hmappings, List.forall₂_map_right_iff, List.forall₂_same]
      exact fun mapping hmem hfree => erasedMapping_eq_self_iff.mpr (hstray.2 mapping hmem hfree)

/-- The residue is erased exactly if and only if no copy is hidden, nothing else is found, and no two
mappings of one kind are erased. -/
theorem erasesExactly_iff (U : UnicodeData) (sha256 : Text → String) (requestUuid : Text)
    (version : MemoryVersion N) (tables : Tables N) :
    (∃ after counts, eraseImportResidue sha256 (sensitiveFragments U version) requestUuid tables =
        .ok (after, counts) ∧ ErasesExactly requestUuid version tables after) ↔
      NothingHidden U requestUuid version tables ∧ NothingStray U sha256 requestUuid version tables ∧
        NothingClashes U version tables := by
  rw [← exists_eraseImportResidue_iff sha256 requestUuid, ← and_assoc]
  constructor
  · rintro ⟨after, counts, h, hexact⟩
    obtain ⟨hrecords, hmappings⟩ := eq_of_eraseImportResidue sha256 requestUuid h
    exact ⟨(erasesExactly_map_iff hrecords hmappings).mp hexact, ⟨(after, counts), h⟩⟩
  · rintro ⟨hclear, ⟨⟨after, counts⟩, h⟩⟩
    obtain ⟨hrecords, hmappings⟩ := eq_of_eraseImportResidue sha256 requestUuid h
    exact ⟨after, counts, h, (erasesExactly_map_iff hrecords hmappings).mpr hclear⟩

end

/-! ### A text with quotes -/

/-- A memory with quotes in its text. -/
def quoting : MemoryVersion tenths where
  normalizedText := "said \"no\" twice".toList

/-- The payload of a message with that text. -/
def quotedPayload : Json ℕ := .obj [("text".toList, .str quoting.normalizedText)]

lemma wellFormed_quotedPayload : WellFormed tenths quotedPayload := by
  refine .obj rfl fun m hm => ?_
  obtain rfl := List.mem_singleton.mp hm
  exact .str _

/-- Its column. -/
def quotedColumn : IjsonColumn tenths :=
  ⟨(sortKeys quotedPayload).print tenths, quotedPayload, wellFormed_quotedPayload, rfl⟩

/-- The import that the memory came from. -/
def quotedImport : Tables tenths where
  records := [{ importRecordUuid := "r", rawPayloadIjson := some quotedColumn }]
  mappings := []
  distinct := List.nodup_nil

/-- The record keeps the text, whose quotes its column escapes. -/
theorem not_erasesExactly_quoting : ¬∃ after counts, eraseImportResidue String.ofList
    (sensitiveFragments basicLatin quoting) "request".toList quotedImport = .ok (after, counts) ∧
      ErasesExactly "request".toList quoting quotedImport after := by
  rintro ⟨after, counts, h, hexact⟩
  obtain ⟨hrecords, hmappings⟩ := eq_of_eraseImportResidue String.ofList "request".toList h
  have hhidden := nothingHidden_iff.mp ((erasesExactly_map_iff hrecords hmappings).mp hexact).1
  have hholds : ColumnHolds quoting.normalizedText (some quotedColumn) := by
    refine ⟨quotedColumn, rfl, quoting.normalizedText, ?_, List.infix_refl _⟩
    rw [columnStrings_eq wellFormed_quotedPayload rfl]
    decide
  have hfragments : sensitiveFragments basicLatin quoting = [quoting.normalizedText] := by decide
  rcases hhidden _ List.mem_cons_self _ (.inl rfl) hholds with ⟨pattern, hpattern, hlike⟩ | hredacted
  · have hmem := mem_sensitiveFragments.mpr hpattern
    rw [hfragments] at hmem
    obtain rfl := List.mem_singleton.mp hmem
    exact absurd hlike (by decide)
  · have htext := congrArg Subtype.val (Option.some.inj hredacted)
    exact absurd htext (by decide)

end Memorist.ImportResidue
