import Memorist.PromptBudget.ModelContext

/-!
Which edits of the model registry stick, over any sequence of operations.

* `RegistryOp`, `RegistryEvent`, `trace`: the operations, each with the registries around it;
* `RegistryEvent.Keeps`: a patch writes the merged values and nothing else, a write nothing but its
  entry, and a read changes no entry;
* `EditsStick`: every operation keeps, and each read after a patch returns the patched values;
* `RegistryEvent.Sound`: what an operation has to meet, in the registry it finds;
* `editsStick_iff`: edits stick exactly in the sequences whose operations are all sound.
-/

namespace Memorist

/-- The operations of the registry. -/
inductive RegistryOp where
  | createOrUpdate (fields : RegistryFields)
  | patch (uuid : String) (values : RegistryPatch)
  | listEntries
  | resolve (modelName provider : Option String)
  | get (uuid : String)

/-- What an operation returns. -/
inductive RegistryReply where
  | entry (entry : ModelRegistryEntry)
  | entries (entries : List ModelRegistryEntry)
  | found (entry : Option ModelRegistryEntry)

namespace Registry

variable (newUuid : ℕ → String) (lower : String → String)

/-- What an operation returns, and the registry after it: as before where it fails. -/
def perform (s : Registry) : RegistryOp → Except RegistryError (RegistryReply × Registry)
  | .createOrUpdate fields => do
    let (entry, t) ← s.createOrUpdate newUuid fields
    pure (.entry entry, t)
  | .patch uuid values => do
    let (entry, t) ← s.patch newUuid uuid values
    pure (.entry entry, t)
  | .listEntries => do
    let (entries, t) ← s.listEntries newUuid
    pure (.entries entries, t)
  | .resolve modelName provider => do
    let (entry, t) ← s.resolve newUuid lower modelName provider
    pure (.found entry, t)
  | .get uuid => do
    let entry ← s.get uuid
    pure (.entry entry, s)

end Registry

/-- An operation, what it returned, and the registries before and after it. -/
structure RegistryEvent where
  before : Registry
  op : RegistryOp
  reply : Except RegistryError RegistryReply
  after : Registry

/-- The event of an operation. -/
def RegistryEvent.of (newUuid : ℕ → String) (lower : String → String) (s : Registry)
    (op : RegistryOp) : RegistryEvent :=
  match s.perform newUuid lower op with
  | .ok (reply, t) => ⟨s, op, .ok reply, t⟩
  | .error e => ⟨s, op, .error e, s⟩

/-- The events of some operations, one after the other. -/
def trace (newUuid : ℕ → String) (lower : String → String) :
    Registry → List RegistryOp → List RegistryEvent
  | _, [] => []
  | s, op :: ops =>
    .of newUuid lower s op :: trace newUuid lower (RegistryEvent.of newUuid lower s op).after ops

/-! ### What edits are owed -/

namespace RegistryEvent

/-- No entry is changed; others may be added. -/
def Preserves (s t : Registry) : Prop := ∀ w row, s.rowOf w = some row → t.rowOf w = some row

/-- The operation changes what it writes, as it is told, and nothing else. -/
def Keeps (e : RegistryEvent) : Prop :=
  match e.op, e.reply with
  | .patch uuid values, .ok _ => ∃ current patched, e.before.rowOf uuid = some current ∧
      e.after.rowOf uuid = some patched ∧ patched.view = current.view.merge values ∧
        ∀ w, w ≠ uuid → e.after.rowOf w = e.before.rowOf w
  | .createOrUpdate fields, .ok (.entry written) => written.key = fields.key ∧
      e.after.rowOf written.modelProfileUuid = some written ∧
        ∀ w, w ≠ written.modelProfileUuid → e.after.rowOf w = e.before.rowOf w
  | _, .ok _ => Preserves e.before e.after
  | _, .error _ => e.after = e.before

/-- The operation writes the entry of a uuid. -/
def Writes (uuid : String) (e : RegistryEvent) : Prop :=
  match e.op, e.reply with
  | .patch uuid' _, _ => uuid' = uuid
  | .createOrUpdate _, .ok (.entry written) => written.modelProfileUuid = uuid
  | _, _ => False

/-- What a read returns of the entry of a uuid is the entry given. -/
def Returns (uuid : String) (entry : ModelRegistryEntry) (e : RegistryEvent) : Prop :=
  match e.op, e.reply with
  | .get uuid', reply => uuid' = uuid → reply = .ok (.entry entry)
  | .listEntries, .ok (.entries entries) =>
      entries.filter (fun row => row.modelProfileUuid = uuid) = [entry]
  | .listEntries, _ => False
  | .resolve _ _, .ok (.found (some row)) => row.modelProfileUuid = uuid → row = entry
  | _, _ => True

end RegistryEvent

/-- Edits stick: every operation changes what it writes and nothing else, no two entries have one
provider and name, and after a patch each read of its entry returns the patched values until the
next write to it. -/
structure EditsStick (es : List RegistryEvent) : Prop where
  keeps : ∀ e ∈ es, e.Keeps
  distinct : ∀ e ∈ es, (e.after.entries.rows.map ModelRegistryEntry.key).Nodup
  reads : ∀ {earlier between later : List RegistryEvent} {patch read : RegistryEvent}
    {uuid : String} {values : RegistryPatch} {reply : RegistryReply},
    es = earlier ++ patch :: between ++ read :: later → patch.op = .patch uuid values →
      patch.reply = .ok reply → (∀ e ∈ between, ¬e.Writes uuid) →
        ∃ current patched, patch.before.rowOf uuid = some current ∧
          patched.view = current.view.merge values ∧ read.Returns uuid patched

/-! ### What operations have to meet -/

/-- Merged values that a write stores as they are: the provider and the name of the entry, and no
value that a default takes the place of. -/
structure RegistryView.Plain (merged : RegistryView) (current : ModelRegistryEntry) : Prop where
  provider : merged.provider = some current.provider
  modelName : merged.modelName = some current.modelName
  modelAliases : ∃ aliases, merged.modelAliases = some aliases ∧ aliases ≠ []
  tokenizerFamily : ∃ family, merged.tokenizerFamily = some family ∧ family ≠ ""
  supportsTokenCounting : merged.supportsTokenCounting ≠ none
  source : ∃ source, merged.source = some source ∧ source ≠ ""
  confidence : ∃ c, merged.confidence = some c ∧ c ≠ 0

/-- A patch whose integers fit does not rename its entry and gives no value that a default takes the
place of; a read that looks the built-in models up finds none of their entries edited. -/
def RegistryEvent.Sound (e : RegistryEvent) : Prop :=
  match e.op with
  | .patch uuid values => ∀ current, e.before.rowOf uuid = some current →
      (current.view.merge values).fields.Storable → (current.view.merge values).Plain current
  | .listEntries => e.before.BuiltinsUnedited
  | .resolve (some name) _ => name ≠ "" → e.before.BuiltinsUnedited
  | _ => True

namespace Registry

variable {newUuid : ℕ → String} {lower : String → String} {s t : Registry}

lemma strOr_eq_iff {value : Option String} {default : String} (hdefault : default ≠ "") :
    some (strOr value default) = value ↔ ∃ text, value = some text ∧ text ≠ "" := by
  cases value with
  | none => simp [strOr]
  | some text =>
      by_cases htext : text = ""
      · simp [strOr, htext, hdefault]
      · simp [strOr, htext]

lemma confidenceOf_eq_iff {value : Option ℚ} :
    some (confidenceOf value) = value ↔ ∃ c, value = some c ∧ c ≠ 0 := by
  cases value with
  | none => simp [confidenceOf]
  | some c =>
      by_cases hc : c = 0
      · simp [confidenceOf, hc]
      · simp [confidenceOf, hc]

lemma aliases_eq_iff {merged : RegistryView} :
    some merged.fields.aliases = merged.modelAliases ↔
      ∃ aliases, merged.modelAliases = some aliases ∧ aliases ≠ [] := by
  rw [RegistryFields.aliases]
  rcases h : merged.modelAliases with _ | _ | ⟨name, aliases⟩ <;> simp [RegistryView.fields, h]

/-- Merged values are stored as they are exactly when they are plain. -/
lemma view_entry_fields_iff {merged : RegistryView} {current : ModelRegistryEntry} {uuid : String}
    (hkey : merged.fields.key = current.key) :
    (merged.fields.entry uuid).view = merged ↔ merged.Plain current := by
  obtain ⟨hprovider, hname⟩ := Prod.mk.inj hkey
  constructor
  · intro h
    refine ⟨?_, ?_, ?_, ?_, ?_, ?_, ?_⟩
    · rw [← hprovider]
      exact (congrArg RegistryView.provider h).symm
    · rw [← hname]
      exact (congrArg RegistryView.modelName h).symm
    · exact aliases_eq_iff.mp (congrArg RegistryView.modelAliases h)
    · exact (strOr_eq_iff (by decide)).mp (congrArg RegistryView.tokenizerFamily h)
    · rw [← h]
      exact Option.some_ne_none _
    · exact (strOr_eq_iff (by decide)).mp (congrArg RegistryView.source h)
    · exact confidenceOf_eq_iff.mp (congrArg RegistryView.confidence h)
  · intro h
    obtain ⟨supports, hsupports⟩ := Option.ne_none_iff_exists'.mp h.supportsTokenCounting
    refine RegistryView.ext ?_ ?_ ?_ rfl rfl ?_ ?_ rfl ?_ ?_
    · exact (congrArg some hprovider).trans h.provider.symm
    · exact (congrArg some hname).trans h.modelName.symm
    · exact aliases_eq_iff.mpr h.modelAliases
    · exact (strOr_eq_iff (by decide)).mpr h.tokenizerFamily
    · show some (merged.supportsTokenCounting.getD false) = _
      rw [hsupports, Option.getD_some]
    · exact (strOr_eq_iff (by decide)).mpr h.source
    · exact confidenceOf_eq_iff.mpr h.confidence

/-- Plain values name the entry they are merged into. -/
lemma key_of_plain {merged : RegistryView} {current : ModelRegistryEntry}
    (h : merged.Plain current) : merged.fields.key = current.key := by
  show (strOf merged.provider, strOf merged.modelName) = _
  rw [h.provider, h.modelName]
  rfl

end Registry

namespace RegistryEvent

variable {newUuid : ℕ → String} {lower : String → String} {s : Registry}

open Registry

lemma of_ok {op : RegistryOp} {reply : RegistryReply} {t : Registry}
    (h : s.perform newUuid lower op = .ok (reply, t)) :
    RegistryEvent.of newUuid lower s op = ⟨s, op, .ok reply, t⟩ := by
  rw [RegistryEvent.of, h]

lemma of_error {op : RegistryOp} {e : RegistryError}
    (h : s.perform newUuid lower op = .error e) :
    RegistryEvent.of newUuid lower s op = ⟨s, op, .error e, s⟩ := by
  rw [RegistryEvent.of, h]

/-- What is shown of each operation: it keeps just when it is sound, and its registry is one that
operations lead to. -/
def Settled (newUuid : ℕ → String) (e : RegistryEvent) : Prop :=
  (e.Keeps ↔ e.Sound) ∧ e.after.Inv newUuid

/-- A write keeps, as it changes its own entry only. -/
lemma settled_createOrUpdate (huuid : Function.Injective newUuid) (h : s.Inv newUuid)
    (fields : RegistryFields) :
    (RegistryEvent.of newUuid lower s (.createOrUpdate fields)).Settled newUuid := by
  rcases createOrUpdate_cases huuid h fields with ⟨-, herror⟩ | ⟨uuid, t, -, hok, hwrote, hinv⟩
  · rw [of_error (e := .integerOverflow) (by rw [perform, herror]; rfl)]
    exact ⟨iff_of_true rfl trivial, h⟩
  · rw [@of_ok _ _ _ _ (.entry (fields.entry uuid)) t (by rw [perform, hok]; rfl)]
    exact ⟨iff_of_true ⟨rfl, hwrote.written, hwrote.others⟩ trivial, hinv⟩

/-- A patch keeps just when its merged values are plain. -/
lemma settled_patch (huuid : Function.Injective newUuid) (h : s.Inv newUuid) (uuid : String)
    (values : RegistryPatch) :
    (RegistryEvent.of newUuid lower s (.patch uuid values)).Settled newUuid := by
  cases hcurrent : s.rowOf uuid with
  | none =>
      have hget : s.get uuid = .error (.notFound uuid) := by rw [Registry.get, hcurrent]
      rw [of_error (e := .notFound uuid) (by rw [perform, patch, hget]; rfl)]
      refine ⟨iff_of_true rfl fun current hsome => ?_, h⟩
      exact absurd (hcurrent.symm.trans hsome) (by simp)
  | some current =>
      have hget : s.get uuid = .ok current := by rw [Registry.get, hcurrent]
      set merged := current.view.merge values with hmerged
      rcases createOrUpdate_cases huuid h merged.fields with
        ⟨hno, herror⟩ | ⟨target, t, hstorable, hok, hwrote, hinv⟩
      · rw [of_error (e := .integerOverflow) (by
          rw [perform, patch, hget]
          show (s.createOrUpdate newUuid merged.fields >>= _) = _
          rw [herror]
          rfl)]
        refine ⟨iff_of_true rfl fun current' hsome hfits => ?_, h⟩
        rw [Option.some.inj (hsome.symm.trans hcurrent)] at hfits
        exact absurd hfits hno
      · rw [@of_ok _ _ _ _ (.entry (merged.fields.entry target)) t (by
          rw [perform, patch, hget]
          show (s.createOrUpdate newUuid merged.fields >>= _) = _
          rw [hok]
          rfl)]
        refine ⟨⟨?_, ?_⟩, hinv⟩
        · rintro ⟨current', patched, hsome, hpatched, hview, -⟩ current'' hsome' -
          obtain rfl : current = current' := Option.some.inj (hcurrent.symm.trans hsome)
          obtain rfl : current = current'' := Option.some.inj (hcurrent.symm.trans hsome')
          obtain ⟨-, rfl⟩ := mem_of_rowOf hcurrent
          by_cases htarget : current.modelProfileUuid = target
          · have hkey := (hwrote.target current hcurrent).mpr htarget
            rw [htarget] at hpatched
            obtain rfl := Option.some.inj (hwrote.written.symm.trans hpatched)
            exact (view_entry_fields_iff hkey.symm).mp hview
          · -- the entry is as it was, so that the merged values name it
            rw [hwrote.others _ htarget] at hpatched
            obtain rfl := Option.some.inj (hcurrent.symm.trans hpatched)
            have hkey : current.key = merged.fields.key := by
              rw [hmerged, ← hview]
              rfl
            exact absurd ((hwrote.target current hcurrent).mp hkey) htarget
        · intro hsound
          have hplain := hsound current hcurrent hstorable
          obtain ⟨-, rfl⟩ := mem_of_rowOf hcurrent
          have htarget := (hwrote.target current hcurrent).mp (key_of_plain hplain).symm
          rw [← htarget] at hwrote
          exact ⟨current, _, hcurrent, hwrote.written,
            (view_entry_fields_iff (key_of_plain hplain)).mpr hplain, hwrote.others⟩

/-- A read that ensures the built-in entries keeps just when none of them was edited. -/
lemma settled_listEntries (huuid : Function.Injective newUuid) (h : s.Inv newUuid) :
    (RegistryEvent.of newUuid lower s .listEntries).Settled newUuid := by
  obtain ⟨t, hok, hinv, hiff⟩ := exists_ensureBuiltinEntries huuid h
  rw [@of_ok _ _ _ _ (.entries _) t (by rw [perform, Registry.listEntries, hok]; rfl)]
  exact ⟨hiff, hinv⟩

lemma settled_resolve (huuid : Function.Injective newUuid) (h : s.Inv newUuid)
    (modelName provider : Option String) :
    (RegistryEvent.of newUuid lower s (.resolve modelName provider)).Settled newUuid := by
  cases modelName with
  | none =>
      rw [@of_ok _ _ _ _ (.found none) s rfl]
      exact ⟨iff_of_true (fun w row hrow => hrow) trivial, h⟩
  | some name =>
      by_cases hname : name = ""
      · rw [@of_ok _ _ _ _ (.found none) s (by rw [perform, Registry.resolve, if_pos hname]; rfl)]
        exact ⟨iff_of_true (fun w row hrow => hrow) fun hne => absurd hname hne, h⟩
      · obtain ⟨t, hok, hinv, hiff⟩ := exists_ensureBuiltinEntries huuid h
        rw [@of_ok _ _ _ _ (.found _) t (by
          rw [perform, Registry.resolve, if_neg hname, hok]
          rfl)]
        exact ⟨hiff.trans ⟨fun hunedited _ => hunedited, fun hsound => hsound hname⟩, hinv⟩

lemma settled_get (h : s.Inv newUuid) (uuid : String) :
    (RegistryEvent.of newUuid lower s (.get uuid)).Settled newUuid := by
  cases hcurrent : s.rowOf uuid with
  | none =>
      rw [of_error (e := .notFound uuid) (by rw [perform, Registry.get, hcurrent]; rfl)]
      exact ⟨iff_of_true rfl trivial, h⟩
  | some current =>
      rw [@of_ok _ _ _ _ (.entry current) s (by rw [perform, Registry.get, hcurrent]; rfl)]
      exact ⟨iff_of_true (fun w row hrow => hrow) trivial, h⟩

/-- Each operation keeps just when it is sound. -/
lemma settled_of (huuid : Function.Injective newUuid) (h : s.Inv newUuid) (op : RegistryOp) :
    (RegistryEvent.of newUuid lower s op).Settled newUuid := by
  cases op with
  | createOrUpdate fields => exact settled_createOrUpdate huuid h fields
  | patch uuid values => exact settled_patch huuid h uuid values
  | listEntries => exact settled_listEntries huuid h
  | resolve modelName provider => exact settled_resolve huuid h modelName provider
  | get uuid => exact settled_get h uuid

/-! ### Reads after a patch -/

/-- An operation that keeps and does not write an entry leaves it as it is. -/
lemma Keeps.rowOf_after {e : RegistryEvent} {uuid : String} {row : ModelRegistryEntry}
    (h : e.Keeps) (hnot : ¬e.Writes uuid) (hrow : e.before.rowOf uuid = some row) :
    e.after.rowOf uuid = some row := by
  obtain ⟨before, op, reply, after⟩ := e
  cases reply with
  | error error =>
      have hsame : after = before := by cases op <;> exact h
      rwa [hsame]
  | ok reply =>
      cases op with
      | patch uuid' values =>
          obtain ⟨current, patched, -, -, -, hothers⟩ := h
          exact (hothers uuid fun heq => hnot heq.symm).trans hrow
      | createOrUpdate fields =>
          cases reply with
          | entry written => exact (h.2.2 uuid fun heq => hnot heq.symm).trans hrow
          | entries entries => exact h uuid row hrow
          | found entry => exact h uuid row hrow
      | listEntries => exact h uuid row hrow
      | resolve modelName provider => exact h uuid row hrow
      | get uuid' => exact h uuid row hrow

/-- A read of an entry that is there, by an operation that keeps, returns it. -/
lemma returns_of_keeps (huuid : Function.Injective newUuid) (h : s.Inv newUuid) {op : RegistryOp}
    {uuid : String} {row : ModelRegistryEntry} (hrow : s.rowOf uuid = some row)
    (hkeeps : (RegistryEvent.of newUuid lower s op).Keeps) :
    (RegistryEvent.of newUuid lower s op).Returns uuid row := by
  cases op with
  | createOrUpdate fields => unfold RegistryEvent.of; split <;> trivial
  | patch uuid' values => unfold RegistryEvent.of; split <;> trivial
  | listEntries =>
      obtain ⟨t, hok, -, -⟩ := exists_ensureBuiltinEntries huuid h
      have hof := @of_ok _ lower s .listEntries (.entries _) t (by
        rw [perform, Registry.listEntries, hok]
        rfl)
      rw [hof] at hkeeps ⊢
      have hafter : t.entries.get? uuid = some row := hkeeps uuid row hrow
      have hfilter := Table.filter_key t.entries uuid fun _ => true
      rw [hafter, Option.filter_some_pos rfl, Option.toList_some] at hfilter
      refine List.perm_singleton.mp (((KeySort.sortBy_perm _ _).filter _).trans ?_)
      rw [← hfilter]
      simp only [and_true]
      exact .refl _
  | resolve modelName provider =>
      cases modelName with
      | none => trivial
      | some name =>
          by_cases hname : name = ""
          · rw [@of_ok _ _ _ _ (.found none) s (by
              rw [perform, Registry.resolve, if_pos hname]
              rfl)]
            trivial
          · obtain ⟨t, hok, -, -⟩ := exists_ensureBuiltinEntries huuid h
            have hof := @of_ok _ lower s (.resolve (some name) provider) (.found _) t (by
              rw [perform, Registry.resolve, if_neg hname, hok]
              rfl)
            rw [hof] at hkeeps ⊢
            have hafter : t.rowOf uuid = some row := hkeeps uuid row hrow
            cases hfound : t.entries.rows.find? fun entry =>
                provider.all (entry.provider = ·) ∧ answersTo lower entry (lower name) with
            | none => trivial
            | some found =>
                intro heq
                have hmem := rowOf_of_mem (List.mem_of_find?_eq_some hfound)
                rw [heq, hafter] at hmem
                exact (Option.some.inj hmem).symm
  | get uuid' =>
      by_cases heq : uuid' = uuid
      · subst heq
        rw [@of_ok _ lower s (.get uuid') (.entry row) s (by
          rw [perform, Registry.get, hrow]
          rfl)]
        exact fun _ => rfl
      · unfold RegistryEvent.of
        split <;> exact fun hsame => absurd hsame heq

end RegistryEvent

/-! ### Sequences of operations -/

section Trace

variable {newUuid : ℕ → String} {lower : String → String} {s : Registry}

lemma RegistryEvent.before_of (op : RegistryOp) :
    (RegistryEvent.of newUuid lower s op).before = s := by
  unfold RegistryEvent.of
  split <;> rfl

lemma RegistryEvent.op_of (op : RegistryOp) :
    (RegistryEvent.of newUuid lower s op).op = op := by
  unfold RegistryEvent.of
  split <;> rfl

/-- Each event of a sequence is that of an operation on a registry that operations lead to, and the
events after it start from where it ends. -/
lemma exists_of_trace (huuid : Function.Injective newUuid) (h : s.Inv newUuid)
    {ops : List RegistryOp} {earlier later : List RegistryEvent} {e : RegistryEvent}
    (htrace : trace newUuid lower s ops = earlier ++ e :: later) :
    ∃ before op ops', before.Inv newUuid ∧ e = .of newUuid lower before op ∧
      later = trace newUuid lower e.after ops' := by
  induction ops generalizing s earlier with
  | nil => exact absurd htrace (by simp [trace])
  | cons op ops ih =>
      cases earlier with
      | nil =>
          obtain ⟨rfl, rfl⟩ := List.cons.inj htrace
          exact ⟨s, op, ops, h, rfl, rfl⟩
      | cons first earlier =>
          exact ih (RegistryEvent.settled_of huuid h op).2 (List.cons.inj htrace).2

lemma settled_trace (huuid : Function.Injective newUuid) (h : s.Inv newUuid)
    {ops : List RegistryOp} {e : RegistryEvent} (he : e ∈ trace newUuid lower s ops) :
    e.Settled newUuid := by
  obtain ⟨earlier, later, hsplit⟩ := List.append_of_mem he
  obtain ⟨before, op, ops', hinv, rfl, -⟩ := exists_of_trace huuid h hsplit
  exact RegistryEvent.settled_of huuid hinv op

/-- Operations that keep and do not write an entry leave it to the next one. -/
lemma rowOf_before {ops : List RegistryOp} {between later : List RegistryEvent}
    {read : RegistryEvent} {uuid : String} {row : ModelRegistryEntry}
    (htrace : trace newUuid lower s ops = between ++ read :: later)
    (hkeeps : ∀ e ∈ between, e.Keeps) (hnot : ∀ e ∈ between, ¬e.Writes uuid)
    (hrow : s.rowOf uuid = some row) : read.before.rowOf uuid = some row := by
  induction between generalizing s ops with
  | nil =>
      cases ops with
      | nil => exact absurd htrace (by simp [trace])
      | cons op ops =>
          obtain ⟨rfl, -⟩ := List.cons.inj htrace
          rwa [RegistryEvent.before_of]
  | cons first between ih =>
      cases ops with
      | nil => exact absurd htrace (by simp [trace])
      | cons op ops =>
          obtain ⟨rfl, hrest⟩ := List.cons.inj htrace
          rw [List.forall_mem_cons] at hkeeps hnot
          refine ih hrest hkeeps.2 hnot.2 (hkeeps.1.rowOf_after hnot.1 ?_)
          rwa [RegistryEvent.before_of]

/-- Edits stick in a sequence of operations exactly when each operation is sound: no patch renames
its entry or gives a value that a default takes the place of, and no read that looks the built-in
models up finds one of their entries edited. -/
theorem editsStick_iff (huuid : Function.Injective newUuid) (ops : List RegistryOp) :
    EditsStick (trace newUuid lower {} ops) ↔ ∀ e ∈ trace newUuid lower {} ops, e.Sound := by
  have hstart : Registry.Inv newUuid {} := ⟨List.nodup_nil, fun row hrow => absurd hrow List.not_mem_nil⟩
  constructor
  · intro h e he
    exact (settled_trace huuid hstart he).1.mp (h.keeps e he)
  · intro h
    have hkeeps : ∀ e ∈ trace newUuid lower {} ops, e.Keeps := fun e he =>
      (settled_trace huuid hstart he).1.mpr (h e he)
    refine ⟨hkeeps, fun e he => (settled_trace huuid hstart he).2.keys, ?_⟩
    intro earlier between later patch read uuid values reply hsplit hop hreply hnot
    have hpatchSplit : trace newUuid lower {} ops = earlier ++ patch :: (between ++ read :: later) := by
      rw [hsplit, List.append_assoc, List.cons_append]
    obtain ⟨before, op, ops', hinv, -, hrest⟩ := exists_of_trace huuid hstart hpatchSplit
    have hpatchKeeps := hkeeps patch (by rw [hsplit]; simp)
    rw [RegistryEvent.Keeps, hop, hreply] at hpatchKeeps
    obtain ⟨current, patched, hcurrent, hpatched, hview, -⟩ := hpatchKeeps
    have hbetween : ∀ e ∈ between, e.Keeps := fun e he => hkeeps e (by rw [hsplit]; simp [he])
    have hrow := rowOf_before hrest.symm hbetween hnot hpatched
    obtain ⟨before', op', -, hinv', rfl, -⟩ := exists_of_trace huuid hstart hsplit
    rw [RegistryEvent.before_of] at hrow
    refine ⟨current, patched, hcurrent, hview, RegistryEvent.returns_of_keeps huuid hinv' hrow ?_⟩
    exact hkeeps _ (by rw [hsplit]; simp)

end Trace

/-! ### A built-in model edited -/

/-- Uuids told apart by their length. -/
def tallyUuid (n : ℕ) : String := String.ofList (List.replicate n 'u')

lemma tallyUuid_injective : Function.Injective tallyUuid := fun m n h => by
  simpa [tallyUuid] using congrArg (fun text => text.toList.length) h

/-- An entry of one's own, patched and read. -/
def ownEntryOps : List RegistryOp :=
  [.createOrUpdate { provider := "local", modelName := "mistral" },
    .patch "" { contextWindow := some (some 16384) }, .listEntries]

theorem editsStick_ownEntry :
    EditsStick (trace tallyUuid id {} ownEntryOps) ↔
      ∀ e ∈ trace tallyUuid id {} ownEntryOps, e.Sound :=
  editsStick_iff tallyUuid_injective ownEntryOps

/-- The built-in entries are listed, the window of one is patched, and they are listed again. -/
def builtinPatchedOps : List RegistryOp :=
  [.listEntries, .patch "" { contextWindow := some (some 16384) }, .listEntries]

/-- The second listing puts the window back. -/
theorem not_editsStick_builtin : ¬EditsStick (trace tallyUuid id {} builtinPatchedOps) := by
  intro h
  have hstart : Registry.Inv tallyUuid {} :=
    ⟨List.nodup_nil, fun row hrow => absurd hrow List.not_mem_nil⟩
  have hlast : RegistryEvent.of tallyUuid id
      (RegistryEvent.of tallyUuid id (RegistryEvent.of tallyUuid id {} .listEntries).after
        (.patch "" { contextWindow := some (some 16384) })).after .listEntries ∈
      trace tallyUuid id {} builtinPatchedOps :=
    List.mem_cons_of_mem _ (List.mem_cons_of_mem _ List.mem_cons_self)
  have hsound := (settled_trace tallyUuid_injective hstart hlast).1.mp (h.keeps _ hlast)
  rw [RegistryEvent.Sound, RegistryEvent.op_of, RegistryEvent.before_of] at hsound
  revert hsound
  decide +kernel

end Memorist
