import Memorist.Library.JsonGrammar
import Memorist.Text.LoadIjson
import Memorist.Text.PyValue

/-!
What the text of an I-JSON value keeps (`validators/ijson.py`).

* `sortKeys_eq_iff`: values of one canonical form;
* `canonicalHashJson`: the digest of the canonical text;
* `ijson_canonical`: what was dumped is loaded, one hash is one value up to the order of members,
  and what is loaded.
-/

namespace Memorist

open Json (Alike Dicts JsonText SameNumber SameSpelling WellFormed)

variable {F : Type}

/-! ### Values of one canonical form -/

lemma isScalar_sortKeys (a : Json F) : (sortKeys a).isScalar = a.isScalar := by cases a <;> rfl

lemma sortKeys_of_isScalar {a : Json F} (h : a.isScalar) : sortKeys a = a := by
  cases a with
  | arr items => exact absurd h (by simp [Json.isScalar])
  | obj members => exact absurd h (by simp [Json.isScalar])
  | _ => rfl

/-- A scalar agrees with itself only. -/
lemma sortKeys_eq_iff_of_isScalar {a b : Json F} (h : a.isScalar) :
    sortKeys a = sortKeys b ↔ Alike SameSpelling a b := by
  constructor
  · intro heq
    have hb : b.isScalar := by rw [← isScalar_sortKeys, ← heq, isScalar_sortKeys, h]
    rw [sortKeys_of_isScalar h, sortKeys_of_isScalar hb] at heq
    exact .scalar ⟨h, heq⟩
  · intro halike
    cases halike with
    | scalar hsame => rw [hsame.2]
    | arr _ _ => exact absurd h (by simp [Json.isScalar])
    | obj _ _ => exact absurd h (by simp [Json.isScalar])

/-- The members of an object, each put in order. -/
lemma nodup_names {members : List (Text × Json F)} (h : Json.distinctNames members) :
    (members.map Prod.fst).Nodup := of_decide_eq_true h

lemma sortKeys_obj_eq_iff {ms ns : List (Text × Json F)} (hms : Json.distinctNames ms)
    (hns : Json.distinctNames ns) : sortKeys (.obj ms) = sortKeys (.obj ns) ↔
      (∀ k, k ∈ ms.map Prod.fst ↔ k ∈ ns.map Prod.fst) ∧
        ∀ k x y, (k, x) ∈ ms → (k, y) ∈ ns → sortKeys x = sortKeys y := by
  have hfst : ∀ members : List (Text × Json F),
      (members.map fun m => (m.1, sortKeys m.2)).map Prod.fst = members.map Prod.fst :=
    fun members => by rw [List.map_map]; rfl
  have hnodup : ∀ members : List (Text × Json F), Json.distinctNames members →
      ((members.map fun m => (m.1, sortKeys m.2)).map Prod.fst).Nodup := fun members h => by
    rw [hfst]
    exact nodup_names h
  rw [sortKeys_obj, sortKeys_obj]
  constructor
  · intro heq
    have hperm : (ms.map fun m => (m.1, sortKeys m.2)).Perm (ns.map fun m => (m.1, sortKeys m.2)) :=
      (KeySort.sortBy_perm _ _).symm.trans
        ((List.Perm.of_eq (Json.obj.inj heq)).trans (KeySort.sortBy_perm _ _))
    refine ⟨fun k => ?_, fun k x y hx hy => ?_⟩
    · rw [← hfst ms, ← hfst ns]
      exact (hperm.map Prod.fst).mem_iff
    · have hx' := hperm.mem_iff.mp (List.mem_map_of_mem (f := fun m => (m.1, sortKeys m.2)) hx)
      have hy' := List.mem_map_of_mem (f := fun m => (m.1, sortKeys m.2)) hy
      exact (Prod.mk.inj (List.inj_on_of_nodup_map (hnodup ns hns) hx' hy' rfl)).2
  · rintro ⟨hnames, hvalues⟩
    have hsub : ∀ {ms ns : List (Text × Json F)},
        (∀ k, k ∈ ms.map Prod.fst → k ∈ ns.map Prod.fst) →
        (∀ k x y, (k, x) ∈ ms → (k, y) ∈ ns → sortKeys x = sortKeys y) →
        ∀ m ∈ ms.map fun m => (m.1, sortKeys m.2), m ∈ ns.map fun m => (m.1, sortKeys m.2) := by
      intro ms ns hnames hvalues m hm
      obtain ⟨⟨k, x⟩, hx, rfl⟩ := List.mem_map.mp hm
      obtain ⟨⟨k', y⟩, hy, rfl⟩ := List.mem_map.mp (hnames k (List.mem_map_of_mem hx))
      rw [hvalues k' x y hx hy]
      exact List.mem_map_of_mem hy
    have hperm : (ms.map fun m => (m.1, sortKeys m.2)).Perm
        (ns.map fun m => (m.1, sortKeys m.2)) := by
      refine (List.perm_ext_iff_of_nodup (.of_map _ (hnodup ms hms)) (.of_map _ (hnodup ns hns))).mpr
        fun m => ⟨hsub (fun k => (hnames k).mp) hvalues m, ?_⟩
      exact hsub (fun k => (hnames k).mpr) (fun k x y hx hy => (hvalues k y x hy hx).symm) m
    rw [KeySort.sortBy_eq_of_perm hperm fun a ha b hb heq =>
      List.inj_on_of_nodup_map (hnodup ms hms) ha hb heq]

lemma sortKeys_arr_eq_iff {xs ys : List (Json F)} : sortKeys (.arr xs) = sortKeys (.arr ys) ↔
    xs.length = ys.length ∧
      ∀ (i : ℕ) (x y : Json F), xs[i]? = some x → ys[i]? = some y → sortKeys x = sortKeys y := by
  rw [sortKeys_arr, sortKeys_arr, Json.arr.injEq]
  constructor
  · intro heq
    refine ⟨by simpa using congrArg List.length heq, fun i x y hx hy => ?_⟩
    have hget := congrArg (fun items => items[i]?) heq
    simpa [List.getElem?_map, hx, hy] using hget
  · rintro ⟨hlength, hitems⟩
    refine List.ext_getElem? fun i => ?_
    rw [List.getElem?_map, List.getElem?_map]
    cases hx : xs[i]? with
    | none =>
        have hle : ys.length ≤ i := hlength ▸ List.getElem?_eq_none_iff.mp hx
        rw [List.getElem?_eq_none hle]
    | some x =>
        have hlt : i < ys.length := hlength ▸ (List.getElem?_eq_some_iff.mp hx).1
        rw [List.getElem?_eq_getElem hlt, Option.map_some, Option.map_some,
          hitems i x _ hx (List.getElem?_eq_getElem hlt)]

/-- Values of one canonical form are those that agree up to the order of members. -/
theorem sortKeys_eq_iff {a b : Json F} (ha : Dicts a) (hb : Dicts b) :
    sortKeys a = sortKeys b ↔ Alike SameSpelling a b := by
  induction ha generalizing b with
  | @arr xs hxs ih =>
      cases hb with
      | @arr ys hys =>
          rw [sortKeys_arr_eq_iff]
          constructor
          · rintro ⟨hlength, hitems⟩
            exact .arr hlength fun i x y hx hy =>
              (ih x (List.mem_of_getElem? hx) (hys y (List.mem_of_getElem? hy))).mp
                (hitems i x y hx hy)
          · intro halike
            cases halike with
            | scalar h => exact absurd h.1 (by simp [Json.isScalar])
            | arr hlength hitems =>
                exact ⟨hlength, fun i x y hx hy =>
                  (ih x (List.mem_of_getElem? hx) (hys y (List.mem_of_getElem? hy))).mpr
                    (hitems i x y hx hy)⟩
      | obj _ _ =>
          refine iff_of_false (by simp [sortKeys]) fun halike => ?_
          cases halike with
          | scalar h => exact absurd h.1 (by simp [Json.isScalar])
      | _ =>
          refine iff_of_false (by simp [sortKeys]) fun halike => ?_
          cases halike with
          | scalar h => exact absurd h.1 (by simp [Json.isScalar])
  | @obj ms hnames hms ih =>
      cases hb with
      | @obj ns hnames' hns =>
          rw [sortKeys_obj_eq_iff hnames hnames']
          constructor
          · rintro ⟨hsame, hvalues⟩
            exact .obj hsame fun k x y hx hy => (ih _ hx (hns _ hy)).mp (hvalues k x y hx hy)
          · intro halike
            cases halike with
            | scalar h => exact absurd h.1 (by simp [Json.isScalar])
            | obj hsame hvalues =>
                exact ⟨hsame, fun k x y hx hy => (ih _ hx (hns _ hy)).mpr (hvalues k x y hx hy)⟩
      | _ =>
          refine iff_of_false (by simp [sortKeys]) fun halike => ?_
          cases halike with
          | scalar h => exact absurd h.1 (by simp [Json.isScalar])
  | _ => exact sortKeys_eq_iff_of_isScalar rfl

/-! ### The canonical hash -/

/-- `canonical_hash_ijson`, of values with numbers of both kinds. -/
def canonicalHashJson (P : Platform) (N : Floats F) (value : Json F) : Except String String := do
  let canonicalText ← dumpJson P.unicode N value
  pure (P.sha256 canonicalText)

section

variable {P : Platform} {N : Floats F}

lemma canonicalHashJson_eq_ok {value : Json F} {hash : String} :
    canonicalHashJson P N value = .ok hash ↔
      ValidJson P.unicode N none value ∧ P.sha256 ((sortKeys value).print N) = hash := by
  rw [canonicalHashJson, Checks.bind_eq_ok]
  constructor
  · rintro ⟨text, htext, hhash⟩
    obtain ⟨hvalid, rfl⟩ := dumpJson_eq_ok.mp htext
    exact ⟨hvalid, Checks.pure_eq_ok.mp hhash⟩
  · rintro ⟨hvalid, rfl⟩
    exact ⟨_, dumpJson_eq_ok.mpr ⟨hvalid, rfl⟩, rfl⟩

/-- The numbers of a valid value are finite. -/
lemma wellFormed_of_validJson {U : UnicodeData} {value : Json F} (hdicts : Dicts value) :
    ∀ {fieldName : Option Text}, ValidJson U N fieldName value → WellFormed N value := by
  induction hdicts with
  | null => exact fun _ => .null
  | bool b => exact fun _ => .bool b
  | int i => exact fun _ => .int i
  | float x => exact fun hvalid => .float (Checks.require_eq_ok.mp hvalid)
  | str s => exact fun _ => .str s
  | arr h ih => exact fun hvalid => .arr fun item hitem => ih item hitem (validJson_arr.mp hvalid item hitem)
  | obj hnames h ih =>
      exact fun hvalid => .obj hnames fun m hm => ih m hm (validJson_obj.mp hvalid m hm).2

/-- Well-formed values of one text are one value. -/
lemma print_inj {a b : Json F} (ha : WellFormed N a) (hb : WellFormed N b) :
    a.print N = b.print N ↔ a = b := by
  constructor
  · intro h
    exact Option.some.inj ((Json.read_print ha).symm.trans (h ▸ Json.read_print hb))
  · rintro rfl
    rfl

/-- A value agrees with its canonical form. -/
lemma alike_sortKeys {value : Json F} (h : Dicts value) :
    Alike SameSpelling (sortKeys value) value := by
  induction h with
  | @arr items h ih =>
      rw [sortKeys_arr]
      refine .arr (List.length_map _) fun i x y hx hy => ?_
      rw [List.getElem?_map, hy, Option.map_some, Option.some.injEq] at hx
      exact hx ▸ ih y (List.mem_of_getElem? hy)
  | @obj members hnames h ih =>
      rw [sortKeys_obj]
      have hmem : ∀ m, m ∈ KeySort.sortBy Prod.fst (members.map fun m => (m.1, sortKeys m.2)) ↔
          ∃ m' ∈ members, (m'.1, sortKeys m'.2) = m := fun m => by
        rw [KeySort.mem_sortBy, List.mem_map]
      refine .obj (fun k => ?_) fun k x y hx hy => ?_
      · have hperm := (KeySort.sortBy_perm Prod.fst
          (members.map fun m => (m.1, sortKeys m.2))).map Prod.fst
        rw [hperm.mem_iff, List.map_map]
        rfl
      · obtain ⟨⟨k', x'⟩, hx', heq⟩ := (hmem _).mp hx
        obtain ⟨rfl, rfl⟩ := Prod.mk.inj heq
        have hsame := List.inj_on_of_nodup_map (nodup_names hnames) hx' hy rfl
        obtain rfl := (Prod.mk.inj hsame).2
        exact ih _ hy
  | _ => exact .scalar ⟨rfl, rfl⟩

/-- A text is loaded exactly when it is a JSON text that names no member of an object twice and its
value is valid. -/
lemma loadIjson_eq_ok {U : UnicodeData} {text : Text} {value : Json F} :
    loadIjson U N text = .ok value ↔
      JsonText N text value ∧ Dicts value ∧ ValidJson U N none value := by
  rw [← and_assoc, ← Json.read_eq_some_iff, loadIjson]
  cases hread : Json.read N text with
  | none => simp
  | some read =>
      dsimp only
      rw [Checks.check_bind_eq_ok, Checks.pure_eq_ok, Option.some.injEq, ValidJson]
      constructor
      · rintro ⟨hvalid, rfl⟩
        exact ⟨rfl, hvalid⟩
      · rintro ⟨rfl, hvalid⟩
        exact ⟨hvalid, rfl⟩

/-- What was dumped is loaded, up to the order of members; values have one hash exactly when they
agree up to the order of members, integers and other numbers kept apart; and a text is loaded exactly
when it is a JSON text without duplicate names whose value is valid. -/
theorem ijson_canonical (hP : Function.Injective P.sha256) :
    (∀ (value : Json F) (text : Text), Dicts value → dumpJson P.unicode N value = .ok text →
      ∃ loaded, loadIjson P.unicode N text = .ok loaded ∧ Alike SameSpelling loaded value) ∧
    (∀ (a b : Json F) (hash hash' : String), Dicts a → Dicts b →
      canonicalHashJson P N a = .ok hash → canonicalHashJson P N b = .ok hash' →
        (hash = hash' ↔ Alike SameSpelling a b)) ∧
    ∀ (text : Text) (value : Json F), loadIjson P.unicode N text = .ok value ↔
      JsonText N text value ∧ Dicts value ∧ ValidJson P.unicode N none value := by
  refine ⟨fun value text hdicts hdump => ?_, fun a b hash hash' ha hb hhash hhash' => ?_,
    fun text value => loadIjson_eq_ok⟩
  · have hwell := wellFormed_of_validJson hdicts (dumpJson_eq_ok.mp hdump).1
    exact ⟨_, loadIjson_dumpJson hwell hdump, alike_sortKeys hdicts⟩
  · obtain ⟨hvalid, rfl⟩ := canonicalHashJson_eq_ok.mp hhash
    obtain ⟨hvalid', rfl⟩ := canonicalHashJson_eq_ok.mp hhash'
    rw [hP.eq_iff, print_inj (wellFormed_sortKeys (wellFormed_of_validJson ha hvalid))
      (wellFormed_sortKeys (wellFormed_of_validJson hb hvalid')), sortKeys_eq_iff ha hb]

end

/-- The platform whose digest is the text itself. -/
def identityPlatform : Platform := { latinPlatform with sha256 := String.ofList }

lemma identityPlatform_sha256 : Function.Injective identityPlatform.sha256 :=
  fun _ _ h => String.ofList_inj.mp h

theorem ijson_canonical_tenths :
    (∀ (value : Json ℕ) (text : Text), Dicts value →
      dumpJson identityPlatform.unicode tenths value = .ok text →
        ∃ loaded, loadIjson identityPlatform.unicode tenths text = .ok loaded ∧
          Alike SameSpelling loaded value) ∧
    (∀ (a b : Json ℕ) (hash hash' : String), Dicts a → Dicts b →
      canonicalHashJson identityPlatform tenths a = .ok hash →
        canonicalHashJson identityPlatform tenths b = .ok hash' →
          (hash = hash' ↔ Alike SameSpelling a b)) ∧
    ∀ (text : Text) (value : Json ℕ), loadIjson identityPlatform.unicode tenths text = .ok value ↔
      JsonText tenths text value ∧ Dicts value ∧ ValidJson identityPlatform.unicode tenths none value :=
  ijson_canonical identityPlatform_sha256

/-- Zero has two hashes: one as an integer, one with a point. -/
theorem zero_hashed_twice : ¬∀ (a b : Json ℕ) (hash hash' : String), Dicts a → Dicts b →
    canonicalHashJson identityPlatform tenths a = .ok hash →
      canonicalHashJson identityPlatform tenths b = .ok hash' →
        (hash = hash' ↔ Alike (SameNumber fun x : ℕ => (x / 10 : ℚ)) a b) := by
  intro h
  have hint : canonicalHashJson identityPlatform tenths (.int 0) = .ok "0" := by decide
  have hfloat : canonicalHashJson identityPlatform tenths (.float 0) = .ok "0.0" := by decide
  have halike : Alike (SameNumber fun x : ℕ => (x / 10 : ℚ)) (.int 0) (.float 0) :=
    .scalar (.inr ⟨0, by simp [Json.number?], by simp [Json.number?]⟩)
  exact absurd ((h _ _ _ _ (.int 0) (.float 0) hint hfloat).mpr halike) (by decide)

end Memorist
