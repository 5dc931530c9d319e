import Memorist.Library.Table

/-!
Tables whose rows lose their content.

* `Redacts`: the rows of a table come from those of an earlier one, with the same keys and owners,
  and those that were blank or are named are blank;
* `Redacts.refl`, `Redacts.trans`, `Redacts.mono`: several redactions;
* `Redacts.updateWhere`: a statement that blanks rows.
-/

namespace Table

variable {ρ κ ω : Type} {key : ρ → κ}

/-- Each row of the later table comes from a row of the earlier one with the same key and owner, and
is blank if that one was blank or is named. -/
def Redacts (owner : ρ → ω) (IsBlank : ρ → Prop) (named : κ → Prop) (t t' : Table ρ κ key) : Prop :=
  ∀ r' ∈ t'.rows, ∃ r ∈ t.rows, key r' = key r ∧ owner r' = owner r ∧
    (IsBlank r ∨ named (key r) → IsBlank r')

namespace Redacts

variable {owner : ρ → ω} {IsBlank : ρ → Prop} {named named' : κ → Prop} {t t' t'' : Table ρ κ key}

lemma refl (t : Table ρ κ key) : Redacts owner IsBlank (fun _ => False) t t :=
  fun r hr => ⟨r, hr, rfl, rfl, fun h => h.resolve_right id⟩

lemma mono (h : Redacts owner IsBlank named t t') (hsub : ∀ k, named' k → named k) :
    Redacts owner IsBlank named' t t' := by
  intro r' hr'
  obtain ⟨r, hr, hkey, howner, hblank⟩ := h r' hr'
  exact ⟨r, hr, hkey, howner, fun hr => hblank (hr.imp_right (hsub _))⟩

lemma trans (h : Redacts owner IsBlank named t t') (h' : Redacts owner IsBlank named' t' t'') :
    Redacts owner IsBlank (fun k => named k ∨ named' k) t t'' := by
  intro r'' hr''
  obtain ⟨r', hr', hkey', howner', hblank'⟩ := h' r'' hr''
  obtain ⟨r, hr, hkey, howner, hblank⟩ := h r' hr'
  refine ⟨r, hr, hkey'.trans hkey, howner'.trans howner, fun hr => hblank' ?_⟩
  rcases hr with hr | hr | hr
  · exact .inl (hblank (.inl hr))
  · exact .inl (hblank (.inr hr))
  · exact .inr (hkey ▸ hr)

/-- A statement that blanks the rows of a condition. -/
lemma updateWhere {p : ρ → Bool} {f : ρ → ρ} (hf : ∀ r, key (f r) = key r)
    (howner : ∀ r, owner (f r) = owner r) (hblank : ∀ r, IsBlank (f r))
    (hnamed : ∀ r, named (key r) → p r) : Redacts owner IsBlank named t (t.updateWhere p f hf) := by
  intro r' hr'
  obtain ⟨r, hr, rfl⟩ := List.mem_map.mp hr'
  refine ⟨r, hr, ?_⟩
  split_ifs with hp
  · exact ⟨hf r, howner r, fun _ => hblank r⟩
  · exact ⟨rfl, rfl, fun h => h.resolve_right fun hname => hp (hnamed r hname)⟩

end Redacts

end Table
