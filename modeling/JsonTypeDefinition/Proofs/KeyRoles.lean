import JsonTypeDefinition.Proofs.KeySorting
import JsonTypeDefinition.Proofs.Members

/-!
# Schema objects of one form

Sorting keys settles on a form if all form keys are keys of it. Where no key is repeated, that is
all it takes.
-/

namespace JsonTypeDefinition.Proofs

def formKeys : Form → List String
  | .empty => []
  | .type => ["type"]
  | .enum => ["enum"]
  | .elements => ["elements"]
  | .properties => ["properties", "optionalProperties"]
  | .values => ["values"]
  | .discriminator => ["discriminator"]
  | .ref => ["ref"]

lemma ofKey?_eq_some_iff {key : String} {form : Form} :
    Form.ofKey? key = some form ↔ key ∈ formKeys form := by
  constructor
  · intro h
    unfold Form.ofKey? at h
    split_ifs at h with htype henum helements hproperties hoptional hvalues hdiscriminator href
    all_goals cases h
    · exact List.mem_singleton.mpr htype
    · exact List.mem_singleton.mpr henum
    · exact List.mem_singleton.mpr helements
    · exact List.mem_cons.mpr (.inl hproperties)
    · exact List.mem_cons_of_mem _ (List.mem_singleton.mpr hoptional)
    · exact List.mem_singleton.mpr hvalues
    · exact List.mem_singleton.mpr hdiscriminator
    · exact List.mem_singleton.mpr href
  · intro h
    cases form <;> simp only [formKeys, List.mem_cons, List.not_mem_nil, or_false] at h
    case properties => rcases h with rfl | rfl <;> decide
    all_goals
      subst h
      decide

lemma ofKey?_eq_name {key : String} {form : Form} (h : Form.ofKey? key = some form)
    (hp : form ≠ .properties) : key = form.name := by
  have hmem := ofKey?_eq_some_iff.mp h
  cases form with
  | empty => cases hmem
  | properties => exact absurd rfl hp
  | _ => exact List.mem_singleton.mp hmem

/-- The form keys of an object are keys of `form`, and it has one unless the form is empty. -/
structure HasForm (keys : List String) (form : Form) : Prop where
  only : ∀ key ∈ keys, ∀ other, Form.ofKey? key = some other → other = form
  some_key : form ≠ .empty → ∃ key ∈ keys, Form.ofKey? key = some form

lemma hasForm_of_ofKeys {keys declared : List String} {sorted : FormKeys}
    (h : KeyGroups.ofKeys keys declared = .ofForm sorted) :
    HasForm keys sorted.form ∧ sorted = KeyGroups.sortedFor sorted.form keys declared := by
  rw [ofKeys_eq] at h
  split at h
  · rename_i hforms
    injection h with h
    subst h
    refine ⟨⟨?_, fun he => absurd rfl he⟩, rfl⟩
    intro key hk other ho
    have hm : other ∈ keys.filterMap Form.ofKey? := List.mem_filterMap.mpr ⟨key, hk, ho⟩
    simp [hforms] at hm
  · rename_i form others hforms
    split at h
    · rename_i hagree
      injection h with h
      subst h
      refine ⟨⟨?_, fun _ => ?_⟩, rfl⟩
      · intro key hk other ho
        have hm : other ∈ keys.filterMap Form.ofKey? := List.mem_filterMap.mpr ⟨key, hk, ho⟩
        rw [hforms] at hm
        rcases List.mem_cons.mp hm with he | hr
        · exact he
        · have ha := List.all_eq_true.mp hagree other hr
          simp only [KeyGroups.agree, Bool.and_eq_true, beq_iff_eq] at ha
          exact ha.1.symm
      · have hm : form ∈ keys.filterMap Form.ofKey? := by simp [hforms]
        exact List.mem_filterMap.mp hm
    · cases h

lemma single_form_key {keys : List String} {form head : Form} {others : List Form}
    (hn : keys.Nodup) (h : HasForm keys form) (hp : form ≠ .properties)
    (hforms : keys.filterMap Form.ofKey? = head :: others) : others = [] := by
  have hpair : (keys.filterMap Form.ofKey?).Pairwise fun _ _ => False := by
    refine List.pairwise_filterMap.mpr (List.Pairwise.imp_of_mem ?_ hn)
    intro key other hk ho hne f hf g hg
    have hff := h.only key hk f hf
    have hgf := h.only other ho g hg
    subst hff
    exact hne ((ofKey?_eq_name hf hp).trans (ofKey?_eq_name (hgf ▸ hg) hp).symm)
  rw [hforms] at hpair
  exact List.eq_nil_iff_forall_not_mem.mpr (List.pairwise_cons.mp hpair).1

theorem ofKeys_of_hasForm {keys : List String} {form : Form} (hn : keys.Nodup)
    (h : HasForm keys form) (declared : List String) :
    KeyGroups.ofKeys keys declared = .ofForm (KeyGroups.sortedFor form keys declared) := by
  have hmem : ∀ other ∈ keys.filterMap Form.ofKey?, other = form := by
    intro other ho
    obtain ⟨key, hk, hko⟩ := List.mem_filterMap.mp ho
    exact h.only key hk other hko
  rw [ofKeys_eq]
  cases hforms : keys.filterMap Form.ofKey? with
  | nil =>
    have he : form = .empty := by
      by_contra hne
      obtain ⟨key, hk, hko⟩ := h.some_key hne
      have hm : form ∈ keys.filterMap Form.ofKey? := List.mem_filterMap.mpr ⟨key, hk, hko⟩
      simp [hforms] at hm
    simp [he]
  | cons head others =>
    have hh : head = form := hmem head (by simp [hforms])
    have hall : others.all (KeyGroups.agree head) = true := by
      by_cases hp : form = .properties
      · refine List.all_eq_true.mpr fun other ho => ?_
        have hof := hmem other (by simp [hforms, ho])
        simp [KeyGroups.agree, hh, hof, hp]
      · simp [single_form_key hn h hp hforms]
    dsimp only
    rw [if_pos hall, hh]

end JsonTypeDefinition.Proofs
