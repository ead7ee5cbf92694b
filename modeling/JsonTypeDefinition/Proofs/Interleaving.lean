import Mathlib.Data.List.Basic
import Mathlib.Data.List.Perm.Basic

/-!
# Interleavings

A list interleaves parts if each of its items comes from one part and those from one part keep their
order. Two lists that interleave the same parts hold the same items.
-/

namespace JsonTypeDefinition.Proofs

section Interleaving

variable {ι α β : Type} [DecidableEq ι]

/-- The items of a list whose items have labels that have the label `i`. -/
def labelled (pairs : List (ι × α)) (i : ι) : List α :=
  (pairs.filter fun pair => pair.1 = i).map Prod.snd

/-- The items of `whole` have labels such that those with one label are a part, in its order. -/
def Interleaves (parts : ι → List α) (whole : List α) : Prop :=
  ∃ pairs : List (ι × α), pairs.map Prod.snd = whole ∧ ∀ i, labelled pairs i = parts i

variable {parts others : ι → List α} {whole more : List α}

lemma interleaves_congr (h : Interleaves parts whole) (he : ∀ i, parts i = others i) :
    Interleaves others whole := by
  obtain ⟨pairs, hwhole, hparts⟩ := h
  exact ⟨pairs, hwhole, fun i => (hparts i).trans (he i)⟩

lemma interleaves_nil : Interleaves (fun _ : ι => ([] : List α)) [] :=
  ⟨[], rfl, fun _ => rfl⟩

lemma interleaves_append (h : Interleaves parts whole) (hmore : Interleaves others more) :
    Interleaves (fun i => parts i ++ others i) (whole ++ more) := by
  obtain ⟨pairs, rfl, hparts⟩ := h
  obtain ⟨rest, rfl, hothers⟩ := hmore
  refine ⟨pairs ++ rest, List.map_append, fun i => ?_⟩
  rw [labelled, List.filter_append, List.map_append, ← labelled, ← labelled, hparts, hothers]

lemma interleaves_single (i : ι) (items : List α) :
    Interleaves (fun j => if i = j then items else []) items := by
  refine ⟨items.map fun item => (i, item), by simp [Function.comp_def], fun j => ?_⟩
  rw [labelled, List.filter_map, List.map_map]
  by_cases h : i = j <;> simp [h, Function.comp_def]

lemma interleaves_flatMap (items : List β) {partsOf : β → ι → List α} {wholeOf : β → List α}
    (h : ∀ item ∈ items, Interleaves (partsOf item) (wholeOf item)) :
    Interleaves (fun i => items.flatMap fun item => partsOf item i) (items.flatMap wholeOf) := by
  induction items with
  | nil => exact interleaves_nil
  | cons item rest ih =>
    have hrest := ih fun other hother => h other (List.mem_cons_of_mem _ hother)
    simp only [List.flatMap_cons]
    exact interleaves_append (h item List.mem_cons_self) hrest

theorem interleaves_perm (h : Interleaves parts whole) (hmore : Interleaves parts more) :
    whole.Perm more := by
  classical
  obtain ⟨pairs, rfl, hparts⟩ := h
  obtain ⟨rest, rfl, hrest⟩ := hmore
  have hfilter : ∀ (list : List (ι × α)) i, (list.filter fun pair => pair.1 = i) =
      (labelled list i).map fun item => (i, item) := by
    intro list i
    rw [labelled, List.map_map]
    refine (List.map_id _).symm.trans (List.map_congr_left fun pair hpair => ?_)
    have hlabel : pair.1 = i := by simpa using (List.mem_filter.mp hpair).2
    rw [Function.comp_apply, ← hlabel, id]
  have hcount : ∀ (list : List (ι × α)) pair,
      list.count pair = (list.filter fun other => other.1 = pair.1).count pair := by
    intro list pair
    rw [List.count_filter (by simp)]
  refine List.Perm.map _ (List.perm_iff_count.mpr fun pair => ?_)
  rw [hcount, hcount rest, hfilter, hfilter rest, hparts, hrest]

end Interleaving

end JsonTypeDefinition.Proofs
