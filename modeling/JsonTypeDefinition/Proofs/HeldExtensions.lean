import JsonTypeDefinition.Proofs.ErrorPlans
import JsonTypeDefinition.Proofs.Interleaving
import Mathlib.Data.List.Induction
import Mathlib.Data.List.Nodup

/-!
# The extensions of a compilation

Extensions are told apart by their names. Of those that are enabled one after another, the first of
each name is kept, and what they add to a schema object is what each of them adds, in order.
-/

namespace JsonTypeDefinition.Proofs

/-- The extensions of a list that no earlier one shares its name with. -/
def firstOfName (calls : List Extension) : List Extension :=
  calls.zipIdx.filterMap fun (extension, i) =>
    if (calls.take i).any fun earlier => earlier.name == extension.name then none
    else some extension

section Held

variable {calls : List Extension} {extension : Extension}

lemma ofExtensions_append (calls : List Extension) (extension : Extension) :
    Options.ofExtensions (calls ++ [extension]) =
      (Options.ofExtensions calls).withExtension extension := by
  rw [Options.ofExtensions, List.foldl_append]
  rfl

lemma any_ofExtensions (calls : List Extension) (name : String) :
    (Options.ofExtensions calls).extensions.any (fun other => other.name == name) =
      calls.any fun other => other.name == name := by
  induction calls using List.reverseRecOn with
  | nil => rfl
  | append_singleton calls extension ih =>
    rw [ofExtensions_append, Options.withExtension, List.any_append, ← ih]
    split
    · rename_i h
      by_cases hname : extension.name = name
      · rw [hname] at h
        rw [h, Bool.true_or]
      · simp [hname]
    · rw [List.any_append]

lemma firstOfName_append (calls : List Extension) (extension : Extension) :
    firstOfName (calls ++ [extension]) = firstOfName calls ++
      if calls.any fun earlier => earlier.name == extension.name then [] else [extension] := by
  have hearlier : ∀ pair ∈ calls.zipIdx,
      (calls ++ [extension]).take pair.2 = calls.take pair.2 := by
    intro pair hpair
    exact List.take_append_of_le_length (Nat.le_of_lt (List.snd_lt_of_mem_zipIdx hpair))
  have hlast : (calls ++ [extension]).take calls.length = calls := List.take_left
  rw [firstOfName, List.zipIdx_append, List.filterMap_append]
  congr 1
  · refine List.filterMap_congr fun pair hpair => ?_
    dsimp only
    rw [hearlier pair hpair]
  · rw [Nat.zero_add, List.zipIdx_singleton, List.filterMap_cons]
    dsimp only
    rw [hlast]
    split_ifs <;> rfl

theorem ofExtensions_holds (calls : List Extension) :
    (Options.ofExtensions calls).extensions = firstOfName calls := by
  induction calls using List.reverseRecOn with
  | nil => rfl
  | append_singleton calls extension ih =>
    rw [ofExtensions_append, firstOfName_append, ← ih, ← any_ofExtensions, Options.withExtension]
    split
    · exact (List.append_nil _).symm
    · rfl

lemma names_nodup (calls : List Extension) : ((firstOfName calls).map (·.name)).Nodup := by
  induction calls using List.reverseRecOn with
  | nil => exact List.nodup_nil
  | append_singleton calls extension ih =>
    rw [firstOfName_append]
    split
    · rwa [List.append_nil]
    · rename_i h
      rw [← any_ofExtensions, ofExtensions_holds] at h
      rw [List.map_append, List.nodup_append']
      refine ⟨ih, List.nodup_singleton _, ?_⟩
      rw [List.map_singleton, List.disjoint_singleton]
      rintro hm
      obtain ⟨other, hother, hname⟩ := List.mem_map.mp hm
      exact h (List.any_eq_true.mpr ⟨other, hother, beq_iff_eq.mpr hname⟩)

end Held

section Contributions

variable {extensions others : List Extension}

def only (extension : Extension) : Options :=
  { extensions := [extension] }

lemma contribution_each (options : Options) (form : Form) (members : Members) (path : Path) :
    (options.contribution form members path).faults = options.extensions.flatMap (fun extension =>
        ((only extension).contribution form members path).faults) ∧
      (options.contribution form members path).supplements = options.extensions.flatMap
        fun extension => ((only extension).contribution form members path).supplements := by
  simp only [Options.contribution, Options.hooksFor, only, List.flatMap_singleton,
    List.filterMap_flatMap, List.map_flatMap, List.flatMap_assoc, and_self]

lemma flatMap_named {α : Type} (name : String) (found : Extension → List α) :
    (extensions.flatMap fun extension => if extension.name = name then found extension else []) =
      (extensions.filter fun extension => extension.name = name).flatMap found := by
  induction extensions with
  | nil => rfl
  | cons extension rest ih =>
    rw [List.flatMap_cons, ih, List.filter_cons]
    by_cases h : extension.name = name <;> simp [h]

lemma named_perm (h : extensions.Perm others) (hd : (extensions.map (·.name)).Nodup)
    (name : String) : (extensions.filter fun extension => extension.name = name) =
      others.filter fun extension => extension.name = name := by
  have hperm := h.filter fun extension => decide (extension.name = name)
  have hnodup := (List.filter_sublist (p := fun extension => decide (extension.name = name))
    (l := extensions)).map (·.name) |>.nodup hd
  have hnames : ∀ extension ∈ extensions.filter (fun extension => decide (extension.name = name)),
      extension.name = name := fun extension he => by simpa using (List.mem_filter.mp he).2
  generalize extensions.filter (fun extension => decide (extension.name = name)) = found at *
  match found with
  | [] => exact (List.nil_perm.mp hperm).symm
  | [extension] => exact List.singleton_perm.mp hperm
  | first :: second :: rest =>
    have hfirst := hnames first List.mem_cons_self
    have hsecond := hnames second (List.mem_cons_of_mem _ List.mem_cons_self)
    rw [List.map_cons, List.map_cons, hfirst, hsecond] at hnodup
    exact absurd List.mem_cons_self (List.nodup_cons.mp hnodup).1

lemma flatMap_perm_named {α : Type} (h : extensions.Perm others)
    (hd : (extensions.map (·.name)).Nodup) (name : String) (found : Extension → List α) :
    (extensions.flatMap fun extension => if extension.name = name then found extension else []) =
      others.flatMap fun extension => if extension.name = name then found extension else [] := by
  rw [flatMap_named, flatMap_named, named_perm h hd]

lemma declared_perm {options other : Options} (h : options.extensions.Perm other.extensions)
    (key : String) : key ∈ other.declared ↔ key ∈ options.declared := by
  rw [Options.declared, Options.declared, List.mem_flatMap, List.mem_flatMap]
  simp only [h.mem_iff]

end Contributions

end JsonTypeDefinition.Proofs
