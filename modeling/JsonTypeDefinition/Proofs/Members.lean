import JsonTypeDefinition.Json.Basic
import Mathlib.Data.List.Basic
import Mathlib.Tactic.Lemma

/-!
# Members of objects

Looking up keys, and induction over the values inside a value. `distinctKeys` holds of the values
that documents denote: no object in them repeats a key.
-/

namespace JsonTypeDefinition.Proofs

section Lookup

variable {members : Members} {key : String} {value : Json}

lemma get?_mem (h : members.get? key = some value) : (key, value) ∈ members := by
  obtain ⟨before, after, he, -⟩ := List.lookup_eq_some_iff.mp h
  simp [he]

lemma get?_eq_none_iff : members.get? key = none ↔ key ∉ Members.keys members := by
  simp only [Members.get?, Members.keys, List.lookup_eq_none_iff, List.mem_map, bne_iff_ne]
  constructor
  · rintro h ⟨member, hm, rfl⟩
    exact h member hm rfl
  · exact fun h member hm he => h ⟨member, hm, he.symm⟩

lemma has_iff_mem_keys : members.has key = true ↔ key ∈ Members.keys members := by
  rw [Members.has, Option.isSome_iff_ne_none, Ne, get?_eq_none_iff, not_not]

lemma get?_cons (k : String) (v : Json) (rest : List (String × Json)) :
    Members.get? ((k, v) :: rest) key = if k = key then some v else Members.get? rest key := by
  rw [Members.get?, List.lookup_cons]
  by_cases h : k = key
  · simp [h]
  · have hk : (key == k) = false := beq_false_of_ne (Ne.symm h)
    simp only [hk, if_neg h, Members.get?]

lemma lookup_of_mem {α : Type} {pairs : List (String × α)} {a : α}
    (h : (pairs.map Prod.fst).Nodup) (hm : (key, a) ∈ pairs) : pairs.lookup key = some a := by
  induction pairs with
  | nil => cases hm
  | cons pair rest ih =>
    obtain ⟨name, other⟩ := pair
    obtain ⟨hnew, hrest⟩ := List.nodup_cons.mp h
    rw [List.lookup_cons]
    rcases List.mem_cons.mp hm with he | hm
    · cases he
      rw [beq_self_eq_true]
    · have hkey : key ∈ rest.map Prod.fst := List.mem_map_of_mem hm
      have hne : key ≠ name := fun he => hnew (he ▸ hkey)
      rw [beq_false_of_ne hne]
      exact ih hrest hm

lemma get?_of_mem (h : (Members.keys members).Nodup) (hm : (key, value) ∈ members) :
    members.get? key = some value :=
  lookup_of_mem h hm

end Lookup

lemma sizeOf_member_lt {members : Members} {key : String} {value : Json}
    (h : (key, value) ∈ members) : sizeOf value < sizeOf (Json.object members) := by
  have hm := List.sizeOf_lt_of_mem h
  simp only [Prod.mk.sizeOf_spec, Json.object.sizeOf_spec] at hm ⊢
  omega

/-- The members of the object that a look-up gives, none if it gives no object. -/
def entriesIn : Option Json → Members
  | some (.object entries) => entries
  | _ => []

lemma sizeOf_entry_lt {members : Members} {key name : String} {value : Json}
    (h : (name, value) ∈ entriesIn (members.get? key)) :
    sizeOf value < sizeOf (Json.object members) := by
  cases hf : members.get? key with
  | none => simp [hf, entriesIn] at h
  | some found =>
    rw [hf] at h
    cases found with
    | object entries => exact Nat.lt_trans (sizeOf_member_lt h) (sizeOf_member_lt (get?_mem hf))
    | _ => simp [entriesIn] at h

/-- Induction on values: what holds of a value if it holds of all smaller ones holds always. -/
theorem value_induction {motive : Json → Prop}
    (step : ∀ value, (∀ part, sizeOf part < sizeOf value → motive part) → motive value)
    (value : Json) : motive value :=
  (measure sizeOf).wf.induction value step

mutual

/-- Whether no object in a value repeats a key. -/
def distinctKeys : Json → Bool
  | .array items => distinctInItems items
  | .object members => (Members.keys members).Nodup && distinctInMembers members
  | _ => true

def distinctInItems : List Json → Bool
  | [] => true
  | item :: rest => distinctKeys item && distinctInItems rest

def distinctInMembers : List (String × Json) → Bool
  | [] => true
  | (_, value) :: rest => distinctKeys value && distinctInMembers rest

end

lemma distinctInItems_iff (items : List Json) :
    distinctInItems items = true ↔ ∀ item ∈ items, distinctKeys item := by
  induction items with
  | nil => simp [distinctInItems]
  | cons item rest ih => simp [distinctInItems, ih]

lemma distinctInMembers_iff (members : Members) :
    distinctInMembers members = true ↔
      ∀ key value, (key, value) ∈ members → distinctKeys value := by
  induction members with
  | nil => simp [distinctInMembers]
  | cons member rest ih =>
    rw [distinctInMembers, Bool.and_eq_true, ih]
    grind

lemma distinctKeys_object {members : Members} (h : distinctKeys (.object members)) :
    (Members.keys members).Nodup ∧ ∀ key value, (key, value) ∈ members → distinctKeys value := by
  rw [distinctKeys, Bool.and_eq_true, distinctInMembers_iff] at h
  exact ⟨by simpa using h.1, h.2⟩

lemma distinctKeys_get? {members : Members} {key : String} {value : Json}
    (h : distinctKeys (.object members)) (hv : members.get? key = some value) :
    distinctKeys value :=
  (distinctKeys_object h).2 key value (get?_mem hv)

end JsonTypeDefinition.Proofs
