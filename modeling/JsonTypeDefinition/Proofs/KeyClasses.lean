import JsonTypeDefinition.Proofs.KeyRoles
import Mathlib.Data.List.Basic

/-!
# What keys sort into

Keys are ambiguous if two of them clash, wherever they stand. Otherwise the form is the one that
its form keys tell, and every other key is looked at by itself. The order of the keys makes no
difference but to the order of the keys that are listed.
-/

namespace JsonTypeDefinition.Proofs
open KeyGroups

def allFormKeys : List String :=
  Form.all.flatMap formKeys

/-- The keys without a form that schemas of a form understand. -/
def roleKeys : Form → List String
  | .properties => ["nullable", "metadata", "definitions", "additionalProperties"]
  | .discriminator => ["nullable", "metadata", "definitions", "mapping"]
  | _ => ["nullable", "metadata", "definitions"]

/-- Two form keys do not go together. Even a key that comes twice does not, except for the two keys
of the properties form. -/
structure Clash (key other : String) : Prop where
  first : key ∈ allFormKeys
  second : other ∈ allFormKeys
  apart : ¬ (key ∈ formKeys .properties ∧ other ∈ formKeys .properties)

def HasClash (keys : List String) : Prop :=
  ∃ (i j : Nat) (key other : String), i < j ∧ keys[i]? = some key ∧ keys[j]? = some other ∧ Clash key other

/-- Keys of one form, sorted by their role. -/
structure SortsInto (keys declared : List String) (sorted : FormKeys) : Prop where
  form : HasForm keys sorted.form
  nullable : sorted.nullable = true ↔ "nullable" ∈ keys
  metadata : sorted.metadata = true ↔ "metadata" ∈ keys
  definitions : sorted.definitions = true ↔ "definitions" ∈ keys
  properties : sorted.properties = true ↔ "properties" ∈ keys
  optionalProperties : sorted.optionalProperties = true ↔ "optionalProperties" ∈ keys
  additionalProperties : sorted.additionalProperties = true ↔
    sorted.form = .properties ∧ "additionalProperties" ∈ keys
  mapping : sorted.mapping = true ↔ sorted.form = .discriminator ∧ "mapping" ∈ keys
  unrecognized : sorted.unrecognized = keys.filter fun key =>
    key ∉ allFormKeys ∧ key ∉ roleKeys sorted.form ∧ key ∉ declared

/-- The outcome of sorting keys, next to those that are declared. -/
inductive Sorts (keys declared : List String) : KeyGroups → Prop where
  | ambiguous (hclash : HasClash keys) :
      Sorts keys declared (.ambiguous (keys.filter (· ∈ allFormKeys)))
  | ofForm {sorted : FormKeys} (hclash : ¬ HasClash keys) (hsorted : SortsInto keys declared sorted) :
      Sorts keys declared (.ofForm sorted)

/-- Two outcomes differ at most in the order of the keys that they list. -/
inductive SameGroups : KeyGroups → KeyGroups → Prop where
  | ambiguous {found other : List String} (h : found.Perm other) :
      SameGroups (.ambiguous found) (.ambiguous other)
  | ofForm {sorted : FormKeys} {unrecognized : List String}
      (h : sorted.unrecognized.Perm unrecognized) :
      SameGroups (.ofForm sorted) (.ofForm { sorted with unrecognized })

section Clashes

variable {keys : List String} {key other : String}

lemma mem_allFormKeys_iff : key ∈ allFormKeys ↔ ∃ form, Form.ofKey? key = some form := by
  simp only [allFormKeys, List.mem_flatMap, ofKey?_eq_some_iff]
  constructor
  · rintro ⟨form, -, hkey⟩
    exact ⟨form, hkey⟩
  · rintro ⟨form, hkey⟩
    exact ⟨form, by cases form <;> decide, hkey⟩

lemma agree_iff {form next : Form} :
    agree form next = true ↔ form = .properties ∧ next = .properties := by
  rw [agree, Bool.and_eq_true, beq_iff_eq, beq_iff_eq]
  constructor
  · rintro ⟨rfl, rfl⟩
    exact ⟨rfl, rfl⟩
  · rintro ⟨rfl, rfl⟩
    exact ⟨rfl, rfl⟩

lemma not_clash_iff : ¬ Clash key other ↔ ∀ form, Form.ofKey? key = some form →
    ∀ next, Form.ofKey? other = some next → agree form next = true := by
  simp only [agree_iff]
  constructor
  · intro h form hform next hnext
    have hboth : key ∈ formKeys .properties ∧ other ∈ formKeys .properties := by
      by_contra hapart
      exact h ⟨mem_allFormKeys_iff.mpr ⟨form, hform⟩, mem_allFormKeys_iff.mpr ⟨next, hnext⟩, hapart⟩
    rw [← ofKey?_eq_some_iff, ← ofKey?_eq_some_iff, hform, hnext] at hboth
    exact ⟨Option.some.inj hboth.1, Option.some.inj hboth.2⟩
  · rintro h ⟨hfirst, hsecond, hapart⟩
    obtain ⟨form, hform⟩ := mem_allFormKeys_iff.mp hfirst
    obtain ⟨next, hnext⟩ := mem_allFormKeys_iff.mp hsecond
    obtain ⟨rfl, rfl⟩ := h form hform next hnext
    exact hapart ⟨ofKey?_eq_some_iff.mp hform, ofKey?_eq_some_iff.mp hnext⟩

lemma clash_symm (h : Clash key other) : Clash other key :=
  ⟨h.second, h.first, fun hboth => h.apart hboth.symm⟩

lemma hasClash_iff : HasClash keys ↔ ¬ keys.Pairwise fun key other => ¬ Clash key other := by
  rw [List.pairwise_iff_getElem]
  constructor
  · rintro ⟨i, j, key, other, hij, hi, hj, hclash⟩ hnone
    obtain ⟨hilt, rfl⟩ := List.getElem?_eq_some_iff.mp hi
    obtain ⟨hjlt, rfl⟩ := List.getElem?_eq_some_iff.mp hj
    exact hnone i j hilt hjlt hij hclash
  · intro h
    push Not at h
    obtain ⟨i, j, hi, hj, hij, hclash⟩ := h
    exact ⟨i, j, _, _, hij, List.getElem?_eq_getElem hi, List.getElem?_eq_getElem hj, hclash⟩

lemma pairwise_agree_iff {form : Form} {others : List Form} :
    (form :: others).Pairwise (fun first next => agree first next = true) ↔
      others.all (agree form) = true := by
  rw [List.pairwise_cons, List.all_eq_true]
  constructor
  · exact And.left
  · intro h
    refine ⟨h, List.pairwise_of_forall_mem_list ?_⟩
    intro first hfirst next hnext
    exact agree_iff.mpr ⟨(agree_iff.mp (h first hfirst)).2, (agree_iff.mp (h next hnext)).2⟩

lemma hasClash_iff_forms : HasClash keys ↔
    ¬ (keys.filterMap Form.ofKey?).Pairwise fun form next => agree form next = true := by
  rw [hasClash_iff, List.pairwise_filterMap]
  simp only [not_clash_iff]

lemma hasClash_perm {others : List String} (h : keys.Perm others) :
    HasClash keys ↔ HasClash others := by
  rw [hasClash_iff, hasClash_iff, h.pairwise_iff]
  exact fun hnot hclash => hnot (clash_symm hclash)

end Clashes

section Sorted

variable {keys declared : List String}

lemma unrecognized_iff {form : Form} {key : String} :
    ((Form.ofKey? key).isNone && !hasRole form key && !declared.contains key) = true ↔
      key ∉ allFormKeys ∧ key ∉ roleKeys form ∧ key ∉ declared := by
  have hrole : hasRole form key = true ↔ key ∈ roleKeys form := by
    cases form <;> simp [hasRole, roleKeys, or_assoc]
  have hform : (Form.ofKey? key).isNone = true ↔ key ∉ allFormKeys := by
    rw [mem_allFormKeys_iff, Option.isNone_iff_eq_none, Option.eq_none_iff_forall_ne_some]
    exact not_exists.symm
  rw [Bool.and_eq_true, Bool.and_eq_true, hform, Bool.not_eq_true', Bool.not_eq_true', and_assoc,
    ← Bool.not_eq_true, ← Bool.not_eq_true, hrole, List.contains_iff_mem]

lemma sortsInto_sortedFor {form : Form} (h : HasForm keys form) :
    SortsInto keys declared (sortedFor form keys declared) := by
  constructor
  case form => exact h
  case unrecognized =>
    refine List.filter_congr fun key _ => ?_
    rw [Bool.eq_iff_iff, unrecognized_iff, decide_eq_true_iff]
    rfl
  all_goals simp [sortedFor]

lemma allFormKeys_filter : (keys.filter fun key => (Form.ofKey? key).isSome) =
    keys.filter (· ∈ allFormKeys) := by
  refine List.filter_congr fun key _ => ?_
  rw [Bool.eq_iff_iff, Option.isSome_iff_exists, decide_eq_true_iff, mem_allFormKeys_iff]

lemma ofKeys_sorts (keys declared : List String) : Sorts keys declared (ofKeys keys declared) := by
  cases hkeys : ofKeys keys declared with
  | ofForm sorted =>
    obtain ⟨hform, hsorted⟩ := hasForm_of_ofKeys hkeys
    refine .ofForm ?_ (hsorted ▸ sortsInto_sortedFor hform)
    rw [hasClash_iff_forms, not_not]
    rw [ofKeys_eq] at hkeys
    cases hforms : keys.filterMap Form.ofKey? with
    | nil => exact .nil
    | cons form others =>
      simp only [hforms] at hkeys
      apply pairwise_agree_iff.mpr
      by_contra hdisagree
      rw [if_neg hdisagree] at hkeys
      cases hkeys
  | ambiguous found =>
    rw [ofKeys_eq] at hkeys
    cases hforms : keys.filterMap Form.ofKey? with
    | nil =>
      simp only [hforms] at hkeys
      cases hkeys
    | cons form others =>
      simp only [hforms] at hkeys
      split_ifs at hkeys with hagree
      obtain rfl := KeyGroups.ambiguous.inj hkeys
      rw [allFormKeys_filter]
      refine .ambiguous ?_
      rw [hasClash_iff_forms, hforms, pairwise_agree_iff]
      exact hagree

lemma hasForm_unique {form other : Form} (h : HasForm keys form) (ho : HasForm keys other) :
    form = other := by
  by_cases hempty : form = .empty
  · by_contra hne
    obtain ⟨key, hkey, hof⟩ := ho.some_key fun he => hne (hempty.trans he.symm)
    exact hne (h.only key hkey other hof).symm
  · obtain ⟨key, hkey, hof⟩ := h.some_key hempty
    exact ho.only key hkey form hof

lemma hasForm_perm {others : List String} {form : Form} (h : keys.Perm others)
    (hform : HasForm keys form) : HasForm others form := by
  refine ⟨fun key hkey => hform.only key (h.mem_iff.mpr hkey), fun hne => ?_⟩
  obtain ⟨key, hkey, hof⟩ := hform.some_key hne
  exact ⟨key, h.mem_iff.mp hkey, hof⟩

lemma sortsInto_perm {others : List String} {sorted resorted : FormKeys} (h : keys.Perm others)
    (hs : SortsInto keys declared sorted) (hr : SortsInto others declared resorted) :
    SameGroups (.ofForm sorted) (.ofForm resorted) := by
  have hform : sorted.form = resorted.form := hasForm_unique (hasForm_perm h hs.form) hr.form
  have hunrecognized : sorted.unrecognized.Perm resorted.unrecognized := by
    rw [hs.unrecognized, hr.unrecognized, hform]
    exact h.filter _
  have hflag : ∀ {first second : Bool} {p : Prop}, (first = true ↔ p) → (second = true ↔ p) →
      first = second := fun hfirst hsecond => Bool.eq_iff_iff.mpr (hfirst.trans hsecond.symm)
  have hadditional : resorted.additionalProperties = sorted.additionalProperties :=
    hflag hr.additionalProperties (by rw [hs.additionalProperties, hform, h.mem_iff])
  have hmapping : resorted.mapping = sorted.mapping :=
    hflag hr.mapping (by rw [hs.mapping, hform, h.mem_iff])
  have hsame : resorted = { sorted with unrecognized := resorted.unrecognized } := by
    cases sorted
    cases resorted
    rw [FormKeys.mk.injEq]
    exact ⟨hform.symm, hflag hr.nullable (hs.nullable.trans h.mem_iff),
      hflag hr.metadata (hs.metadata.trans h.mem_iff),
      hflag hr.definitions (hs.definitions.trans h.mem_iff),
      hflag hr.properties (hs.properties.trans h.mem_iff),
      hflag hr.optionalProperties (hs.optionalProperties.trans h.mem_iff), hadditional, hmapping,
      rfl⟩
  rw [hsame]
  exact .ofForm hunrecognized

lemma sorts_perm {others : List String} {groups regrouped : KeyGroups} (h : keys.Perm others)
    (hg : Sorts keys declared groups) (hr : Sorts others declared regrouped) :
    SameGroups groups regrouped := by
  cases hg with
  | ambiguous hclash =>
    cases hr with
    | ambiguous _ => exact .ambiguous (h.filter _)
    | ofForm hnone _ => exact absurd ((hasClash_perm h).mp hclash) hnone
  | ofForm hnone hsorted =>
    cases hr with
    | ambiguous hclash => exact absurd ((hasClash_perm h).mpr hclash) hnone
    | ofForm _ hresorted => exact sortsInto_perm h hsorted hresorted

end Sorted

/-- Keys sort into what they are, each by itself, and in any order. -/
theorem keys_classified (keys declared : List String) :
    Sorts keys declared (ofKeys keys declared) ∧
      ∀ others, keys.Perm others →
        SameGroups (ofKeys keys declared) (ofKeys others declared) :=
  ⟨ofKeys_sorts keys declared, fun others h =>
    sorts_perm h (ofKeys_sorts keys declared) (ofKeys_sorts others declared)⟩

/-- The mapping comes before the key that tells the form. -/
def taggedKeys : List String :=
  ["mapping", "b", "x:note", "discriminator", "a", "nullable"]

theorem taggedKeys_classified :
    taggedKeys.Perm taggedKeys.reverse ∧
      Sorts taggedKeys ["x:note"] (.ofForm
        { form := .discriminator, nullable := true, mapping := true, unrecognized := ["b", "a"] }) ∧
      SameGroups (ofKeys taggedKeys ["x:note"]) (ofKeys taggedKeys.reverse ["x:note"]) := by
  have hperm : taggedKeys.Perm taggedKeys.reverse := taggedKeys.reverse_perm.symm
  obtain ⟨hsorts, hsame⟩ := keys_classified taggedKeys ["x:note"]
  have hkeys : ofKeys taggedKeys ["x:note"] = .ofForm
      { form := .discriminator, nullable := true, mapping := true, unrecognized := ["b", "a"] } := by
    decide
  exact ⟨hperm, hkeys ▸ hsorts, hsame _ hperm⟩

example : ofKeys ["type", "nullable", "type"] [] = .ambiguous ["type", "type"] := by decide

end JsonTypeDefinition.Proofs
