import JsonTypeDefinition.Proofs.LibraryFaults
import JsonTypeDefinition.Proofs.Stripping

/-!
# Keys that extensions declare

An extension keeps apart if the keys that it declares have no role and the errors that it reports
are its own. Schema objects then read the same with its keys and, without the extension, without
them.
-/

namespace JsonTypeDefinition.Proofs

/-- Whether a key has a role in schema objects of some form. -/
def isUsed (key : String) : Bool :=
  (Form.ofKey? key).isSome || KeyGroups.hasRole .properties key ||
    KeyGroups.hasRole .discriminator key

/-- The extensions take no key that has a role, and what they add is their own. -/
structure KeepApart (options : Options) : Prop where
  unused : ∀ key ∈ options.declared, isUsed key = false
  own : ∀ form members path, AllOwn (options.contribution form members path).faults
    (options.contribution form members path).supplements

def isDeclared (options : Options) (key : String) : Bool :=
  options.declared.contains key

abbrev withoutDeclared (options : Options) (root : Bool) : Json → Json :=
  strip (isDeclared options) root

def plainMembers (options : Options) (root : Bool) (members : Members) : Members :=
  stripMembers (isDeclared options) (contentOf root members) members

lemma withoutDeclared_object (options : Options) (root : Bool) (members : Members) :
    withoutDeclared options root (.object members) = .object (plainMembers options root members) :=
  rfl

section Keys

variable {declared : List String} {keys : List String}

lemma unused_hasRole {key : String} (h : isUsed key = false) (form : Form) :
    KeyGroups.hasRole form key = false := by
  simp only [isUsed, Bool.or_eq_false_iff] at h
  obtain ⟨⟨-, hproperties⟩, hdiscriminator⟩ := h
  cases form with
  | properties => exact hproperties
  | discriminator => exact hdiscriminator
  | _ => simp_all [KeyGroups.hasRole]

lemma unused_ofKey? {key : String} (h : isUsed key = false) : Form.ofKey? key = none := by
  simp only [isUsed, Bool.or_eq_false_iff] at h
  exact Option.not_isSome_iff_eq_none.mp (by simp [h.1.1])

lemma used_undeclared (h : ∀ key ∈ declared, isUsed key = false) {key : String}
    (hused : isUsed key = true) : declared.contains key = false := by
  refine Bool.eq_false_iff.mpr fun hdeclared => ?_
  rw [h key (List.contains_iff_mem.mp hdeclared)] at hused
  cases hused

lemma filter_undeclared (h : ∀ key ∈ declared, isUsed key = false) {p : String → Bool}
    (hp : ∀ key, p key = true → isUsed key = true) :
    (keys.filter fun key => !declared.contains key).filter p = keys.filter p := by
  rw [List.filter_filter]
  refine List.filter_congr fun key _ => ?_
  cases hkey : p key with
  | false => rfl
  | true => rw [used_undeclared h (hp key hkey)]; rfl

lemma contains_undeclared (h : ∀ key ∈ declared, isUsed key = false) {key : String}
    (hused : isUsed key = true) :
    (keys.filter fun key => !declared.contains key).contains key = keys.contains key := by
  rw [Bool.eq_iff_iff, List.contains_iff_mem, List.contains_iff_mem, List.mem_filter,
    used_undeclared h hused]
  exact and_iff_left rfl

lemma sortedFor_undeclared (h : ∀ key ∈ declared, isUsed key = false) (form : Form) :
    KeyGroups.sortedFor form (keys.filter fun key => !declared.contains key) [] =
      KeyGroups.sortedFor form keys declared := by
  have hunrecognized : ∀ key, ((Form.ofKey? key).isNone && !KeyGroups.hasRole form key &&
      !([] : List String).contains key && !declared.contains key) =
        ((Form.ofKey? key).isNone && !KeyGroups.hasRole form key && !declared.contains key) := by
    intro key
    rw [List.contains_nil, Bool.not_false, Bool.and_true]
  simp only [KeyGroups.sortedFor, List.filter_filter, hunrecognized,
    contains_undeclared h (by decide : isUsed "nullable" = true),
    contains_undeclared h (by decide : isUsed "metadata" = true),
    contains_undeclared h (by decide : isUsed "definitions" = true),
    contains_undeclared h (by decide : isUsed "properties" = true),
    contains_undeclared h (by decide : isUsed "optionalProperties" = true),
    contains_undeclared h (by decide : isUsed "additionalProperties" = true),
    contains_undeclared h (by decide : isUsed "mapping" = true)]

lemma ofKeys_undeclared (h : ∀ key ∈ declared, isUsed key = false) (keys : List String) :
    KeyGroups.ofKeys (keys.filter fun key => !declared.contains key) [] =
      KeyGroups.ofKeys keys declared := by
  have hforms : (keys.filter fun key => !declared.contains key).filterMap Form.ofKey? =
      keys.filterMap Form.ofKey? := by
    rw [List.filterMap_filter]
    refine List.filterMap_congr fun key _ => ?_
    cases hdeclared : declared.contains key with
    | false => rfl
    | true => exact (unused_ofKey? (h key (List.contains_iff_mem.mp hdeclared))).symm
  have hformKeys : ∀ key, (Form.ofKey? key).isSome = true → isUsed key = true := by
    intro key hkey
    rw [isUsed, hkey, Bool.true_or, Bool.true_or]
  simp only [ofKeys_eq, hforms, sortedFor_undeclared h, filter_undeclared h hformKeys]

end Keys

section Members

variable {options : Options} {members : Members} {root : Bool} {form : Form} {key : String}

lemma keys_plain (options : Options) (root : Bool) (members : Members) :
    Members.keys (plainMembers options root members) =
      (Members.keys members).filter fun key => !options.declared.contains key :=
  keys_stripMembers _ _

lemma ofKeys_plain (h : KeepApart options) (root : Bool) (members : Members) :
    KeyGroups.ofKeys (Members.keys (plainMembers options root members)) [] =
      KeyGroups.ofKeys (Members.keys members) options.declared := by
  rw [keys_plain, ofKeys_undeclared h.unused]

lemma get?_plain (h : KeepApart options) (hused : isUsed key = true) :
    (plainMembers options root members).get? key =
      (members.get? key).map (stripContent (isDeclared options) (contentOf root members key)) := by
  rw [plainMembers, get?_stripMembers, isDeclared, used_undeclared h.unused hused]
  rfl

lemma has_plain (h : KeepApart options) (hused : isUsed key = true) :
    (plainMembers options root members).has key = members.has key := by
  rw [Members.has, Members.has, get?_plain h hused, Option.isSome_map]

/-- The keys with a role that never hold schemas. -/
def flatKeys : List String :=
  ["type", "enum", "ref", "discriminator", "nullable", "additionalProperties"]

lemma get?_flat (h : KeepApart options) (hflat : key ∈ flatKeys) :
    (plainMembers options root members).get? key = members.get? key := by
  have hused : ∀ key ∈ flatKeys, isUsed key = true := by decide
  have hcontent : contentOf root members key = .other := by
    simp only [flatKeys, List.mem_cons, List.not_mem_nil, or_false] at hflat
    unfold contentOf
    cases form? members <;> rcases hflat with rfl | rfl | rfl | rfl | rfl | rfl <;>
      simp [formContent]
  rw [get?_plain h (hused key hflat), hcontent]
  exact Option.map_id' ..

lemma formContent_used (hcontent : formContent form key ≠ .other) :
    key ≠ "definitions" ∧ isUsed key = true := by
  have hsome : ∀ key ∈ ["elements", "values", "properties", "optionalProperties", "mapping"],
      key ≠ "definitions" ∧ isUsed key = true := by decide
  refine hsome key ?_
  simp only [List.mem_cons, List.not_mem_nil, or_false]
  unfold formContent at hcontent
  split_ifs at hcontent <;> tauto

lemma get?_content (h : KeepApart options) (hform : form? members = some form) {content : Content}
    (hcontent : formContent form key = content) (hother : content ≠ .other) :
    (plainMembers options root members).get? key =
      (members.get? key).map (stripContent (isDeclared options) content) := by
  obtain ⟨hkey, hused⟩ := formContent_used (hcontent ▸ hother)
  rw [get?_plain h hused, contentOf, if_neg fun hd => hkey hd.2, hform, Option.elim_some, hcontent]

lemma entries_plain (h : KeepApart options) (hform : form? members = some form)
    (hcontent : formContent form key = .schemas) :
    entriesIn ((plainMembers options root members).get? key) =
      stripEntries (isDeclared options) (entriesIn (members.get? key)) := by
  rw [get?_content h hform hcontent (by decide)]
  exact entriesIn_stripNamed _

lemma field_flat (h : KeepApart options) (hflat : key ∈ flatKeys) :
    Compile.field (plainMembers options root members) key = Compile.field members key := by
  rw [Compile.field, Compile.field, get?_flat h hflat]

lemma flagFaults_flat (h : KeepApart options) (hflat : key ∈ flatKeys)
    (fault : Json.Kind → SchemaFault) :
    Compile.flagFaults (plainMembers options root members) key fault =
      Compile.flagFaults members key fault := by
  rw [Compile.flagFaults, Compile.flagFaults, get?_flat h hflat]

lemma commonFaults_plain (h : KeepApart options) (keys : FormKeys) :
    Compile.commonFaults keys (plainMembers options root members) =
      Compile.commonFaults keys members := by
  rw [Compile.commonFaults, Compile.commonFaults, flagFaults_flat h (by decide)]

lemma declaresProperty_eq (members : Members) (name : String) :
    Compile.declaresProperty members name =
      ["properties", "optionalProperties"].any fun key =>
        (entriesIn (members.get? key)).has name := by
  unfold Compile.declaresProperty
  congr 1
  funext key
  rcases members.get? key with _ | value
  · rfl
  · cases value <;> rfl

lemma declaresProperty_plain (h : KeepApart options) (hform : form? members = some .properties)
    (name : String) : Compile.declaresProperty (plainMembers options root members) name =
      Compile.declaresProperty members name := by
  have hhas : ∀ entries : Members,
      Members.has (stripEntries (isDeclared options) entries) name = entries.has name := by
    intro entries
    rw [Members.has, Members.has, get?_stripEntries, Option.isSome_map]
  simp only [declaresProperty_eq, List.any_cons, List.any_nil, hhas,
    entries_plain h hform content_properties, entries_plain h hform content_optional]

lemma placeFaults_plain (h : KeepApart options) {keys : FormKeys}
    (hform : form? members = some keys.form) (position : Position) :
    Compile.placeFaults position keys (plainMembers options root members) =
      Compile.placeFaults position keys members := by
  cases position with
  | mapping tag =>
    by_cases hproperties : keys.form = .properties
    · rw [hproperties] at hform
      simp only [Compile.placeFaults, declaresProperty_plain h hform]
    · simp only [Compile.placeFaults, if_neg hproperties]
  | _ => rfl

end Members

lemma definitions?_plain {options : Options} (h : KeepApart options) (document : Json) :
    Compile.definitions? (withoutDeclared options true document) =
      (Compile.definitions? document).map (stripNamed (isDeclared options)) := by
  cases document with
  | object members =>
    have hcontent : contentOf true members "definitions" = .schemas := by simp [contentOf]
    have hget : (plainMembers options true members).get? "definitions" =
        (Members.get? members "definitions").map
          (stripContent (isDeclared options) (contentOf true members "definitions")) :=
      get?_plain h (by decide)
    rw [hcontent] at hget
    exact hget
  | _ => rfl

end JsonTypeDefinition.Proofs
