import JsonTypeDefinition.Proofs.Sites

/-!
# Documents without some of their keys

`strip` takes keys out of the schema objects of a document. The names of properties, of definitions
and of mapping entries are no keys of a schema object, and stay whatever they are; so does all that
stands where no schema does.
-/

namespace JsonTypeDefinition.Proofs

inductive Content where
  | schema
  | schemas
  | other
  deriving DecidableEq

def formContent (form : Form) (key : String) : Content :=
  if form = .elements ∧ key = "elements" ∨ form = .values ∧ key = "values" then .schema
  else if form = .properties ∧ (key = "properties" ∨ key = "optionalProperties") ∨
      form = .discriminator ∧ key = "mapping" then .schemas
  else .other

lemma content_elements : formContent .elements "elements" = .schema := by simp [formContent]

lemma content_values : formContent .values "values" = .schema := by simp [formContent]

lemma content_properties : formContent .properties "properties" = .schemas := by simp [formContent]

lemma content_optional : formContent .properties "optionalProperties" = .schemas := by
  simp [formContent]

lemma content_mapping : formContent .discriminator "mapping" = .schemas := by simp [formContent]

/-- What a key of a schema object holds. Keys of several forms do not tell what they hold. -/
def contentOf (root : Bool) (members : Members) (key : String) : Content :=
  if root = true ∧ key = "definitions" then .schemas
  else (form? members).elim .other fun form => formContent form key

mutual

/-- A schema without the keys to drop, in itself and in the schemas that it holds. -/
def strip (drop : String → Bool) (root : Bool) : Json → Json
  | .object members => .object (stripMembers drop (contentOf root members) members)
  | value => value

def stripMembers (drop : String → Bool) (content : String → Content) :
    List (String × Json) → Members
  | [] => []
  | (key, value) :: rest =>
    if drop key then stripMembers drop content rest
    else
      let kept := match content key with
        | .schema => strip drop false value
        | .schemas => stripNamed drop value
        | .other => value
      (key, kept) :: stripMembers drop content rest

/-- What is to be an object of schemas by name, without the keys to drop in these. -/
def stripNamed (drop : String → Bool) : Json → Json
  | .object entries => .object (stripEntries drop entries)
  | value => value

def stripEntries (drop : String → Bool) : List (String × Json) → Members
  | [] => []
  | (name, value) :: rest => (name, strip drop false value) :: stripEntries drop rest

end

def stripContent (drop : String → Bool) : Content → Json → Json
  | .schema => strip drop false
  | .schemas => stripNamed drop
  | .other => id

section Parts

variable {drop : String → Bool}

lemma stripMembers_eq (content : String → Content) (members : Members) :
    stripMembers drop content members =
      (members.filter fun member => !drop member.1).map fun (key, value) =>
        (key, stripContent drop (content key) value) := by
  induction members with
  | nil => rfl
  | cons member rest ih =>
    obtain ⟨key, value⟩ := member
    rw [stripMembers, List.filter_cons, ih]
    cases drop key with
    | true => rfl
    | false =>
      simp only [Bool.not_false, if_true, List.map_cons]
      cases content key <;> rfl

lemma stripEntries_eq (entries : Members) :
    stripEntries drop entries = entries.map fun (name, value) => (name, strip drop false value) := by
  induction entries with
  | nil => rfl
  | cons entry rest ih =>
    obtain ⟨name, value⟩ := entry
    rw [stripEntries, ih]
    rfl

lemma keys_stripMembers (content : String → Content) (members : Members) :
    Members.keys (stripMembers drop content members) =
      (Members.keys members).filter fun key => !drop key := by
  rw [stripMembers_eq, Members.keys, Members.keys, List.map_map, List.filter_map]
  rfl

lemma get?_stripMembers (content : String → Content) (members : Members) (key : String) :
    Members.get? (stripMembers drop content members) key =
      if drop key then none else (members.get? key).map (stripContent drop (content key)) := by
  rw [stripMembers_eq]
  induction members with
  | nil => exact (ite_self _).symm
  | cons member rest ih =>
    obtain ⟨k, value⟩ := member
    rw [List.filter_cons, get?_cons]
    by_cases hk : k = key
    · subst hk
      cases hdrop : drop k with
      | true => simpa [hdrop] using ih
      | false => simp [get?_cons]
    · cases drop k with
      | true => simpa [hk] using ih
      | false => simpa [get?_cons, hk] using ih

lemma keys_stripEntries (entries : Members) :
    Members.keys (stripEntries drop entries) = Members.keys entries := by
  rw [stripEntries_eq, Members.keys, List.map_map]
  rfl

lemma get?_stripEntries (entries : Members) (name : String) :
    Members.get? (stripEntries drop entries) name =
      (entries.get? name).map (strip drop false) := by
  induction entries with
  | nil => rfl
  | cons entry rest ih =>
    rw [stripEntries, get?_cons, get?_cons, ih]
    split <;> rfl

lemma entriesIn_stripNamed (found : Option Json) :
    entriesIn (found.map (stripNamed drop)) = stripEntries drop (entriesIn found) := by
  cases found with
  | none => rfl
  | some value => cases value <;> rfl

lemma strip_notObject {value : Json} (h : ∀ members, value ≠ .object members) (root : Bool) :
    strip drop root value = value := by
  cases value with
  | object members => exact absurd rfl (h members)
  | _ => rfl

end Parts

lemma stripContent_nothing {value : Json} (h : ∀ part, sizeOf part ≤ sizeOf value →
    strip (fun _ => false) false part = part) (content : Content) :
    stripContent (fun _ => false) content value = value := by
  cases content with
  | schema => exact h value (Nat.le_refl _)
  | other => rfl
  | schemas =>
    cases value with
    | object entries =>
      refine congrArg Json.object ((stripEntries_eq entries).trans ?_)
      refine (List.map_congr_left fun entry hentry => ?_).trans (List.map_id entries)
      exact congrArg (Prod.mk entry.1) (h entry.2 (Nat.le_of_lt (sizeOf_member_lt hentry)))
    | _ => rfl

theorem strip_nothing (value : Json) : ∀ root, strip (fun _ => false) root value = value := by
  induction value using value_induction with
  | step value ih =>
    intro root
    by_cases ho : ∃ members, value = .object members
    · obtain ⟨members, rfl⟩ := ho
      rw [strip, stripMembers_eq]
      refine congrArg Json.object ?_
      simp only [Bool.not_false, List.filter_true]
      refine (List.map_congr_left fun member hmember => ?_).trans (List.map_id members)
      refine congrArg (Prod.mk member.1) (stripContent_nothing (fun part hpart => ?_) _)
      exact ih part (Nat.lt_of_le_of_lt hpart (sizeOf_member_lt hmember)) false
    · exact strip_notObject (fun members he => ho ⟨members, he⟩) root

example : strip (fun key => key == "note") true
    (.object [("properties", .object [("note", .object [("note", .null), ("metadata",
      .object [("note", .null)])])]), ("note", .null)]) =
    .object [("properties", .object [("note", .object [("metadata",
      .object [("note", .null)])])])] := rfl

end JsonTypeDefinition.Proofs
