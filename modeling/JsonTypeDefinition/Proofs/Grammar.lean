import JsonTypeDefinition.Proofs.Arena
import JsonTypeDefinition.Proofs.CircularDefinitions

/-!
# The grammar of schemas

`WellFormedDocument` says which documents are schemas, without regard to how they are compiled.
Without extensions, these are the documents that compile.
-/

open Relation

namespace JsonTypeDefinition.Proofs

/-- The keys that a schema object of a form may hold in its position. -/
def MayHold (position : Position) (form : Form) (key : String) : Prop :=
  key ∈ formKeys form ∨ key = "nullable" ∨ key = "metadata" ∨
    (key = "definitions" ∧ position = .root) ∨
    (key = "additionalProperties" ∧ form = .properties) ∨
    (key = "mapping" ∧ form = .discriminator)

/-- The entry of a mapping is of the properties form, is not nullable, and leaves the tag to the
discriminator. -/
structure IsEntry (tag : Option String) (form : Form) (members : Members) : Prop where
  properties : form = .properties
  nullable : "nullable" ∉ Members.keys members
  undeclared : ∀ name, tag = some name → ∀ key ∈ ["properties", "optionalProperties"],
    ∀ entries : Members, members.get? key = some (.object entries) → name ∉ Members.keys entries

/-- The keys of a schema object fit its form and its position. -/
structure KeysFit (position : Position) (form : Form) (members : Members) : Prop where
  allowed : ∀ key ∈ Members.keys members, MayHold position form key
  formKey : form ≠ .empty → ∃ key ∈ Members.keys members, key ∈ formKeys form
  nullable : ∀ value, members.get? "nullable" = some value → ∃ b, value = .bool b
  entry : ∀ tag, position = .mapping tag → IsEntry tag form members

/-- Schemas by name are an object, or left out. -/
def IsSection (found : Option Json) (entries : Members) : Prop :=
  found = some (.object entries) ∨ (found = none ∧ entries = [])

mutual

/-- A value is a schema where the definitions have `names`. -/
inductive WellFormed (names : List String) : Position → Json → Prop where
  | object {position : Position} {form : Form} {members : Members}
      (hkeys : KeysFit position form members) (hform : FormFits names members form) :
      WellFormed names position (.object members)

inductive FormFits (names : List String) : Members → Form → Prop where
  | empty {members : Members} : FormFits names members .empty
  | type {members : Members} {name : String} (hvalue : members.get? "type" = some (.string name))
      (hname : name ∈ Primitive.all.map Primitive.name) : FormFits names members .type
  | enum {members : Members} {variants : List String}
      (hvalue : members.get? "enum" = some (.array (variants.map .string)))
      (hsome : variants ≠ []) (hdistinct : variants.Nodup) : FormFits names members .enum
  | elements {members : Members} {value : Json} (hvalue : members.get? "elements" = some value)
      (hsub : WellFormed names .nested value) : FormFits names members .elements
  | properties {members required optional : Members}
      (hrequired : IsSection (members.get? "properties") required)
      (hoptional : IsSection (members.get? "optionalProperties") optional)
      (hdisjoint : List.Disjoint (Members.keys required) (Members.keys optional))
      (hrequiredSubs : ∀ name value, (name, value) ∈ required → WellFormed names .nested value)
      (hoptionalSubs : ∀ name value, (name, value) ∈ optional → WellFormed names .nested value)
      (hadditional : ∀ value, members.get? "additionalProperties" = some value →
        ∃ b, value = .bool b) :
      FormFits names members .properties
  | values {members : Members} {value : Json} (hvalue : members.get? "values" = some value)
      (hsub : WellFormed names .nested value) : FormFits names members .values
  | discriminator {members entries : Members} {tag : String}
      (htag : members.get? "discriminator" = some (.string tag))
      (hmapping : members.get? "mapping" = some (.object entries))
      (hsubs : ∀ name value, (name, value) ∈ entries →
        WellFormed names (.mapping (some tag)) value) :
      FormFits names members .discriminator
  | ref {members : Members} {name : String} (hvalue : members.get? "ref" = some (.string name))
      (hname : name ∈ names) : FormFits names members .ref

end

/-- A document is a schema: its root is, its definitions are, and these lead nowhere in a circle by
references alone. -/
structure WellFormedDocument (document : Json) : Prop where
  root : WellFormed (Compile.definitionNames document) .root document
  definitions : ∀ found, Compile.definitions? document = some found → ∃ entries : Members,
    found = .object entries ∧
      (∀ name value, (name, value) ∈ entries →
        WellFormed (Compile.definitionNames document) .definition value) ∧
      ∀ name, ¬ TransGen (RefersTo entries) name name

section Keys

variable {position : Position} {form : Form} {members : Members}

lemma hasForm_of_keysFit (h : KeysFit position form members) :
    HasForm (Members.keys members) form := by
  refine ⟨fun key hk other ho => ?_, fun hne => ?_⟩
  · rcases h.allowed key hk with hm | rfl | rfl | ⟨rfl, -⟩ | ⟨rfl, -⟩ | ⟨rfl, -⟩
    · rw [ofKey?_eq_some_iff.mpr hm] at ho
      exact (Option.some.inj ho).symm
    all_goals exact absurd ho (by decide +revert)
  · obtain ⟨key, hk, hm⟩ := h.formKey hne
    exact ⟨key, hk, ofKey?_eq_some_iff.mpr hm⟩

end Keys

end JsonTypeDefinition.Proofs
