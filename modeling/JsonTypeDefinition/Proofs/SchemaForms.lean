import JsonTypeDefinition.Proofs.KeyRoles
import JsonTypeDefinition.Schema.Compile

/-!
# One level of a compilation

Compiling a schema object first reports on its keys, then comes to a draft of its form, and then
runs the hooks. `formDraft` is the middle part, said with look-ups in the object.
-/

namespace JsonTypeDefinition.Proofs

def buildSub (scope : Scope) (path : Path) : Option Json → Build (Option NodeId)
  | none => do
    Build.report path [.notObject .null]
    return none
  | some value => Compile.schema scope .nested path value

def buildSection (scope : Scope) (position : Position) (path : Path) : Option Json → Build Section
  | none => return .absent
  | some (.object entries) => Section.entries <$> Compile.schemas scope position path entries
  | some other => return .notObject other.kind

lemma member_eq_buildSub (scope : Scope) (path : Path) (key : String) (members : Members) :
    Compile.member scope path key members = buildSub scope path (members.get? key) := by
  induction members with
  | nil => rfl
  | cons member rest ih =>
    rw [Compile.member, get?_cons]
    split
    · rfl
    · exact ih

lemma namedSchemas_eq_buildSection (scope : Scope) (position : Position) (path : Path)
    (key : String) (members : Members) :
    Compile.namedSchemas scope position path key members =
      buildSection scope position path (members.get? key) := by
  induction members with
  | nil => rfl
  | cons member rest ih =>
    obtain ⟨k, value⟩ := member
    rw [get?_cons]
    cases value <;>
      · simp only [Compile.namedSchemas, ih]
        split <;> rfl

def formDraft (scope : Scope) (position : Position) (path : Path) (members : Members) :
    Form → Build Draft
  | .empty => return .ready .empty
  | .type => Compile.typeDraft (path ++ ["type"]) members
  | .enum => Compile.enumDraft (path ++ ["enum"]) members
  | .elements => do
    let sub ← buildSub scope (path ++ ["elements"]) (members.get? "elements")
    return .ofOption (sub.map .elements)
  | .properties => do
    let required ← buildSection scope .nested (path ++ ["properties"]) (members.get? "properties")
    Build.report (path ++ ["properties"]) (required.faults .propertiesNotObject)
    let optional ← buildSection scope .nested (path ++ ["optionalProperties"])
      (members.get? "optionalProperties")
    Build.report (path ++ ["optionalProperties"])
      (optional.faults .optionalPropertiesNotObject ++ Compile.overlapFaults required optional)
    Build.report (path ++ ["additionalProperties"]) (Compile.additionalFaults members)
    return .ready (.properties (Compile.propertiesShape position members required optional))
  | .values => do
    let sub ← buildSub scope (path ++ ["values"]) (members.get? "values")
    return .ofOption (sub.map .values)
  | .discriminator => do
    Build.report path (Compile.discriminatorFaults members)
    let mapping ← buildSection scope (.mapping (Compile.field members "discriminator").string?)
      (path ++ ["mapping"]) (members.get? "mapping")
    Compile.discriminatorDraft path (Compile.field members "discriminator").string? mapping
  | .ref => Compile.refDraft scope position (path ++ ["ref"]) members

lemma run_add (node : Node) (b : Builder) :
    (Build.add node).run b = if b.errors.isEmpty then
      (some b.nodes.size, { b with nodes := b.nodes.push node }) else (none, b) :=
  rfl

lemma run_noteReference (position : Position) (name : String) (b : Builder) :
    (Build.noteReference position name).run b =
      ((), if position = .definition then { b with reference := some name } else b) :=
  rfl

lemma schema_notObject {value : Json} (h : ∀ members, value ≠ .object members) (scope : Scope)
    (position : Position) (path : Path) :
    Compile.schema scope position path value =
      (do
        Build.report path [.notObject value.kind]
        return none) := by
  cases value with
  | object members => exact absurd rfl (h members)
  | _ => rw [Compile.schema]; exact h

theorem schema_object (scope : Scope) (position : Position) (path : Path) (members : Members) :
    Compile.schema scope position path (.object members) =
      (match KeyGroups.ofKeys (Members.keys members) scope.options.declared with
      | .ambiguous keys => do
        Build.report path [.ambiguousForm keys]
        return none
      | .ofForm keys => do
        Build.report path
          (Compile.placeFaults position keys members ++ Compile.commonFaults keys members)
        let draft ← formDraft scope position path members keys.form
        Compile.finish scope keys.form path members draft) := by
  rw [Compile.schema]
  cases KeyGroups.ofKeys (Members.keys members) scope.options.declared with
  | ambiguous keys => rfl
  | ofForm keys =>
    simp only [member_eq_buildSub, namedSchemas_eq_buildSection]
    cases keys.form <;> rfl

end JsonTypeDefinition.Proofs
