import JsonTypeDefinition.Json.Equality
import JsonTypeDefinition.Schema.Cycle
import JsonTypeDefinition.Schema.Keys
import JsonTypeDefinition.Validation.Node

/-!
# Compiling schemas

`compile` takes a schema document to a validator, or to all the faults it finds. One walk over the
document gathers faults and nodes. Once there is a fault no more nodes are added, but the walk goes
on to find the other faults.
-/

namespace JsonTypeDefinition

/-- Where a schema stands in its document. -/
inductive Position where
  | root
  | definition
  | nested
  /-- An entry of a mapping, with the tag of the discriminator if that is a string. -/
  | mapping (tag : Option String)
  deriving DecidableEq

/-- The tag that the schema of a position may not declare. -/
def Position.tag? : Position → Option String
  | mapping tag => tag
  | _ => none

/-- What holds for the whole document while it is compiled. -/
structure Scope where
  options : Options
  /-- The names of the definitions, in document order. -/
  definitions : List String

/-- The faults and nodes gathered so far. A node comes after the nodes of its sub-schemas. -/
structure Builder where
  errors : Array SchemaError := #[]
  nodes : Array Node := #[]
  /-- What the definition being compiled refers to, if its own schema is a reference. -/
  reference : Option String := none

abbrev Build := StateM Builder

/-- What a schema object's form comes to. -/
inductive Draft where
  /-- Beyond use: no node and no hooks. -/
  | abandoned
  /-- Faulty, but hooks still see it. -/
  | faulty
  | ready (shape : Shape)

/-- The draft of a shape that needs something which faults may have left out. -/
def Draft.ofOption : Option Shape → Draft
  | none => faulty
  | some shape => ready shape

/-- The member of a schema object that holds sub-schemas by name. -/
inductive Section where
  | absent
  | notObject (actual : Json.Kind)
  /-- The names with the nodes of their schemas. -/
  | entries (subs : List (String × Option NodeId))

namespace Section

def names : Section → List String
  | entries subs => subs.map Prod.fst
  | _ => []

/-- The names whose schemas have nodes. -/
def nodes : Section → List (String × NodeId)
  | entries subs => subs.filterMap fun (name, sub) => sub.map fun id => (name, id)
  | _ => []

def faults (fault : Json.Kind → SchemaFault) : Section → List SchemaFault
  | notObject actual => [fault actual]
  | _ => []

end Section

namespace Build

def report (path : Path) (faults : List SchemaFault) : Build Unit :=
  modify fun b => { b with errors := b.errors ++ (faults.map (SchemaError.mk path)).toArray }

/-- Adds a node, unless there are faults. -/
def add (node : Node) : Build (Option NodeId) := fun b =>
  if b.errors.isEmpty then (some b.nodes.size, { b with nodes := b.nodes.push node })
  else (none, b)

/-- Forgets what an earlier definition refers to. -/
def forgetReference : Build Unit :=
  modify fun b => { b with reference := none }

/-- Notes what the schema in a position refers to, if that is a definition's own. -/
def noteReference (position : Position) (target : String) : Build Unit :=
  modify fun b => if position = .definition then { b with reference := some target } else b

/-- Takes the note of what the definition being compiled refers to. -/
def takeReference : Build (Option String) := fun b =>
  (b.reference, { b with reference := none })

end Build

namespace Compile

/-- Whether a schema object declares a property, required or optional. -/
def declaresProperty (members : Members) (name : String) : Bool :=
  ["properties", "optionalProperties"].any fun key =>
    match members.get? key with
    | some (.object properties) => Members.has properties name
    | _ => false

/-- What is wrong with a schema object in its place, before its form is looked at. -/
def placeFaults (position : Position) (keys : FormKeys) (members : Members) : List SchemaFault :=
  let entry := match position with
    | .mapping tag =>
      let other := match tag with
        | some tag => if declaresProperty members tag then [.mappingDeclaresTag tag] else []
        | none => []
      (if keys.form = .properties then other else [.mappingOfOtherForm keys.form]) ++
        if keys.nullable then [.mappingNullable] else []
    | _ => []
  entry ++ if position ≠ .root ∧ keys.definitions then [.rootOnlyKeys ["definitions"]] else []

def flagFaults (members : Members) (key : String) (fault : Json.Kind → SchemaFault) :
    List SchemaFault :=
  match members.get? key with
  | none => []
  | some (.bool _) => []
  | some other => [fault other.kind]

def commonFaults (keys : FormKeys) (members : Members) : List SchemaFault :=
  (if keys.unrecognized.isEmpty then [] else [.unrecognizedKeys keys.form keys.unrecognized]) ++
    flagFaults members "nullable" .nullableNotBoolean

def isNullable (members : Members) : Bool :=
  (members.get? "nullable").any Json.isTruthy

/-- The value of a key that the form requires. -/
def field (members : Members) (key : String) : Json :=
  (members.get? key).getD .null

def typeDraft (path : Path) (members : Members) : Build Draft :=
  match field members "type" with
  | .string name =>
    match Primitive.ofName? name with
    | some type => pure (.ready (.type type))
    | none => do
      Build.report path [.unknownType name]
      return .faulty
  | other => do
    Build.report path [.typeNotString other.kind]
    return .faulty

/-- Whether two variants are the same value. Arrays and objects are like no other value. -/
def sameVariant (a b : Json) : Bool :=
  match a with
  | .array _ => false
  | .object _ => false
  | _ => Json.sameValue a b

/-- The variants that are the same as an earlier one. -/
def repeatedVariants (variants : List Json) : List Json :=
  go [] variants
where
  go (earlier : List Json) : List Json → List Json
    | [] => []
    | variant :: rest =>
      let later := go (variant :: earlier) rest
      if earlier.any fun other => sameVariant other variant then variant :: later else later

def enumDraft (path : Path) (members : Members) : Build Draft :=
  match field members "enum" with
  | .array [] => do
    Build.report path [.enumEmpty]
    return .abandoned
  | .array variants => do
    Build.report path
      (if variants.any fun variant => variant.string?.isNone then [.enumOfOtherThanStrings] else [])
    match repeatedVariants variants with
    | [] => return .ready (.enum (variants.filterMap Json.string?))
    | repeated =>
      Build.report path [.enumRepeats repeated]
      return .abandoned
  | other => do
    Build.report path [.enumNotArray other.kind]
    return .abandoned

def refDraft (scope : Scope) (position : Position) (path : Path) (members : Members) :
    Build Draft :=
  match field members "ref" with
  | .string name => do
    let index := scope.definitions.idxOf? name
    Build.report path (if index.isNone then [.refUndefined name] else [])
    Build.noteReference position name
    return .ofOption (index.map .ref)
  | other => do
    Build.report path [.refNotString other.kind]
    return .abandoned

/-- Whether a schema object allows properties that it does not declare. -/
def allowsAdditional (members : Members) : Bool :=
  (members.get? "additionalProperties").any fun value => value.bool? = some true

def additionalFaults (members : Members) : List SchemaFault :=
  flagFaults members "additionalProperties" .additionalPropertiesNotBoolean

def overlapFaults (required optional : Section) : List SchemaFault :=
  match optional.names.filter required.names.contains with
  | [] => []
  | keys => [.propertiesOverlap keys]

/-- The properties form, from its two sections. -/
def propertiesShape (position : Position) (members : Members) (required optional : Section) :
    PropertiesShape where
  required := required.names
  subs := required.nodes ++ optional.nodes
  additional := allowsAdditional members
  hasRequiredKey := members.has "properties"
  tag := position.tag?

def discriminatorFaults (members : Members) : List SchemaFault :=
  match field members "discriminator" with
  | .string _ => []
  | other => [.discriminatorNotString other.kind]

def discriminatorDraft (path : Path) (tag : Option String) : Section → Build Draft
  | .absent => do
    Build.report path [.mappingMissing]
    return .abandoned
  | .notObject actual => do
    Build.report path [.mappingNotObject actual]
    return .abandoned
  | mapping => return .ofOption (tag.map fun tag => .discriminator tag mapping.nodes)

/-- Runs the hooks on a schema object whose form is not abandoned, and adds its node. -/
def finish (scope : Scope) (form : Form) (path : Path) (members : Members) :
    Draft → Build (Option NodeId)
  | .abandoned => return none
  | draft => do
    let contribution := scope.options.contribution form members (form.path path)
    Build.report (form.path path) contribution.faults
    match draft with
    | .ready shape => Build.add ⟨path, isNullable members, contribution.supplements, shape⟩
    | _ => return none

mutual

def schema (scope : Scope) (position : Position) (path : Path) : Json → Build (Option NodeId)
  | .object members =>
    match KeyGroups.ofKeys (Members.keys members) scope.options.declared with
    | .ambiguous keys => do
      Build.report path [.ambiguousForm keys]
      return none
    | .ofForm keys => do
      Build.report path (placeFaults position keys members ++ commonFaults keys members)
      let draft : Build Draft := match keys.form with
        | .empty => return .ready .empty
        | .type => typeDraft (path ++ ["type"]) members
        | .enum => enumDraft (path ++ ["enum"]) members
        | .elements => do
          let sub ← member scope (path ++ ["elements"]) "elements" members
          return .ofOption (sub.map .elements)
        | .properties => do
          let requiredPath := path ++ ["properties"]
          let required ← namedSchemas scope .nested requiredPath "properties" members
          Build.report requiredPath (required.faults .propertiesNotObject)
          let optionalPath := path ++ ["optionalProperties"]
          let optional ← namedSchemas scope .nested optionalPath "optionalProperties" members
          Build.report optionalPath
            (optional.faults .optionalPropertiesNotObject ++ overlapFaults required optional)
          Build.report (path ++ ["additionalProperties"]) (additionalFaults members)
          return .ready (.properties (propertiesShape position members required optional))
        | .values => do
          let sub ← member scope (path ++ ["values"]) "values" members
          return .ofOption (sub.map .values)
        | .discriminator => do
          let tag := (field members "discriminator").string?
          Build.report path (discriminatorFaults members)
          let mapping ←
            namedSchemas scope (.mapping tag) (path ++ ["mapping"]) "mapping" members
          discriminatorDraft path tag mapping
        | .ref => refDraft scope position (path ++ ["ref"]) members
      finish scope keys.form path members (← draft)
  | other => do
    Build.report path [.notObject other.kind]
    return none

/-- Compiles the schema under a key of a schema object, to be found at `path`. -/
def member (scope : Scope) (path : Path) (key : String) :
    List (String × Json) → Build (Option NodeId)
  | [] => do
    Build.report path [.notObject .null]
    return none
  | (k, value) :: rest =>
    if k = key then schema scope .nested path value else member scope path key rest

/-- Compiles the schemas by name under a key of a schema object, to be found at `path`. -/
def namedSchemas (scope : Scope) (position : Position) (path : Path) (key : String) :
    List (String × Json) → Build Section
  | [] => return .absent
  | (k, .object entries) :: rest =>
    if k = key then Section.entries <$> schemas scope position path entries
    else namedSchemas scope position path key rest
  | (k, other) :: rest =>
    if k = key then return .notObject other.kind
    else namedSchemas scope position path key rest

/-- Compiles schemas by name, each at `path` and its name. -/
def schemas (scope : Scope) (position : Position) (path : Path) :
    List (String × Json) → Build (List (String × Option NodeId))
  | [] => return []
  | (name, value) :: rest => do
    let sub ← schema scope position (path ++ [name]) value
    let subs ← schemas scope position path rest
    return (name, sub) :: subs

end

/-- Compiles a definition. Gives its node, and what it refers to if it is a reference itself. -/
def definition (scope : Scope) (name : String) (value : Json) :
    Build (Option NodeId × Option String) := do
  Build.forgetReference
  let id ← schema scope .definition ["definitions", name] value
  let target ← Build.takeReference
  return (id, target)

/-- Compiles definitions one after another. Gives their nodes, and the edge of each definition that
is a reference itself. -/
def definitionBodies (scope : Scope) :
    List (String × Json) → Build (List (Option NodeId) × Cycle.Edges)
  | [] => return ([], [])
  | (name, value) :: rest => do
    let (id, target) ← definition scope name value
    let (ids, edges) ← definitionBodies scope rest
    return (id :: ids, (target.map fun target => (name, target)).toList ++ edges)

/-- Compiles the definitions of a document, which may refer to one another in any order but not
lead in a circle without any other form between. -/
def definitions (options : Options) : Json → Build (List (Option NodeId))
  | .object entries => do
    let (ids, edges) ← definitionBodies ⟨options, Members.keys entries⟩ entries
    Build.report [] ((Cycle.find edges).map .definitionsCircular)
    return ids
  | other => do
    Build.report [] [.definitionsNotObject other.kind]
    return []

def definitions? (document : Json) : Option Json := do
  Members.get? (← document.object?) "definitions"

def definitionNames (document : Json) : List String :=
  match definitions? document with
  | some (.object entries) => Members.keys entries
  | _ => []

/-- Compiles a whole document: the definitions, then the root schema. -/
def document (options : Options) (root : Json) : Build (List (Option NodeId) × Option NodeId) := do
  let slots ← match definitions? root with
    | some value => definitions options value
    | none => pure []
  let id ← schema ⟨options, definitionNames root⟩ .root [] root
  return (slots, id)

end Compile

/-- Compiles a schema document. Every independent fault is reported, in the order of the walk. -/
def compile (options : Options) (root : Json) : Except (Array SchemaError) Validator :=
  let ((slots, id), builder) := (Compile.document options root).run {}
  match slots.mapM fun slot => slot, id with
  | some definitions, some id =>
    if builder.errors.isEmpty then .ok ⟨builder.nodes, definitions.toArray, id⟩
    else .error builder.errors
  | _, _ => .error builder.errors

end JsonTypeDefinition
