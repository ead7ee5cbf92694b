import JsonTypeDefinition.Validation.Node

/-!
# Validation

A walk takes a value through the nodes of a validator. Each node reports its own errors, runs its
supplements if the value reaches them, and sends the value or its parts on. Limits on the errors
and on the references open inside one another can end a walk early.
-/

namespace JsonTypeDefinition

/-- Limits on a validation; zero means none. -/
structure Limits where
  /-- How many references may be open inside one another. -/
  maxDepth : Nat := 0
  /-- How many errors are looked for. -/
  maxErrors : Nat := 0
  deriving DecidableEq

/-- Why a walk ends early. -/
inductive Stop where
  | enoughErrors
  | tooDeep
  deriving DecidableEq

/-- What a walk keeps. -/
structure WalkState where
  /-- The place in the instance where the walk is. -/
  place : Path := []
  /-- How many references are open. -/
  depth : Nat := 0
  errors : Array InstanceError := #[]

/-- A stretch of a walk: it moves about, adds to the errors, and may end the walk. -/
abbrev Walk := ExceptT Stop (StateM WalkState)

namespace Walk

/-- Ends the walk once there are enough errors, without those beyond the limit. -/
def checkCount (limits : Limits) : Walk Unit := do
  let state ← get
  if limits.maxErrors ≠ 0 ∧ limits.maxErrors ≤ state.errors.size then
    set { state with errors := state.errors.take limits.maxErrors }
    throw .enoughErrors

/-- Reports violations that are found together where the walk is. -/
def report (limits : Limits) (schemaPath : Path) (violations : List Violation) : Walk Unit := do
  modify fun state => { state with
    errors := state.errors ++
      (violations.map fun violation => ⟨schemaPath, state.place, violation⟩).toArray }
  checkCount limits

/-- Walks at a part of the value. A walk that ends early does not come back. -/
def inside {α : Type} (token : String) (walk : Walk α) : Walk α := do
  modify fun state => { state with place := state.place ++ [token] }
  let result ← walk
  modify fun state => { state with place := state.place.dropLast }
  return result

/-- Walks behind a reference, unless too many are open. -/
def behindReference (limits : Limits) (walk : Walk Unit) : Walk Unit := do
  modify fun state => { state with depth := state.depth + 1 }
  if limits.maxDepth ≠ 0 ∧ limits.maxDepth < (← get).depth then throw .tooDeep
  walk
  modify fun state => { state with depth := state.depth - 1 }

end Walk

namespace Node

def runSupplements (node : Node) (limits : Limits) (value : Json) : Walk Unit :=
  node.supplements.forM fun supplement =>
    Walk.report limits node.supplementPath (supplement value)

/-- Checks the keys of an object: the required ones, then those that are not declared. -/
def checkKeys (node : Node) (limits : Limits) (shape : PropertiesShape) (members : Members) :
    Walk Unit := do
  shape.required.forM fun key => do
    unless members.has key do
      Walk.report limits (node.schemaPath ++ ["properties", key]) [.propertyMissing key]
  unless shape.additional do
    (Members.keys members).forM fun key => do
      if (shape.subs.lookup key).isNone ∧ shape.tag ≠ some key then
        Walk.inside key (Walk.report limits node.schemaPath [.propertyUnexpected key])

/-- The mapping entry that the tag of an object selects; where there is none, says why. -/
def selectEntry (node : Node) (limits : Limits) (tag : String) (mapping : List (String × NodeId))
    (members : Members) : Walk (Option NodeId) :=
  match members.get? tag with
  | none => do
    Walk.report limits node.formPath [.tagMissing tag]
    return none
  | some value => Walk.inside tag do
    match value with
    | .string s =>
      match mapping.lookup s with
      | some sub => return some sub
      | none => do
        Walk.report limits (node.schemaPath ++ ["mapping"]) [.tagUnmapped s]
        return none
    | other => do
      Walk.report limits node.formPath [.tagNotString other.kind]
      return none

end Node

namespace Validator

/-- Takes a value through a node and whatever follows. `fuel` bounds the nodes that are open. -/
def walk (validator : Validator) (limits : Limits) : Nat → NodeId → Json → Walk Unit
  | 0, _, _ => throw .tooDeep
  | fuel + 1, id, value =>
    match validator.nodes[id]? with
    | none => pure ()
    | some node =>
      if node.nullable && value.kind = .null then pure ()
      else match node.shape with
        | .empty => node.runSupplements limits value
        | .type type =>
          match type.violation? value with
          | some violation => Walk.report limits node.formPath [violation]
          | none => node.runSupplements limits value
        | .enum variants => do
          match value with
          | .string s =>
            unless variants.contains s do
              Walk.report limits node.formPath [.enumOtherVariant s]
          | other => Walk.report limits node.formPath [.enumNotString other.kind]
          node.runSupplements limits value
        | .elements sub =>
          match value with
          | .array items => do
            node.runSupplements limits value
            items.zipIdx.forM fun (item, i) =>
              Walk.inside (toString i) (walk validator limits fuel sub item)
          | other => Walk.report limits node.formPath [.notArray other.kind]
        | .properties shape =>
          match value with
          | .object members => do
            node.checkKeys limits shape members
            node.runSupplements limits value
            members.forM fun (key, part) =>
              match shape.subs.lookup key with
              | some sub => Walk.inside key (walk validator limits fuel sub part)
              | none => pure ()
          | other =>
            let key := if shape.hasRequiredKey then "properties" else "optionalProperties"
            Walk.report limits (node.schemaPath ++ [key]) [.propertiesNotObject other.kind]
        | .values sub =>
          match value with
          | .object members => do
            node.runSupplements limits value
            members.forM fun (key, part) =>
              Walk.inside key (walk validator limits fuel sub part)
          | other => Walk.report limits node.formPath [.valuesNotObject other.kind]
        | .discriminator tag mapping =>
          match value with
          | .object members => do
            match ← node.selectEntry limits tag mapping members with
            | some sub => do
              node.runSupplements limits value
              walk validator limits fuel sub value
            | none => pure ()
          | other => Walk.report limits node.formPath [.discriminatorNotObject other.kind]
        | .ref index => do
          node.runSupplements limits value
          Walk.behindReference limits <|
            match validator.definitions[index]? with
            | some sub => walk validator limits fuel sub value
            | none => pure ()

/-- How many nodes can be open at once. Where a value stands, no definition is entered twice, and a
discriminator and its mapping entry may follow. -/
def fuelFor (validator : Validator) (value : Json) : Nat :=
  value.levels * (validator.definitions.size + 2)

/-- The walk of a value from the root with so much fuel: how it ended, and the errors up to
there. -/
def runWith (validator : Validator) (limits : Limits) (fuel : Nat) (value : Json) :
    Except Stop Unit × Array InstanceError :=
  let (outcome, state) := (validator.walk limits fuel validator.root value).run.run {}
  (outcome, state.errors)

def run (validator : Validator) (limits : Limits) (value : Json) :
    Except Stop Unit × Array InstanceError :=
  validator.runWith limits (validator.fuelFor value) value

def validate (validator : Validator) (value : Json) : Array InstanceError :=
  (validator.run {} value).2

/-- Accepts a value, or gives all its errors. -/
def check (validator : Validator) (value : Json) : Except (Array InstanceError) Unit :=
  let errors := validator.validate value
  if errors.isEmpty then .ok () else .error errors

inductive Refusal where
  | maxDepthExceeded
  deriving DecidableEq

def Refusal.message : Refusal → String
  | .maxDepthExceeded => "max depth exceeded"

/-- The errors of a value within limits. With enough errors the rest is not looked for; references
nested too deep leave no answer. -/
def validateWithin (validator : Validator) (limits : Limits) (value : Json) :
    Except Refusal (Array InstanceError) :=
  match validator.run limits value with
  | (.error .tooDeep, _) => .error .maxDepthExceeded
  | (_, errors) => .ok errors

end Validator

end JsonTypeDefinition
