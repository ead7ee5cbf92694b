import JsonTypeDefinition.Extension.Basic
import JsonTypeDefinition.Timestamp.Basic

/-!
# Compiled schemas

A `Validator` holds one node for each schema object of a document. A node only holds what was
compiled from its schema object; it names other nodes by their index.
-/

namespace JsonTypeDefinition

abbrev NodeId := Nat

/-- How a value fails a primitive type, if it does. A number is checked by its binary64 value. -/
def Primitive.violation? (type : Primitive) (value : Json) : Option Violation :=
  let mismatch := Violation.typeMismatch type value.kind
  match type.range? with
  | some (low, high) =>
    match value.number? with
    | none => some mismatch
    | some n =>
      if !isWhole n.value then some (.notWhole type)
      else if n.value < low || high < n.value then some mismatch
      else none
  | none =>
    let accepted := match type, value with
      | .boolean, .bool _ => true
      | .string, .string _ => true
      | .timestamp, .string s => Timestamp.isTimestamp s
      | .float32, .number _ => true
      | .float64, .number _ => true
      | _, _ => false
    if accepted then none else some mismatch

/-- The properties form, compiled. -/
structure PropertiesShape where
  /-- The names that must occur, in schema order. -/
  required : List String
  /-- The schemas of required and optional properties. -/
  subs : List (String × NodeId)
  /-- Whether other properties may occur. -/
  additional : Bool
  /-- Whether the schema has the key for required properties. -/
  hasRequiredKey : Bool
  /-- In a mapping entry, the tag, which may always occur. -/
  tag : Option String

/-- What a node checks, by form. -/
inductive Shape where
  | empty
  | type (type : Primitive)
  | enum (variants : List String)
  | elements (sub : NodeId)
  | properties (shape : PropertiesShape)
  | values (sub : NodeId)
  | discriminator (tag : String) (mapping : List (String × NodeId))
  /-- The index of a definition. -/
  | ref (definition : Nat)

def Shape.form : Shape → Form
  | empty => .empty
  | type _ => .type
  | enum _ => .enum
  | elements _ => .elements
  | properties _ => .properties
  | values _ => .values
  | discriminator _ _ => .discriminator
  | ref _ => .ref

structure Node where
  /-- The path of the schema object. -/
  schemaPath : Path
  nullable : Bool
  supplements : List Supplement
  shape : Shape

namespace Node

/-- Where a node of most forms reports. -/
def formPath (node : Node) : Path :=
  node.shape.form.path node.schemaPath

/-- Where supplements report: as their node does, except that a discriminator's report at the
schema itself. -/
def supplementPath (node : Node) : Path :=
  match node.shape with
  | .discriminator _ _ => node.schemaPath
  | _ => node.formPath

end Node

structure Validator where
  nodes : Array Node
  /-- The nodes of the definitions, in document order. -/
  definitions : Array NodeId
  root : NodeId

namespace Validator

def describe (validator : Validator) : String :=
  let nodes := validator.nodes.size
  let definitions := validator.definitions.size
  s!"Validator \x7b nodes: {nodes}, definitions: {definitions} \x7d"

end Validator

end JsonTypeDefinition
