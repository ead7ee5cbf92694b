/-!
# Schema forms

A schema takes one of eight forms, told by the form keys it holds. A schema with none of them has
the empty form.
-/

namespace JsonTypeDefinition

inductive Form where
  | empty
  | type
  | enum
  | elements
  | properties
  | values
  | discriminator
  | ref
  deriving DecidableEq, Inhabited

namespace Form

def all : List Form := [empty, type, enum, elements, properties, values, discriminator, ref]

def name : Form → String
  | empty => "empty"
  | type => "type"
  | enum => "enum"
  | elements => "elements"
  | properties => "properties"
  | values => "values"
  | discriminator => "discriminator"
  | ref => "ref"

/-- The key that a form adds to the paths of its errors. The empty form has no key and the
properties form has two, so these report at the schema itself. -/
def keyword? : Form → Option String
  | empty => none
  | type => some "type"
  | enum => some "enum"
  | elements => some "elements"
  | properties => none
  | values => some "values"
  | discriminator => some "discriminator"
  | ref => some "ref"

def ofKey? (key : String) : Option Form :=
  if key = "type" then some type
  else if key = "enum" then some enum
  else if key = "elements" then some elements
  else if key = "properties" then some properties
  else if key = "optionalProperties" then some properties
  else if key = "values" then some values
  else if key = "discriminator" then some discriminator
  else if key = "ref" then some ref
  else none

end Form

/-- Keys and array indices from the root of a document to a place in it. -/
abbrev Path := List String

/-- Where hooks of a form report, and the checks of a form whose key has one path. -/
def Form.path (form : Form) (schemaPath : Path) : Path :=
  schemaPath ++ form.keyword?.toList

end JsonTypeDefinition
