import JsonTypeDefinition.Checks.Measure
import JsonTypeDefinition.Json.Printer
import JsonTypeDefinition.Schema.Form
import JsonTypeDefinition.Schema.Primitive
import JsonTypeDefinition.Text.Quoted

/-!
# Instance errors

A `Violation` says how a value fails its schema, an `InstanceError` also where in the schema and
where in the instance. Each violation has a code, fields that tell the details, and a message.
-/

namespace JsonTypeDefinition

/-- How a value can fail its schema. -/
inductive Violation where
  | typeMismatch (expected : Primitive) (actual : Json.Kind)
  | notWhole (expected : Primitive)
  | enumNotString (actual : Json.Kind)
  | enumOtherVariant (actual : String)
  | notArray (actual : Json.Kind)
  | propertiesNotObject (actual : Json.Kind)
  | propertyMissing (key : String)
  | propertyUnexpected (key : String)
  | valuesNotObject (actual : Json.Kind)
  | discriminatorNotObject (actual : Json.Kind)
  | tagMissing (tag : String)
  | tagNotString (actual : Json.Kind)
  | tagUnmapped (actual : String)
  /-- Reported by the extension that forbids leap seconds. -/
  | leapSecond
  /-- This violation and the following ones come from the extension for value checks. -/
  | patternMismatch (pattern : String)
  | notMultipleOf (divisor : Binary64)
  | elementsNotUnique
  | outOfBound (measure : Measure) (bound : Binary64) (relation : Relation)

namespace Violation

/-- The code that answers tell violations apart by. -/
def code : Violation → String
  | typeMismatch _ _ => "TYPE_FORM:TYPE_MISMATCH"
  | notWhole _ => "TYPE_FORM:TYPE_MISMATCH:NOT_INTEGER"
  | enumNotString _ => "ENUM_FORM:NOT_STRING"
  | enumOtherVariant _ => "ENUM_FORM:INVALID_VARIANT"
  | notArray _ => "ELEMENTS_FORM:NOT_ARRAY"
  | propertiesNotObject _ => "PROPERTIES_FORM:NOT_OBJECT"
  | propertyMissing _ => "PROPERTIES_FORM:MISSING_REQUIRED_PROPERTY"
  | propertyUnexpected _ => "PROPERTIES_FORM:UNEXPECTED_ADDITIONAL_PROPERTY"
  | valuesNotObject _ => "VALUES_FORM:NOT_OBJECT"
  | discriminatorNotObject _ => "DISCRIMINATOR_FORM:NOT_OBJECT"
  | tagMissing _ => "DISCRIMINATOR_FORM:MISSING_DISCRIMINATOR"
  | tagNotString _ => "DISCRIMINATOR_FORM:DISCRIMINATOR_VALUE_NOT_STRING"
  | tagUnmapped _ => "DISCRIMINATOR_FORM:INVALID_DISCRIMINATOR_VALUE"
  | leapSecond =>
    "EXTENSION:DISALLOW_LEAP_SECONDS:TYPE_FORM:LEAP_SECONDS_NOT_ALLOWED_ON_TIMESTAMP"
  | patternMismatch _ => "EXTENSION:X_CHECKS:PATTERN_MISMATCH"
  | notMultipleOf _ => "EXTENSION:X_CHECKS:NOT_MULTIPLE_OF"
  | elementsNotUnique => "EXTENSION:X_CHECKS:ELEMENTS_NOT_UNIQUE"
  | outOfBound _ _ _ => "EXTENSION:X_CHECKS:OUT_OF_BOUND"

def numberJson (x : Binary64) : Json :=
  .number (.ofBinary64 x)

def fields : Violation → Members
  | typeMismatch expected actual =>
    [("expectedType", .string expected.name), ("actualType", .string actual.name)]
  | notWhole expected => [("expectedType", .string expected.name)]
  | enumNotString actual => [("actualType", .string actual.name)]
  | enumOtherVariant actual => [("actualValue", .string actual)]
  | notArray actual => [("actualType", .string actual.name)]
  | propertiesNotObject actual => [("actualType", .string actual.name)]
  | propertyMissing key => [("key", .string key)]
  | propertyUnexpected key => [("key", .string key)]
  | valuesNotObject actual => [("actualType", .string actual.name)]
  | discriminatorNotObject actual => [("actualType", .string actual.name)]
  | tagMissing tag => [("discriminator", .string tag)]
  | tagNotString actual => [("actualType", .string actual.name)]
  | tagUnmapped actual => [("actualDiscriminatorValue", .string actual)]
  | leapSecond => []
  | patternMismatch pattern => [("pattern", .string pattern)]
  | notMultipleOf divisor => [("multipleOf", numberJson divisor)]
  | elementsNotUnique => []
  | outOfBound measure bound relation =>
    [("comparisonTargetType", .string measure.name), ("bound", numberJson bound),
      ("targetBeingWhatThanBound", .string relation.sign)]

def message : Violation → String
  | typeMismatch expected actual => s!"expected {expected.name}, got {actual.name}"
  | notWhole expected => s!"expected {expected.name}, got a non-integer number"
  | enumNotString actual => s!"expected an enum variant, got {actual.name}"
  | enumOtherVariant actual => s!"{Text.quoted actual} is not an enum variant"
  | notArray actual => s!"expected an array, got {actual.name}"
  | propertiesNotObject actual => s!"expected an object, got {actual.name}"
  | propertyMissing key => s!"missing required property {Text.quoted key}"
  | propertyUnexpected key => s!"unexpected property {Text.quoted key}"
  | valuesNotObject actual => s!"expected an object, got {actual.name}"
  | discriminatorNotObject actual => s!"expected an object, got {actual.name}"
  | tagMissing tag => s!"missing discriminator property {Text.quoted tag}"
  | tagNotString actual => s!"discriminator value must be a string, got {actual.name}"
  | tagUnmapped actual => s!"{Text.quoted actual} is not in the mapping"
  | leapSecond => "leap seconds are not allowed"
  | patternMismatch pattern => s!"string does not match {Text.quoted pattern}"
  | notMultipleOf divisor => s!"value is not a multiple of {Layout.message.write divisor}"
  | elementsNotUnique => "elements are not unique"
  | outOfBound measure bound relation =>
    s!"{measure.name} is {relation.sign} {Layout.message.write bound}"

/-- The violation as a JSON object: code first, then the details. -/
def toJson (violation : Violation) : Json :=
  .object (("type", .string violation.code) :: violation.fields)

end Violation

/-- A violation with the place in the schema that reports it and the place in the instance that
fails. -/
structure InstanceError where
  schemaPath : Path
  instancePath : Path
  violation : Violation

namespace InstanceError

def message (error : InstanceError) : String :=
  let text := error.violation.message
  let place := Text.quotedList error.schemaPath
  s!"{text} (at schema path {place}, instance path {Text.quotedList error.instancePath})"

def toJson (error : InstanceError) : Json :=
  .object [("schemaPath", .array (error.schemaPath.map .string)),
    ("instancePath", .array (error.instancePath.map .string)),
    ("raw", error.violation.toJson)]

end InstanceError

end JsonTypeDefinition
