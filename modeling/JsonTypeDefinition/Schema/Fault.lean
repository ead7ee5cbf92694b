import JsonTypeDefinition.Checks.Measure
import JsonTypeDefinition.Json.Printer
import JsonTypeDefinition.Schema.Form
import JsonTypeDefinition.Schema.Primitive
import JsonTypeDefinition.Text.Quoted

/-!
# Schema errors

A `SchemaFault` says what is wrong with a schema, a `SchemaError` also where. Each fault has a code,
fields that tell the details, and a message.
-/

namespace JsonTypeDefinition

inductive SchemaFault where
  | ambiguousForm (keys : List String)
  | notObject (actual : Json.Kind)
  | mappingOfOtherForm (form : Form)
  | mappingNullable
  | mappingDeclaresTag (tag : String)
  | rootOnlyKeys (keys : List String)
  | unrecognizedKeys (form : Form) (keys : List String)
  | nullableNotBoolean (actual : Json.Kind)
  | unknownType (name : String)
  | typeNotString (actual : Json.Kind)
  | enumNotArray (actual : Json.Kind)
  | enumEmpty
  | enumOfOtherThanStrings
  | enumRepeats (variants : List Json)
  | propertiesNotObject (actual : Json.Kind)
  | optionalPropertiesNotObject (actual : Json.Kind)
  | propertiesOverlap (keys : List String)
  | additionalPropertiesNotBoolean (actual : Json.Kind)
  | discriminatorNotString (actual : Json.Kind)
  | mappingMissing
  | mappingNotObject (actual : Json.Kind)
  | refNotString (actual : Json.Kind)
  | refUndefined (name : String)
  | definitionsNotObject (actual : Json.Kind)
  | definitionsCircular (names : List String)
  /-- Reported by the extension that forbids empty mappings. -/
  | mappingEmpty
  /-- This fault and the following ones come from the extension for value checks. -/
  | checksNotObject
  | checksSurplus (keys : List String)
  | lengthOnOtherType (actual : Primitive)
  | patternOnOtherType (actual : Primitive)
  | patternNotString (actual : Json.Kind)
  | patternInvalid (message : String)
  | boundOnUnorderedType (side : Side) (actual : Primitive)
  | timestampBoundNotString (side : Side) (actual : Json.Kind)
  | timestampBoundMalformed (side : Side)
  | integerBoundNotWhole (side : Side)
  | integerBoundOutOfRange (side : Side) (type : Primitive)
  | multipleOfOnOtherType
  | multipleOfOnFloat
  | multipleOfNotNumber
  | multipleOfNotWhole
  | boundsCross (measure : Measure)
  | boundsExcludeAll (measure : Measure)
  | boundGivenTwice (measure : Measure) (side : Side)
  | boundNotNumber (measure : Measure) (side : Side) (actual : Json.Kind)
  | boundNotCount (measure : Measure) (side : Side)

namespace SchemaFault

/-- The code that answers tell faults apart by. -/
def code : SchemaFault → String
  | ambiguousForm _ => "SCHEMA_FORM:AMBIGUOUS"
  | notObject _ => "SCHEMA_FORM:NOT_OBJECT"
  | mappingOfOtherForm _ => "MAPPING:NON_PROPERTIES_SCHEMA_FORM"
  | mappingNullable => "MAPPING:NULLABLE"
  | mappingDeclaresTag _ => "MAPPING:DISCRIMINATOR_AS_PROPERTY_KEY"
  | rootOnlyKeys _ => "NON_ROOT_SCHEMA:ROOT_ONLY_KEYS"
  | unrecognizedKeys _ _ => "COMMON_SCHEMA:UNRECOGNIZED_KEYS"
  | nullableNotBoolean _ => "COMMON_SCHEMA:NON_BOOLEAN_NULLABLE_VALUE"
  | unknownType _ => "TYPE_FORM:UNKNOWN_TYPE"
  | typeNotString _ => "TYPE_FORM:NON_STRING_TYPE"
  | enumNotArray _ => "ENUM_FORM:NON_ARRAY_ENUM"
  | enumEmpty => "ENUM_FORM:EMPTY_ENUM"
  | enumOfOtherThanStrings => "ENUM_FORM:NON_STRING_VARIANTS"
  | enumRepeats _ => "ENUM_FORM:DUPLICATE_VARIANTS"
  | propertiesNotObject _ => "PROPERTIES_FORM:NON_OBJECT_PROPERTIES"
  | optionalPropertiesNotObject _ => "PROPERTIES_FORM:NON_OBJECT_OPTIONAL_PROPERTIES"
  | propertiesOverlap _ => "PROPERTIES_FORM:OVERLAPPING_REQUIRED_AND_OPTIONAL_PROPERTIES"
  | additionalPropertiesNotBoolean _ => "PROPERTIES_FORM:NON_BOOLEAN_ADDITIONAL_PROPERTIES"
  | discriminatorNotString _ => "DISCRIMINATOR_FORM:NON_STRING_DISCRIMINATOR"
  | mappingMissing => "DISCRIMINATOR_FORM:MISSING_MAPPING"
  | mappingNotObject _ => "DISCRIMINATOR_FORM:NON_OBJECT_MAPPING"
  | refNotString _ => "REF_FORM:NON_STRING_REF"
  | refUndefined _ => "REF_FORM:NO_DEFINITION"
  | definitionsNotObject _ => "DEFINITIONS:NON_OBJECT_DEFINITIONS"
  | definitionsCircular _ => "DEFINITIONS:NOOP_CIRCULAR_REFERENCES_DETECTED"
  | mappingEmpty => "EXTENSION:DISALLOW_EMPTY_MAPPINGS:DISCRIMINATOR_FORM:EMPTY_MAPPING"
  | checksNotObject => "EXTENSION:X_CHECKS:X_OBJECT:NOT_OBJECT"
  | checksSurplus _ => "EXTENSION:X_CHECKS:X_OBJECT:SURPLUS_PROPERTIES"
  | lengthOnOtherType _ => "EXTENSION:X_CHECKS:TYPE_FORM:LENGTH_ON_NON_STRING"
  | patternOnOtherType _ => "EXTENSION:X_CHECKS:TYPE_FORM:PATTERN_ON_NON_STRING"
  | patternNotString _ => "EXTENSION:X_CHECKS:TYPE_FORM:NON_STRING_PATTERN"
  | patternInvalid _ => "EXTENSION:X_CHECKS:TYPE_FORM:INVALID_PATTERN"
  | boundOnUnorderedType _ _ => "EXTENSION:X_CHECKS:TYPE_FORM:BOUND_ON_NON_BOUNDABLE"
  | timestampBoundNotString _ _ =>
    "EXTENSION:X_CHECKS:TYPE_FORM:NON_STRING_BOUND_ON_TIMESTAMP"
  | timestampBoundMalformed _ => "EXTENSION:X_CHECKS:TYPE_FORM:NON_RFC3339_BOUND_ON_TIMESTAMP"
  | integerBoundNotWhole _ => "EXTENSION:X_CHECKS:TYPE_FORM:NON_INTEGER_BOUND_ON_INTEGER"
  | integerBoundOutOfRange _ _ => "EXTENSION:X_CHECKS:TYPE_FORM:BOUND_OUT_OF_RANGE"
  | multipleOfOnOtherType => "EXTENSION:X_CHECKS:TYPE_FORM:MULTIPLE_OF_ON_NON_NUMERIC"
  | multipleOfOnFloat =>
    "EXTENSION:X_CHECKS:TYPE_FORM:MULTIPLE_OF_ON_NON_INTEGER_NUMERIC_NOT_SUPPORTED"
  | multipleOfNotNumber => "EXTENSION:X_CHECKS:TYPE_FORM:NON_NUMERIC_MULTIPLE_OF"
  | multipleOfNotWhole => "EXTENSION:X_CHECKS:TYPE_FORM:NON_INTEGER_MULTIPLE_OF_NOT_SUPPORTED"
  | boundsCross _ => "EXTENSION:X_CHECKS:BOUND:MIN_GREATER_THAN_MAX"
  | boundsExcludeAll _ => "EXTENSION:X_CHECKS:BOUND:MIN_EQUAL_TO_MAX_WHILE_EXCLUSIVE"
  | boundGivenTwice _ _ => "EXTENSION:X_CHECKS:BOUND:BOTH_EXCLUSIVE_AND_INCLUSIVE"
  | boundNotNumber _ _ _ => "EXTENSION:X_CHECKS:BOUND:NON_NUMERIC_BOUND"
  | boundNotCount _ _ => "EXTENSION:X_CHECKS:BOUND:NEGATIVE_OR_NON_INTEGER_BOUND_NOT_ALLOWED"

def stringsField (key : String) (items : List String) : String × Json :=
  (key, .array (items.map .string))

def kindField (key : String) (kind : Json.Kind) : String × Json :=
  (key, .string kind.name)

def typeField (key : String) (type : Primitive) : String × Json :=
  (key, .string type.name)

def sideField (side : Side) : String × Json :=
  ("boundSide", .string side.name)

def measureField (measure : Measure) : String × Json :=
  ("comparisonTargetType", .string measure.name)

def fields : SchemaFault → Members
  | ambiguousForm keys => [stringsField "discriminatorKeys" keys]
  | notObject actual => [kindField "actualType" actual]
  | mappingOfOtherForm form => [("form", .string form.name)]
  | mappingDeclaresTag tag => [("discriminator", .string tag)]
  | rootOnlyKeys keys => [stringsField "keys" keys]
  | unrecognizedKeys form keys => [("form", .string form.name), stringsField "keys" keys]
  | nullableNotBoolean actual => [kindField "actualType" actual]
  | unknownType name => [("actualType", .string name)]
  | typeNotString actual => [kindField "actualTypeType" actual]
  | enumNotArray actual => [kindField "actualEnumType" actual]
  | enumRepeats variants => [("duplicateVariants", .array variants)]
  | propertiesNotObject actual => [kindField "actualPropertiesType" actual]
  | optionalPropertiesNotObject actual => [kindField "actualOptionalPropertiesType" actual]
  | propertiesOverlap keys => [stringsField "keys" keys]
  | additionalPropertiesNotBoolean actual => [kindField "actualAdditionalPropertiesType" actual]
  | discriminatorNotString actual => [kindField "actualDiscriminatorType" actual]
  | mappingNotObject actual => [kindField "actualMappingType" actual]
  | refNotString actual => [kindField "actualRefType" actual]
  | refUndefined name => [("definition", .string name)]
  | definitionsNotObject actual => [kindField "actualDefinitionsType" actual]
  | definitionsCircular names => [stringsField "definitionsInCycle" names]
  | checksSurplus keys => [stringsField "keys" keys]
  | lengthOnOtherType actual => [typeField "actualType" actual]
  | patternOnOtherType actual => [typeField "actualType" actual]
  | patternNotString actual => [kindField "patternType" actual]
  | patternInvalid message => [("errorMessage", .string message)]
  | boundOnUnorderedType side actual => [sideField side, typeField "actualType" actual]
  | timestampBoundNotString side actual => [sideField side, kindField "actualBoundType" actual]
  | timestampBoundMalformed side => [sideField side]
  | integerBoundNotWhole side => [sideField side]
  | integerBoundOutOfRange side type => [sideField side, typeField "typeType" type]
  | boundsCross measure => [measureField measure]
  | boundsExcludeAll measure => [measureField measure]
  | boundGivenTwice measure side => [measureField measure, sideField side]
  | boundNotNumber measure side actual =>
    [measureField measure, sideField side, kindField "actualBoundType" actual]
  | boundNotCount measure side => [measureField measure, sideField side]
  | mappingNullable | enumEmpty | enumOfOtherThanStrings | mappingMissing | mappingEmpty
  | checksNotObject | multipleOfOnOtherType | multipleOfOnFloat | multipleOfNotNumber
  | multipleOfNotWhole => []

/-- A repeated variant inside a message. Arrays and objects never repeat. -/
def variantText : Json → String
  | .null => "Null"
  | .bool b => "Bool(" ++ toString b ++ ")"
  | .number n => "Number(" ++ n.render ++ ")"
  | .string s => "String(" ++ Text.quoted s ++ ")"
  | .array _ => "Array"
  | .object _ => "Object"

def message : SchemaFault → String
  | ambiguousForm keys => s!"schema mixes keys of several forms: {Text.quotedList keys}"
  | notObject actual => s!"schema must be an object, got {actual.name}"
  | mappingOfOtherForm form =>
    s!"mapping entries must be of the properties form, got {form.name}"
  | mappingNullable => "mapping entries must not be nullable"
  | mappingDeclaresTag tag =>
    s!"mapping entry declares the discriminator {Text.quoted tag} as a property"
  | rootOnlyKeys keys => s!"keys only allowed on the root schema: {Text.quotedList keys}"
  | unrecognizedKeys form keys =>
    s!"unrecognized keys on a {form.name} schema: {Text.quotedList keys}"
  | nullableNotBoolean actual => s!"nullable must be a boolean, got {actual.name}"
  | unknownType name => s!"unknown type {Text.quoted name}"
  | typeNotString actual => s!"type must be a string, got {actual.name}"
  | enumNotArray actual => s!"enum must be an array, got {actual.name}"
  | enumEmpty => "enum must not be empty"
  | enumOfOtherThanStrings => "enum variants must be strings"
  | enumRepeats variants =>
    s!"duplicate enum variants: {Text.bracketed (variants.map variantText)}"
  | propertiesNotObject actual => s!"properties must be an object, got {actual.name}"
  | optionalPropertiesNotObject actual =>
    s!"optionalProperties must be an object, got {actual.name}"
  | propertiesOverlap keys =>
    s!"properties declared both required and optional: {Text.quotedList keys}"
  | additionalPropertiesNotBoolean actual =>
    s!"additionalProperties must be a boolean, got {actual.name}"
  | discriminatorNotString actual => s!"discriminator must be a string, got {actual.name}"
  | mappingMissing => "discriminator schema has no mapping"
  | mappingNotObject actual => s!"mapping must be an object, got {actual.name}"
  | refNotString actual => s!"ref must be a string, got {actual.name}"
  | refUndefined name => s!"no definition named {Text.quoted name}"
  | definitionsNotObject actual => s!"definitions must be an object, got {actual.name}"
  | definitionsCircular names =>
    s!"definitions only refer to each other in a cycle: {Text.quotedList names}"
  | mappingEmpty => "mapping must not be empty"
  | checksNotObject => "x:checks must be an object"
  | checksSurplus keys => s!"x:checks has keys that do not apply here: {Text.quotedList keys}"
  | lengthOnOtherType actual => s!"length checks only apply to strings, not {actual.name}"
  | patternOnOtherType actual => s!"pattern only applies to strings, not {actual.name}"
  | patternNotString actual => s!"pattern must be a string, got {actual.name}"
  | patternInvalid message => s!"invalid pattern: {message}"
  | boundOnUnorderedType side actual =>
    s!"{side.name} bound does not apply to {actual.name}"
  | timestampBoundNotString side actual =>
    s!"{side.name} bound of a timestamp must be a string, got {actual.name}"
  | timestampBoundMalformed side =>
    s!"{side.name} bound of a timestamp must be an RFC3339 timestamp"
  | integerBoundNotWhole side =>
    s!"{side.name} bound of an integer type must be an integer"
  | integerBoundOutOfRange side type =>
    s!"{side.name} bound is outside the range of {type.name}"
  | multipleOfOnOtherType => "multipleOf only applies to numeric types"
  | multipleOfOnFloat => "multipleOf is not supported on float types"
  | multipleOfNotNumber => "multipleOf must be a number"
  | multipleOfNotWhole => "multipleOf must be an integer"
  | boundsCross measure =>
    s!"minimum {measure.name} bound is greater than the maximum"
  | boundsExcludeAll measure =>
    s!"exclusive {measure.name} bounds are equal, so nothing can satisfy them"
  | boundGivenTwice measure side =>
    s!"{side.name} {measure.name} bound is both exclusive and inclusive"
  | boundNotNumber measure side actual =>
    s!"{side.name} {measure.name} bound must be a number, got {actual.name}"
  | boundNotCount measure side =>
    s!"{side.name} {measure.name} bound must be a non-negative integer"

/-- The fault as a JSON object: code first, then the details. -/
def toJson (fault : SchemaFault) : Json :=
  .object (("type", .string fault.code) :: fault.fields)

end SchemaFault

/-- A fault and the place in the schema document it is reported at. -/
structure SchemaError where
  path : Path
  fault : SchemaFault

namespace SchemaError

def message (error : SchemaError) : String :=
  s!"{error.fault.message} (at schema path {Text.quotedList error.path})"

/-- The error in words, where these do not come from an engine of patterns. -/
def message? (error : SchemaError) : Option String :=
  match error.fault with
  | .patternInvalid _ => none
  | _ => some error.message

def toJson (error : SchemaError) : Json :=
  .object [SchemaFault.stringsField "schemaPath" error.path, ("raw", error.fault.toJson)]

end SchemaError

end JsonTypeDefinition
