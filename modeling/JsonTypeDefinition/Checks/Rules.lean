import JsonTypeDefinition.Checks.Bound
import JsonTypeDefinition.Checks.PatternEngine
import JsonTypeDefinition.Json.Equality
import JsonTypeDefinition.Timestamp.Basic

/-!
# The extension for value checks

Schemas may hold an `x:checks` object with limits on values beyond what their form says. The keys
depend on the form: lengths and a pattern for strings, a minimum and a maximum for numbers and
timestamps, a divisor for integers, sizes for arrays and objects, and uniqueness for arrays. The
other forms understand no key. Patterns are left to an engine.
-/

namespace JsonTypeDefinition.Checks

/-- The length of a string, in Unicode scalar values. -/
def stringLength? : Json → Option Binary64
  | .string s => some (.ofInt s.length)
  | _ => none

def numberValue? : Json → Option Binary64
  | .number n => some n.toBinary64
  | _ => none

/-- A timestamp in milliseconds. -/
def timestampValue? : Json → Option Binary64
  | .string s => Timestamp.millisOf? s
  | _ => none

def itemCount? : Json → Option Binary64
  | .array items => some (.ofInt items.length)
  | _ => none

def memberCount? : Json → Option Binary64
  | .object members => some (.ofInt members.length)
  | _ => none

def lengthRule : BoundRule where
  measure := .stringLength
  min := { inclusive := "minLength" }
  max := { inclusive := "maxLength" }
  counts := true
  measured := stringLength?

def valueRule (type : Primitive) : BoundRule where
  measure := .value
  min := { inclusive := "minimum", exclusive := some "exclusiveMinimum" }
  max := { inclusive := "maximum", exclusive := some "exclusiveMaximum" }
  counts := false
  measured := if type = .timestamp then timestampValue? else numberValue?

def elementsRule : BoundRule where
  measure := .elements
  min := { inclusive := "minElements" }
  max := { inclusive := "maxElements" }
  counts := true
  measured := itemCount?

def propertiesRule : BoundRule where
  measure := .properties
  min := { inclusive := "minProperties" }
  max := { inclusive := "maxProperties" }
  counts := true
  measured := memberCount?

def valuesRule : BoundRule where
  measure := .values
  min := { inclusive := "minValues" }
  max := { inclusive := "maxValues" }
  counts := true
  measured := memberCount?

/-- Lengths are limited for strings only. -/
def lengthAdmission (type : Primitive) : Admission := fun _ _ =>
  if type = .string then .ok none else .error [.lengthOnOtherType type]

/-- What an integer type says about a numeric bound. -/
def integerBoundFaults (type : Primitive) (side : Side) (value : Rat) : List SchemaFault :=
  match type.range? with
  | none => []
  | some (low, high) =>
    (if isWhole value then [] else [.integerBoundNotWhole side]) ++
      if value < low ∨ high < value then [.integerBoundOutOfRange side type] else []

/-- Values are limited for ordered types: timestamps by timestamps, integers by integers in range,
numbers by numbers. -/
def valueAdmission (type : Primitive) : Admission := fun side value =>
  if !type.isOrdered then .error [.boundOnUnorderedType side type]
  else if type = .timestamp then
    match value with
    | .string s =>
      match Timestamp.millisOf? s with
      | some millis => .ok (some millis)
      | none => .error [.timestampBoundMalformed side]
    | other => .error [.timestampBoundNotString side other.kind]
  else
    match value with
    | .number n =>
      match integerBoundFaults type side n.value with
      | [] => .ok none
      | faults => .error faults
    | _ => .ok none

def patternSupplement (engine : PatternEngine) (text : String) (pattern : engine.Compiled) :
    Supplement
  | .string s => if engine.isFoundIn pattern s then [] else [.patternMismatch text]
  | _ => []

/-- The check that a pattern member asks for, or what is wrong with it. -/
def patternCheck (engine : PatternEngine) (type : Primitive) (value : Json) :
    Except SchemaFault Supplement :=
  if type ≠ .string then .error (.patternOnOtherType type)
  else match value with
    | .string text =>
      match engine.compile text with
      | .ok pattern => .ok (patternSupplement engine text pattern)
      | .error message => .error (.patternInvalid message)
    | other => .error (.patternNotString other.kind)

/-- The check of numbers against a divisor. No number is a multiple where there is no remainder. -/
def multipleSupplement (divisor : Binary64) : Supplement
  | .number n => if n.toBinary64.rem? divisor = some 0 then [] else [.notMultipleOf divisor]
  | _ => []

/-- The check that a divisor member asks for, or what is wrong with it. -/
def multipleCheck (type : Primitive) (value : Json) : Except SchemaFault Supplement :=
  if !type.isNumeric then .error .multipleOfOnOtherType
  else if !type.isInteger then .error .multipleOfOnFloat
  else match value with
    | .number n =>
      if isWhole n.value then .ok (multipleSupplement n.toBinary64)
      else .error .multipleOfNotWhole
    | _ => .error .multipleOfNotNumber

def uniqueSupplement : Supplement
  | .array items => if Json.allDistinct items then [] else [.elementsNotUnique]
  | _ => []

def readCheck (key : String) (check : Json → Except SchemaFault Supplement) : Reader Unit := do
  match ← Reader.take? key with
  | none => pure ()
  | some value =>
    match check value with
    | .ok supplement => Reader.attach supplement
    | .error fault => Reader.report [fault]

/-- Reads the checks of the type form. For a type that does not exist no key applies. -/
def readType (engine : PatternEngine) (members : Members) : Reader Unit :=
  match ((members.get? "type").bind Json.string?).bind Primitive.ofName? with
  | none => pure ()
  | some type => do
    readBounds lengthRule (lengthAdmission type)
    readCheck "pattern" (patternCheck engine type)
    readBounds (valueRule type) (valueAdmission type)
    readCheck "multipleOf" (multipleCheck type)

def readElements : Reader Unit := do
  readBounds elementsRule anyBound
  if (← Reader.take? "uniqueElements").any Json.isTruthy then Reader.attach uniqueSupplement

def readForm (engine : PatternEngine) (form : Form) (members : Members) : Reader Unit :=
  match form with
  | .type => readType engine members
  | .elements => readElements
  | .properties => readBounds propertiesRule anyBound
  | .values => readBounds valuesRule anyBound
  | .empty | .enum | .discriminator | .ref => pure ()

def extensionName : String := "x:checks"

/-- The extension for value checks, with patterns of an engine. -/
def extensionWith (engine : PatternEngine) : Extension where
  name := extensionName
  declared := [key]
  hooks := Form.all.map fun form => (form, hook (readForm engine form))

end JsonTypeDefinition.Checks
