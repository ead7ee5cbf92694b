import JsonTypeDefinition.Schema.Form

/-!
# The keys of a schema object

`KeyGroups.ofKeys` sorts the keys of a schema object by the role they play. Form keys of two forms
make the schema ambiguous. Some of the other keys are understood for every form, some for one form
only, and some because an extension declares them; the rest is unrecognized. As the form is not
known before the last key, sorting takes two passes.
-/

namespace JsonTypeDefinition

/-- The keys of a schema object of one form, by their role. -/
structure FormKeys where
  form : Form
  nullable : Bool := false
  metadata : Bool := false
  definitions : Bool := false
  properties : Bool := false
  optionalProperties : Bool := false
  additionalProperties : Bool := false
  mapping : Bool := false
  /-- The keys that play no role, in order. -/
  unrecognized : List String := []
  deriving DecidableEq

inductive KeyGroups where
  /-- Form keys of two forms; all form keys in order. -/
  | ambiguous (formKeys : List String)
  | ofForm (keys : FormKeys)
  deriving DecidableEq

namespace KeyGroups

/-- Whether two occurrences of form keys go together: only the two keys of the properties form
do, and no key of another form goes with a second occurrence of itself. -/
def agree (form other : Form) : Bool :=
  form == other && form == .properties

structure Scan where
  /-- The form of the first form key. -/
  form : Option Form := none
  /-- Whether a later form key does not go with the first one. -/
  ambiguous : Bool := false
  formKeys : List String := []
  properties : Bool := false
  optionalProperties : Bool := false
  /-- The keys that are no form keys, in order. -/
  rest : List String := []

def Scan.meet (scan : Scan) (key : String) : Scan :=
  match Form.ofKey? key with
  | none => { scan with rest := scan.rest ++ [key] }
  | some form =>
    { scan with
      form := scan.form.or (some form)
      ambiguous := scan.ambiguous || scan.form.any fun first => !agree first form
      formKeys := scan.formKeys ++ [key]
      properties := scan.properties || key == "properties"
      optionalProperties := scan.optionalProperties || key == "optionalProperties" }

/-- Gives a key that is no form key its role, in the second pass. -/
def assign (declared : List String) (sorted : FormKeys) (key : String) : FormKeys :=
  if key = "nullable" then { sorted with nullable := true }
  else if key = "metadata" then { sorted with metadata := true }
  else if key = "definitions" then { sorted with definitions := true }
  else if key = "additionalProperties" ∧ sorted.form = .properties then
    { sorted with additionalProperties := true }
  else if key = "mapping" ∧ sorted.form = .discriminator then { sorted with mapping := true }
  else if declared.contains key then sorted
  else { sorted with unrecognized := sorted.unrecognized ++ [key] }

/-- Sorts keys, given in order, next to the keys that extensions declare. -/
def ofKeys (keys declared : List String) : KeyGroups :=
  let scan := keys.foldl Scan.meet {}
  if scan.ambiguous then .ambiguous scan.formKeys
  else
    .ofForm (scan.rest.foldl (assign declared)
      { form := scan.form.getD .empty
        properties := scan.properties
        optionalProperties := scan.optionalProperties })

end KeyGroups

end JsonTypeDefinition
