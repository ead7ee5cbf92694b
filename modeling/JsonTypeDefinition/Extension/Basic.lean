import JsonTypeDefinition.Schema.Fault
import JsonTypeDefinition.Validation.Violation

/-!
# Extensions

An extension declares schema keys of its own and hooks into the compilation of schemas. A hook sees
every schema object of its form and can report faults and attach supplements, which are further
checks on the values that reach the compiled schema.
-/

namespace JsonTypeDefinition

/-- A further check on a value. -/
abbrev Supplement := Json → List Violation

/-- What a hook adds at one schema object. -/
structure Contribution where
  faults : List SchemaFault := []
  supplements : List Supplement := []

/-- A function of a schema object and the path its form reports at. -/
abbrev Hook := Members → Path → Contribution

/-- An optional set of checks. Extensions of one name are the same extension. -/
structure Extension where
  name : String
  /-- Keys that any schema may hold. -/
  declared : List String := []
  /-- Hooks with the forms they are for, in the order they run. -/
  hooks : List (Form × Hook) := []

/-- How a schema is compiled. -/
structure Options where
  /-- The enabled extensions, in order, no two of one name. -/
  extensions : List Extension := []

namespace Options

/-- Enables an extension, unless one of its name is enabled already. -/
def withExtension (options : Options) (extension : Extension) : Options :=
  if options.extensions.any fun other => other.name == extension.name then options
  else { options with extensions := options.extensions ++ [extension] }

def ofExtensions (extensions : List Extension) : Options :=
  extensions.foldl withExtension {}

def declared (options : Options) : List String :=
  options.extensions.flatMap (·.declared)

/-- The hooks for a form, in the order they run. -/
def hooksFor (options : Options) (form : Form) : List Hook :=
  (options.extensions.flatMap (·.hooks)).filterMap fun (hooked, hook) =>
    if hooked = form then some hook else none

def contribution (options : Options) (form : Form) (members : Members) (path : Path) :
    Contribution :=
  let parts := (options.hooksFor form).map fun hook => hook members path
  { faults := parts.flatMap (·.faults), supplements := parts.flatMap (·.supplements) }

end Options

end JsonTypeDefinition
