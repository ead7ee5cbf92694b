import JsonTypeDefinition.Checks.Rules
import JsonTypeDefinition.Pattern.Limits

/-!
# Value checks as the command line runs them
-/

namespace JsonTypeDefinition.Checks

/-- The extension for value checks, with patterns of the engine that comes with the library. -/
def extension : Extension :=
  extensionWith Pattern.engine

end JsonTypeDefinition.Checks
