import JsonTypeDefinition.Automaton.Size
import JsonTypeDefinition.Checks.PatternEngine
import JsonTypeDefinition.Pattern.Matcher
import JsonTypeDefinition.Pattern.Parser

/-!
# Patterns within limits

A text stands for a pattern if it can be read, does not nest too deep and is not too large.
-/

namespace JsonTypeDefinition.Pattern

/-- The deepest nesting that is accepted. -/
def maxDepth : Nat := 250

def ofText? (text : String) : Option Pattern := do
  let p ← parse? text
  if p.depth ≤ maxDepth ∧ p.reduce.fits then some p else none

/-- The engine of these patterns. It knows no classes of characters by property, and does not say why
a text is refused. -/
def engine : PatternEngine where
  Compiled := Pattern
  compile text :=
    match ofText? text with
    | some pattern => .ok pattern
    | none => .error "<regex error>"
  isFoundIn := isFoundIn

end JsonTypeDefinition.Pattern
