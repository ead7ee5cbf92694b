/-!
# Regular expressions

Patterns are read and searched for by a library of regular expressions. A `PatternEngine` is what
value checks use of it.
-/

namespace JsonTypeDefinition

/-- A library of regular expressions. -/
structure PatternEngine where
  /-- The patterns that it can search for. -/
  Compiled : Type
  /-- The pattern that a text stands for, or else the message why it stands for none. -/
  compile : String → Except String Compiled
  /-- Whether a pattern is found somewhere in a text. -/
  isFoundIn : Compiled → String → Bool

end JsonTypeDefinition
