import JsonTypeDefinition.Text.CaseFold
import JsonTypeDefinition.Text.Letters

/-!
# Patterns

The abstract form of a regular expression.
-/

namespace JsonTypeDefinition

open Text (Ranges)

def Text.asciiWordRanges : Ranges := #[(0x30, 0x39), (0x41, 0x5a), (0x5f, 0x5f), (0x61, 0x7a)]

/-- A condition on which sides of a place belong to words. -/
inductive WordAssertion where
  | boundary
  | noBoundary
  | start
  | stop
  | startHalf
  | stopHalf
  deriving DecidableEq

def WordAssertion.holds (before after : Bool) : WordAssertion → Bool
  | boundary => before != after
  | noBoundary => before == after
  | start => !before && after
  | stop => before && !after
  | startHalf => !before
  | stopHalf => !after

/-- A condition on the place between two characters. -/
inductive Assertion where
  | textStart
  | textEnd
  | lineStart
  | lineEnd
  /-- Like `lineStart`, with a carriage return and a line feed together ending a line. -/
  | crlfLineStart
  | crlfLineEnd
  /-- Words are made of ASCII characters alone or of any word characters. -/
  | word (ascii : Bool) (condition : WordAssertion)
  deriving DecidableEq

/-- A place in a text: the characters before and after, where either may be missing. -/
structure Place where
  before : Option Char
  after : Option Char

def Assertion.holds (place : Place) : Assertion → Bool
  | textStart => place.before.isNone
  | textEnd => place.after.isNone
  | lineStart => place.before.isNone || place.before == some '\n'
  | lineEnd => place.after.isNone || place.after == some '\n'
  | crlfLineStart =>
    place.before.isNone || place.before == some '\n' ||
      (place.before == some '\r' && place.after != some '\n')
  | crlfLineEnd =>
    place.after.isNone || place.after == some '\r' ||
      (place.after == some '\n' && place.before != some '\r')
  | word ascii condition =>
    let words := if ascii then Text.asciiWordRanges else Text.wordRanges
    condition.holds (place.before.any words.contains) (place.after.any words.contains)

inductive Pattern where
  /-- One character of the set, which was written with so many levels of brackets. -/
  | set (levels : Nat) (chars : Ranges)
  | assertion (condition : Assertion)
  | concat (parts : List Pattern)
  | alternation (branches : List Pattern)
  /-- Between `min` and `max` times the body, without a `max` any number. A greedy repetition
  takes as many as it can, which changes what is found but not whether something is. -/
  | loop (greedy : Bool) (min : Nat) (max : Option Nat) (body : Pattern)
  | group (captures : Bool) (body : Pattern)
  deriving Inhabited

namespace Pattern

def empty : Pattern := concat []

mutual

def depth : Pattern → Nat
  | set levels _ => levels
  | assertion _ => 0
  | concat [] => 0
  | concat (part :: rest) => max (depth part) (depthOfList rest) + 1
  | alternation branches => depthOfList branches + 1
  | loop _ _ _ body => depth body + 1
  | group _ body => depth body + 1

def depthOfList : List Pattern → Nat
  | [] => 0
  | p :: rest => max (depth p) (depthOfList rest)

end

end Pattern

end JsonTypeDefinition
