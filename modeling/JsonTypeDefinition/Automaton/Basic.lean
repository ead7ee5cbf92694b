import JsonTypeDefinition.Pattern.Reduced

/-!
# Automata of patterns

A reduced pattern is laid out as two automata over bytes, one that reads texts forward and one
that reads them backward. A state takes 32 bytes. A state with a choice of byte ranges takes 8 more
for each of them, and a fork, which leads to other states without reading, 4 more for each. No
automaton may take more than 10 MiB.

The automata are not built, only measured.
-/

namespace JsonTypeDefinition

/-- Which way an automaton reads. -/
inductive Direction where
  | forward
  | backward
  deriving DecidableEq

namespace Automaton

def stateSize : Nat := 32

/-- The bytes of a range that leads out of a state, if several may. -/
def rangeSize : Nat := 8

def wayOutSize : Nat := 4

/-- The bytes an automaton may take. -/
def sizeLimit : Nat := 10 * 1024 * 1024

mutual

/-- Whether a pattern is found only where the automaton starts to read. -/
def isAnchored (direction : Direction) : Reduced → Bool
  | .empty | .literal _ | .set _ => false
  | .assertion condition =>
    condition == if direction = .forward then .textStart else .textEnd
  | .concat parts => isAnchoredBy direction parts
  | .alternation branches => areAnchored direction branches
  | .loop _ min _ body => 0 < min && isAnchored direction body
  | .capture body => isAnchored direction body

/-- Whether one of the parts is anchored and those that are read before it are blank. -/
def isAnchoredBy (direction : Direction) : List Reduced → Bool
  | [] => false
  | p :: rest =>
    match direction with
    | .forward => isAnchored direction p || (p.isBlank && isAnchoredBy direction rest)
    | .backward => isAnchoredBy direction rest || (Reduced.areBlank rest && isAnchored direction p)

def areAnchored (direction : Direction) : List Reduced → Bool
  | [] => true
  | p :: rest => isAnchored direction p && areAnchored direction rest

end

end Automaton

end JsonTypeDefinition
