import JsonTypeDefinition.Automaton.Sets
import JsonTypeDefinition.Automaton.Words

/-!
# The size of automata

A pattern is measured part by part. A part has a first and a last state; two states are added for a
capture where texts are read forward, none where they are read backward.
-/

namespace JsonTypeDefinition

namespace Automaton

structure Size where
  states : Nat := 0
  /-- The bytes besides the states themselves. -/
  extra : Nat := 0

def Size.bytes (size : Size) : Nat := stateSize * size.states + size.extra

/-- Something that is laid out, which fails if the limit is passed. A part of a pattern answers
whether its last state is a fork: what leads out of that is laid out with what follows. -/
abbrev Sizing := StateT Size Option

namespace Sizing

def add (states extra : Nat) : Sizing Unit := do
  let size ← get
  let size : Size := ⟨size.states + states, size.extra + extra⟩
  if size.bytes ≤ sizeLimit then set size else failure

/-- Lays out the way from a last state to what follows. Only a fork takes more for it. -/
def leave (fork : Bool) : Sizing Unit :=
  if fork then add 0 wayOutSize else pure ()

/-- Lays out copies of a part one after the other, behind a state that may be a fork. -/
def copies (part : Sizing Bool) : Nat → Bool → Sizing Bool
  | 0, fork => return fork
  | count + 1, fork => do
    let next ← part
    leave fork
    copies part count next

/-- Lays out copies of a part that may be left out, each with a fork before it, and then the ways
to the state behind them. -/
def options (part : Sizing Bool) : Nat → Bool → Sizing Unit
  | 0, fork => leave fork
  | count + 1, fork => do
    add 1 (2 * wayOutSize)
    leave fork
    let next ← part
    options part count next

/-- Lays out a number of copies of a part. No copies are a state of their own. -/
def exactly (part : Sizing Bool) : Nat → Sizing Bool
  | 0 => do
    add 1 0
    return false
  | count + 1 => do
    let fork ← part
    copies part count fork

/-- Lays out a repetition of a part. Where any number of copies will do, one fork is enough if each
copy needs a character, which `minLength` tells. -/
def repetition (minLength : Option Nat) (min : Nat) (max : Option Nat) (part : Sizing Bool) :
    Sizing Bool := do
  match min, max with
  | 0, some 1 =>
    add 1 (2 * wayOutSize)
    let fork ← part
    add 1 0
    leave fork
    return false
  | 0, none =>
    if minLength.any (0 < ·) then
      add 1 wayOutSize
      let fork ← part
      leave fork
      return true
    else
      let fork ← part
      add 3 (4 * wayOutSize)
      leave fork
      return false
  | min, none =>
    let fork ← exactly part min
    add 1 wayOutSize
    leave fork
    return true
  | min, some max =>
    let fork ← exactly part min
    if min = max then return fork
    else
      add 1 0
      options part (max - min) fork
      return false

mutual

def pattern (direction : Direction) : Reduced → Sizing Bool
  | .empty => do
    add 1 0
    return false
  | .literal text => do
    add (String.ofList text).utf8ByteSize 0
    return false
  | .set chars => do
    let (states, extra) := setSize direction (← get).states chars
    add states extra
    return false
  | .assertion _ => do
    add 1 0
    return false
  | .concat parts => patterns direction parts false
  | .alternation branches => do
    match branches.mapM word? with
    | some words =>
      let words := if direction = .backward then words.map List.reverse else words
      let depth := words.foldl (fun n word => max n word.length) 0
      let (states, extra) := wordsSize depth words
      add (states + 1) extra
    | none => alternatives direction 0 branches
    return false
  | .loop _ min max body => repetition body.minLength? min max (pattern direction body)
  | .capture body =>
    match direction with
    | .forward => do
      add 1 0
      let fork ← pattern direction body
      add 1 0
      leave fork
      return false
    | .backward => pattern direction body

/-- Lays out patterns one after the other, behind a state that may be a fork. -/
def patterns (direction : Direction) : List Reduced → Bool → Sizing Bool
  | [], fork => return fork
  | p :: rest, fork =>
    match direction with
    | .forward => do
      let next ← pattern direction p
      leave fork
      patterns direction rest next
    | .backward => do
      let fork ← patterns direction rest fork
      let next ← pattern direction p
      leave fork
      return next

/-- Lays out branches between a fork and a state where they meet. These two come after the second
branch; `done` counts the branches so far. -/
def alternatives (direction : Direction) (done : Nat) : List Reduced → Sizing Unit
  | [] => return
  | p :: rest => do
    let fork ← pattern direction p
    if done = 1 then add 2 0
    add 0 wayOutSize
    leave fork
    alternatives direction (done + 1) rest

end

/-- Lays out a whole pattern with what leads to it and the state where it is found. Unless it has
to start where the automaton starts, the automaton may first read any bytes. -/
def whole (direction : Direction) (p : Reduced) : Sizing Unit := do
  if isAnchored direction p then add 1 0
  else add 3 (rangeSize + 2 * wayOutSize)
  let fork ←
    match direction with
    | .forward => pattern direction (.capture p)
    | .backward => pattern direction p
  add 1 0
  leave fork

end Sizing

end Automaton

/-- Whether the automata of a pattern are within the limit. -/
def Reduced.fits (p : Reduced) : Bool :=
  [Direction.forward, .backward].all fun direction =>
    ((Automaton.Sizing.whole direction p).run {}).isSome

end JsonTypeDefinition
