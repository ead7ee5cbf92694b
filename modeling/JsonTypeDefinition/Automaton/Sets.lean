import JsonTypeDefinition.Automaton.Basic
import JsonTypeDefinition.Text.Utf8
import Std.Data.HashMap

/-!
# Sets in automata

A set of ASCII characters takes one state with a range for each of its ranges, and one behind it.
Any other set is read byte by byte, by a tree of states in which what occurs again is shared as far
as it is still known.
-/

namespace JsonTypeDefinition.Automaton

open Text (Ranges)
open Text.Utf8 (Sequence sequences)

/-- The states with a known purpose, so that they are not laid out twice. A purpose has one of
`capacity` slots, by its hash, and only the last state of a slot is known. -/
structure Shared where
  capacity : Nat
  slots : Std.HashMap Nat (List Nat × Nat) := {}

namespace Shared

/-- The FNV-1a hash, taking numbers whole. -/
def hash (purpose : List Nat) : UInt64 :=
  purpose.foldl (fun h n => (h ^^^ n.toUInt64) * 1099511628211) 14695981039346656037

def slot (shared : Shared) (purpose : List Nat) : Nat :=
  (hash purpose).toNat % shared.capacity

def find? (shared : Shared) (purpose : List Nat) : Option Nat :=
  match shared.slots[shared.slot purpose]? with
  | some (known, state) => if known = purpose then some state else none
  | none => none

def insert (shared : Shared) (purpose : List Nat) (state : Nat) : Shared :=
  { shared with slots := shared.slots.insert (shared.slot purpose) (purpose, state) }

end Shared

/-- The states of a set, while they grow. -/
structure SetStates where
  /-- The number of the next state. -/
  next : Nat
  /-- The bytes besides the states themselves. -/
  extra : Nat
  shared : Shared

namespace SetStates

/-- The state with a purpose, laid out with some extra bytes if it is not known. -/
def state (purpose : List Nat) (extra : Nat) : StateM SetStates Nat := do
  let states ← get
  match states.shared.find? purpose with
  | some state => return state
  | none =>
    set ({
      next := states.next + 1
      extra := states.extra + extra
      shared := states.shared.insert purpose states.next } : SetStates)
    return states.next

/-- The state that reads one of the sequences and goes on to `target`. None of them is empty, and
`depth` bounds their length. Neighbours that start alike share the way to where they part, and
states with the same ways out are one. -/
def readForward (target : Nat) : Nat → List Sequence → StateM SetStates Nat
  | 0, _ => return target
  | depth + 1, sequences => do
    let ways ← (sequences.splitBy fun s t => s.head? == t.head?).mapM fun group => do
      let (first, last) := (group.head?.bind List.head?).getD (0, 0)
      let rests := group.map List.tail
      let next ← if rests.any List.isEmpty then pure target else readForward target depth rests
      return [first, last, next]
    state ways.flatten (rangeSize * ways.length)

/-- Lays out the states that read a sequence from its last range to its first and go on to
`target`. Sequences that start alike share the states for that. -/
def readBackward (target : Nat) (sequence : Sequence) : StateM SetStates Unit := do
  let _ ← sequence.foldlM (fun target (first, last) => state [target, first, last] 0) target

end SetStates

/-- How many states are known at most while a set is laid out. -/
def capacity : Direction → Nat
  | .forward => 10000
  | .backward => 1000

/-- How many states a set takes, and how many extra bytes, if its first state has a number. -/
def setSize (direction : Direction) (start : Nat) (chars : Ranges) : Nat × Nat :=
  if chars.isAscii then (2, rangeSize * chars.size)
  else
    let sequences := chars.toList.flatMap fun (first, last) => sequences first last
    let shared : Shared := { capacity := capacity direction }
    match direction with
    | .forward =>
      let states : SetStates := ⟨start + 1, 0, shared⟩
      let states := ((SetStates.readForward start 4 sequences).run states).2
      (states.next - start, states.extra)
    | .backward =>
      let states : SetStates := ⟨start + 2, wayOutSize * sequences.length, shared⟩
      let states := ((sequences.forM (SetStates.readBackward (start + 1))).run states).2
      (states.next - start, states.extra)

end JsonTypeDefinition.Automaton
