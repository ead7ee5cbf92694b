import JsonTypeDefinition.Automaton.Basic

/-!
# Literals in automata

Alternatives that are all literals are read by a tree of their bytes.
-/

namespace JsonTypeDefinition.Automaton

/-- The bytes of a literal. -/
def word? : Reduced → Option (List Nat)
  | .literal text => some ((String.ofList text).toUTF8.toList.map UInt8.toNat)
  | _ => none

/-- The words with the first of some empty ones at the front alone. -/
def dropEmptyStarts (words : List (List Nat)) : List (List Nat) :=
  match words.takeWhile List.isEmpty with
  | [] => words
  | _ => [] :: words.dropWhile List.isEmpty

/-- The words between empty ones. -/
def splitAtEmpty : List (List Nat) → List (List (List Nat))
  | [] => [[]]
  | [] :: rest => [] :: splitAtEmpty rest
  | word :: rest =>
    match splitAtEmpty rest with
    | [] => [[word]]
    | run :: runs => (word :: run) :: runs

/-- The words by their first bytes, without these. -/
def byFirst (words : List (List Nat)) : List (List (List Nat)) :=
  (words.filterMap List.head?).eraseDups.map fun b =>
    words.filterMap fun word => if word.head? = some b then some word.tail else none

/-- How many states, and how many extra bytes, read one of some words by a tree of their bytes, the
end of the words apart. `depth` bounds their length. A place where words end splits the bytes that
follow by whether their words come before or after. -/
def wordsSize : Nat → List (List Nat) → Nat × Nat
  | 0, _ => (0, 0)
  | depth + 1, words =>
    if words.all List.isEmpty then (0, 0)
    else
      let runs := splitAtEmpty (dropEmptyStarts words)
      let ways := (runs.map byFirst).filter (!·.isEmpty)
      let rests := ways.flatten.map (wordsSize depth)
      let choices := ways.map fun firsts => if firsts.length = 1 then 0 else firsts.length
      let waysOut := ways.length + (runs.length - 1)
      (1 + ways.length + (rests.map Prod.fst).foldl (· + ·) 0,
        wayOutSize * waysOut + rangeSize * choices.foldl (· + ·) 0 +
          (rests.map Prod.snd).foldl (· + ·) 0)

end JsonTypeDefinition.Automaton
