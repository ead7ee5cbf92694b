/-!
# Sets of characters

A set of characters is given by ascending ranges of code points, ends included, with at least one
code point between two of them. Surrogates are no characters: a range may run across them but
never starts or ends at one.
-/

namespace JsonTypeDefinition.Text

/-- Ranges of code points, first and last. -/
abbrev Ranges := Array (Nat × Nat)

def maxCodePoint : Nat := 0x10ffff

/-- The code point of the character after that of a code point. -/
def nextCodePoint (n : Nat) : Nat := if n = 0xd7ff then 0xe000 else n + 1

/-- The code point of the character before that of a code point. -/
def previousCodePoint (n : Nat) : Nat := if n = 0xe000 then 0xd7ff else n - 1

namespace Ranges

/-- Whether a code point lies in one of the ranges from index `low` up to before `high`. Each step
halves their number, and `fuel` bounds it. -/
def holdsBetween (ranges : Ranges) (n : Nat) : Nat → Nat → Nat → Bool
  | 0, _, _ => false
  | fuel + 1, low, high =>
    let middle := (low + high) / 2
    match ranges[middle]? with
    | none => false
    | some (first, last) =>
      if high ≤ low then false
      else if n < first then holdsBetween ranges n fuel low middle
      else if last < n then holdsBetween ranges n fuel (middle + 1) high
      else true

def holds (ranges : Ranges) (n : Nat) : Bool :=
  ranges.holdsBetween n ranges.size 0 ranges.size

def contains (ranges : Ranges) (c : Char) : Bool := ranges.holds c.toNat

/-- Joins a range with those that meet or overlap it, all given by their first code points. -/
def joinFrom (first last : Nat) : List (Nat × Nat) → List (Nat × Nat)
  | [] => [(first, last)]
  | (first', last') :: rest =>
    if first' ≤ last + 1 then joinFrom first (max last last') rest
    else (first, last) :: joinFrom first' last' rest

/-- The set of the code points of some ranges, in any order. -/
def ofList (ranges : List (Nat × Nat)) : Ranges :=
  match ranges.mergeSort fun a b => a.1 ≤ b.1 with
  | [] => #[]
  | (first, last) :: rest => (joinFrom first last rest).toArray

def single (c : Char) : Ranges := #[(c.toNat, c.toNat)]

def range (first last : Char) : Ranges := #[(first.toNat, last.toNat)]

def union (s t : Ranges) : Ranges := ofList (s.toList ++ t.toList)

/-- The code points that are in ranges of both lists. -/
def interLists : List (Nat × Nat) → List (Nat × Nat) → List (Nat × Nat)
  | [], _ => []
  | _, [] => []
  | (a, b) :: s, (c, d) :: t =>
    let rest := if b < d then interLists s ((c, d) :: t) else interLists ((a, b) :: s) t
    if max a c ≤ min b d then (max a c, min b d) :: rest else rest
  termination_by s t => s.length + t.length

def inter (s t : Ranges) : Ranges := (interLists s.toList t.toList).toArray

/-- The code points that are in ranges of the first list and of none in the second. -/
def diffLists : List (Nat × Nat) → List (Nat × Nat) → List (Nat × Nat)
  | [], _ => []
  | s, [] => s
  | (a, b) :: s, (c, d) :: t =>
    if d < a then diffLists ((a, b) :: s) t
    else if b < c then (a, b) :: diffLists s ((c, d) :: t)
    else
      let before := if a < c then [(a, previousCodePoint c)] else []
      if d < b then before ++ diffLists ((nextCodePoint d, b) :: s) t
      else before ++ diffLists s ((c, d) :: t)
  termination_by s t => s.length + t.length

def diff (s t : Ranges) : Ranges := (diffLists s.toList t.toList).toArray

def symmDiff (s t : Ranges) : Ranges := diff (union s t) (inter s t)

/-- What lies behind a code point and outside the ranges. Between two ranges that meet at the
surrogates there is no character, and their two ends are taken instead. -/
def gapsAfter (last : Nat) : List (Nat × Nat) → List (Nat × Nat)
  | [] => if last < maxCodePoint then [(nextCodePoint last, maxCodePoint)] else []
  | (first', last') :: rest =>
    let start := nextCodePoint last
    let stop := previousCodePoint first'
    (min start stop, max start stop) :: gapsAfter last' rest

def complement (s : Ranges) : Ranges :=
  match s.toList with
  | [] => #[(0, maxCodePoint)]
  | (first, last) :: rest =>
    let gaps := gapsAfter last rest
    (if 0 < first then (0, previousCodePoint first) :: gaps else gaps).toArray

def isAscii (s : Ranges) : Bool := s.all fun (_, last) => last ≤ 0x7f

end Ranges

end JsonTypeDefinition.Text
