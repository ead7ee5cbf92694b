import JsonTypeDefinition.Pattern.Basic

/-!
# Matching

A pattern reads a text from left to right, once and without backtracking. After each character,
marks say which of its sets may have taken that character; there are at most as many marks as the
pattern has sets, each counted once for every copy of the loops around it.

At a place of the text, a pattern may be passed if it matches the empty text there, and it may be
left if the marks say that its last character was read. The next marks follow from these two.
-/

namespace JsonTypeDefinition.Pattern

inductive Marks where
  /-- No set is marked. -/
  | clear
  /-- A set is marked. -/
  | marked
  /-- The marks on parts or branches, in order. -/
  | parts (marks : List Marks)
  /-- The marks on the copies of a body, counted from 1, without the clear ones. -/
  | copies (marks : List (Nat × Marks))

namespace Marks

def isClear : Marks → Bool
  | clear => true
  | _ => false

/-- The marks on a part and on the parts after it. -/
def uncons : Marks → Marks × Marks
  | parts (first :: rest) => (first, parts rest)
  | _ => (clear, clear)

/-- The marks on a part put before those on the parts after it. -/
def cons (first rest : Marks) : Marks :=
  match first, rest with
  | clear, clear => clear
  | first, parts rest => parts (first :: rest)
  | first, _ => parts [first]

/-- The marks on the copies of a body. -/
def toCopies : Marks → List (Nat × Marks)
  | copies marks => marks
  | _ => []

/-- The marks on copies, given by those that are not clear. -/
def ofCopies : List (Nat × Marks) → Marks
  | [] => clear
  | marks => copies marks

end Marks

mutual

/-- Whether the pattern matches the empty text at a place. -/
def passes (place : Place) : Pattern → Bool
  | set _ _ => false
  | assertion condition => condition.holds place
  | concat parts => passesAll place parts
  | alternation branches => passesAny place branches
  | loop _ min _ body => min == 0 || passes place body
  | group _ body => passes place body

def passesAll (place : Place) : List Pattern → Bool
  | [] => true
  | part :: rest => passes place part && passesAll place rest

def passesAny (place : Place) : List Pattern → Bool
  | [] => false
  | branch :: rest => passes place branch || passesAny place rest

end

mutual

/-- Whether a pattern never reads a character, since it has no set to read it by. -/
def isBlank : Pattern → Bool
  | set _ _ => false
  | assertion _ => true
  | concat parts => areBlank parts
  | alternation branches => areBlank branches
  | loop _ _ max body => max == some 0 || isBlank body
  | group _ body => isBlank body

def areBlank : List Pattern → Bool
  | [] => true
  | p :: rest => isBlank p && areBlank rest

end

mutual

/-- Whether the pattern may end at a place, its marks being those after the character before. -/
def leaves (place : Place) : Pattern → Marks → Bool
  | set _ _, marks => !marks.isClear
  | assertion _, _ => false
  | concat parts, marks => !marks.isClear && leavesLast place parts marks
  | alternation branches, marks => !marks.isClear && leavesAny place branches marks
  | loop _ min _ body, marks =>
    marks.toCopies.any fun (copy, marks) =>
      leaves place body marks && (min ≤ copy || passes place body)
  | group _ body, marks => leaves place body marks

/-- Whether one of the parts may be left and those after it be passed. -/
def leavesLast (place : Place) : List Pattern → Marks → Bool
  | [], _ => false
  | part :: rest, marks =>
    let (first, later) := marks.uncons
    (leaves place part first && passesAll place rest) || leavesLast place rest later

def leavesAny (place : Place) : List Pattern → Marks → Bool
  | [], _ => false
  | branch :: rest, marks =>
    let (first, later) := marks.uncons
    leaves place branch first || leavesAny place rest later

end

/-- An ascending list with each member once. -/
def dropRepeats : List Nat → List Nat
  | first :: second :: rest =>
    if first = second then dropRepeats (second :: rest)
    else first :: dropRepeats (second :: rest)
  | copies => copies

/-- The copies of a body, ascending, that may be entered: the first one if the loop is entered,
the next after each that may be left, and those behind if copies may be passed. Without a `max`,
the last copy is followed by itself. -/
def enteredCopies (min : Nat) (max : Option Nat) (entered passed : Bool) (left : List Nat) :
    List Nat :=
  let last := max.getD (Nat.max min 1)
  let next := left.map fun copy => if max.isNone then Nat.min (copy + 1) last else copy + 1
  let copies := if entered then 1 :: next else next
  match copies with
  | [] => []
  | first :: _ =>
    if passed then List.range' first (last + 1 - first)
    else (dropRepeats copies).filter (· ≤ last)

/-- The marks on copies that are marked or entered, each with whether it is entered. -/
def mergeCopies : List Nat → List (Nat × Marks) → List (Nat × Bool × Marks)
  | [], marked => marked.map fun (copy, marks) => (copy, false, marks)
  | entered, [] => entered.map fun copy => (copy, true, .clear)
  | e :: entered, (copy, marks) :: marked =>
    if e < copy then (e, true, .clear) :: mergeCopies entered ((copy, marks) :: marked)
    else if copy < e then (copy, false, marks) :: mergeCopies (e :: entered) marked
    else (copy, true, marks) :: mergeCopies entered marked
  termination_by entered marked => entered.length + marked.length

mutual

/-- The marks after the next character. `entered` says whether the pattern may start at the place,
`marks` are those so far. -/
def advance (place : Place) (c : Char) : Pattern → Bool → Marks → Marks
  | set _ chars, entered, _ => if entered && chars.contains c then .marked else .clear
  | assertion _, _, _ => .clear
  | concat parts, entered, marks =>
    if entered || !marks.isClear then advanceParts place c parts entered marks else .clear
  | alternation branches, entered, marks =>
    if entered || !marks.isClear then advanceBranches place c branches entered marks else .clear
  | loop _ min max body, entered, marks =>
    if (entered || !marks.isClear) && !isBlank body then
      let marked := marks.toCopies
      let left := marked.filter fun (_, marks) => leaves place body marks
      let copies := enteredCopies min max entered (passes place body) (left.map Prod.fst)
      .ofCopies <| (mergeCopies copies marked).filterMap fun (copy, entered, marks) =>
        let marks := advance place c body entered marks
        if marks.isClear then none else some (copy, marks)
    else .clear
  | group _ body, entered, marks => advance place c body entered marks

/-- The marks on parts of which each starts where the one before ends. -/
def advanceParts (place : Place) (c : Char) : List Pattern → Bool → Marks → Marks
  | [], _, _ => .clear
  | part :: rest, entered, marks =>
    let (first, later) := marks.uncons
    let next := (entered && passes place part) || leaves place part first
    .cons (advance place c part entered first) (advanceParts place c rest next later)

/-- The marks on branches that all start at the same place. -/
def advanceBranches (place : Place) (c : Char) : List Pattern → Bool → Marks → Marks
  | [], _, _ => .clear
  | branch :: rest, entered, marks =>
    let (first, later) := marks.uncons
    .cons (advance place c branch entered first) (advanceBranches place c rest entered later)

end

/-- Whether the pattern ends somewhere in the text after `before`, its marks being those there. -/
def searchFrom (pattern : Pattern) (before : Option Char) (marks : Marks) : List Char → Bool
  | [] =>
    let place := ⟨before, none⟩
    pattern.passes place || pattern.leaves place marks
  | c :: rest =>
    let place := ⟨before, some c⟩
    pattern.passes place || pattern.leaves place marks ||
      searchFrom pattern (some c) (pattern.advance place c true marks) rest

def isFoundIn (pattern : Pattern) (s : String) : Bool :=
  pattern.searchFrom none .clear s.toList

end JsonTypeDefinition.Pattern
