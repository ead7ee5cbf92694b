import JsonTypeDefinition.Pattern.Basic

/-!
# Reduced patterns

`Pattern.reduce` takes a pattern to a simpler one that is found in the same texts. In a reduced
pattern no concatenation stands in another, characters that follow each other form one literal,
alternatives of single characters form one set, and what all alternatives start with stands in
front of them.
-/

namespace JsonTypeDefinition

open Text (Ranges)

inductive Reduced where
  | empty
  /-- The characters of a text, at least one. -/
  | literal (text : List Char)
  /-- A character of a set that has none or more than one. -/
  | set (chars : Ranges)
  | assertion (condition : Assertion)
  | concat (parts : List Reduced)
  | alternation (branches : List Reduced)
  | loop (greedy : Bool) (min : Nat) (max : Option Nat) (body : Reduced)
  | capture (body : Reduced)

namespace Reduced

mutual

/-- Whether two patterns are the same. Two captures never are, since each has a number. -/
def same : Reduced → Reduced → Bool
  | empty, empty => true
  | literal s, literal t => s == t
  | set s, set t => s == t
  | assertion a, assertion b => a == b
  | concat parts, concat parts' => sameAll parts parts'
  | alternation branches, alternation branches' => sameAll branches branches'
  | loop greedy min max body, loop greedy' min' max' body' =>
    greedy == greedy' && min == min' && max == max' && same body body'
  | _, _ => false

def sameAll : List Reduced → List Reduced → Bool
  | [], [] => true
  | p :: rest, q :: rest' => same p q && sameAll rest rest'
  | _, _ => false

end

mutual

/-- Whether a pattern matches nothing but the empty text. -/
def isBlank : Reduced → Bool
  | empty => true
  | literal _ => false
  | set _ => false
  | assertion _ => true
  | concat parts => areBlank parts
  | alternation branches => areBlank branches
  | loop _ _ max body => max.isSome && isBlank body
  | capture body => isBlank body

def areBlank : List Reduced → Bool
  | [] => true
  | p :: rest => isBlank p && areBlank rest

end

mutual

/-- The least number of characters that a pattern matches. There is none if a set in it is empty,
whatever stands beside it. -/
def minLength? : Reduced → Option Nat
  | empty => some 0
  | literal text => some text.length
  | set chars => if chars.isEmpty then none else some 1
  | assertion _ => some 0
  | concat parts => (minLengths? parts).map (·.foldl (· + ·) 0)
  | alternation branches => (minLengths? branches).bind List.min?
  | loop _ min _ body => (minLength? body).map (min * ·)
  | capture body => minLength? body

def minLengths? : List Reduced → Option (List Nat)
  | [] => some []
  | p :: rest => do
    let n ← minLength? p
    let ns ← minLengths? rest
    some (n :: ns)

end

def ofSet (chars : Ranges) : Reduced :=
  match chars.toList with
  | [(first, last)] => if first = last then literal [Char.ofNat first] else set chars
  | _ => set chars

/-- The parts that a pattern adds to a concatenation. -/
def parts : Reduced → List Reduced
  | empty => []
  | concat parts => parts
  | p => [p]

/-- The branches that a pattern adds to an alternation. -/
def branches : Reduced → List Reduced
  | alternation branches => branches
  | p => [p]

/-- Joins literals that follow each other. -/
def joinLiterals : List Reduced → List Reduced
  | [] => []
  | literal s :: rest =>
    match joinLiterals rest with
    | literal t :: rest => literal (s ++ t) :: rest
    | rest => literal s :: rest
  | p :: rest => p :: joinLiterals rest

def sequence (ps : List Reduced) : Reduced :=
  match joinLiterals (ps.flatMap parts) with
  | [] => empty
  | [p] => p
  | ps => concat ps

/-- A pattern several times. A second empty text adds nothing to the first. -/
def repeated (greedy : Bool) (min : Nat) (max : Option Nat) (body : Reduced) : Reduced :=
  let (min, max) :=
    if body.isBlank then (Nat.min min 1, some ((max.map (Nat.min · 1)).getD 1)) else (min, max)
  if max = some 0 then empty
  else if min = 1 ∧ max = some 1 then body
  else loop greedy min max body

/-- The set that branches form: all of them single characters, or all of them sets. -/
def asSet? (branches : List Reduced) : Option Ranges :=
  let single? : Reduced → Option Ranges
    | literal [c] => some (.single c)
    | _ => none
  let set? : Reduced → Option Ranges
    | set chars => some chars
    | _ => none
  let sets := (branches.mapM single?).orElse fun _ => branches.mapM set?
  sets.map fun sets => .ofList (sets.flatMap Array.toList)

def oneOf (branches : List Reduced) : Reduced :=
  match branches with
  | [branch] => branch
  | branches =>
    match asSet? branches with
    | some chars => ofSet chars
    | none => alternation branches

def sharedStart : List Reduced → List Reduced → List Reduced
  | p :: rest, q :: rest' => if same p q then p :: sharedStart rest rest' else []
  | _, _ => []

/-- What all branches start with, if all are concatenations. -/
def commonStart : List Reduced → List Reduced
  | concat parts :: rest =>
    rest.foldl (fun shared branch =>
      match branch with
      | concat parts => sharedStart shared parts
      | _ => []) parts
  | _ => []

def choice (ps : List Reduced) : Reduced :=
  match oneOf (ps.flatMap branches) with
  | alternation branches =>
    match commonStart branches with
    | [] => alternation branches
    | shared =>
      let rests := branches.map fun branch => sequence (branch.parts.drop shared.length)
      sequence (shared ++ [oneOf (rests.flatMap Reduced.branches)])
  | p => p

end Reduced

namespace Pattern

mutual

def reduce : Pattern → Reduced
  | set _ chars => .ofSet chars
  | assertion condition => .assertion condition
  | concat parts => .sequence (reduceAll parts)
  | alternation branches => .choice (reduceAll branches)
  | loop greedy min max body => .repeated greedy min max (reduce body)
  | group captures body => if captures then .capture (reduce body) else reduce body

def reduceAll : List Pattern → List Reduced
  | [] => []
  | p :: rest => reduce p :: reduceAll rest

end

end Pattern

end JsonTypeDefinition
