import JsonTypeDefinition.Checks.Reader

/-!
# Minimum and maximum

A `BoundRule` names the keys that limit one measure of a value. Each side is read by itself, so a
fault on one side hides none of the other, and each side that is sound checks values by itself.
-/

namespace JsonTypeDefinition.Checks

/-- The keys for one side of a bound. The exclusive key wins if both are present. -/
structure BoundKeys where
  inclusive : String
  exclusive : Option String := none

/-- How a pair of bounds is read and applied. -/
structure BoundRule where
  measure : Measure
  min : BoundKeys
  max : BoundKeys
  /-- Whether bounds have to be whole and not negative. -/
  counts : Bool
  /-- The measure of a value; no bound applies where there is none. -/
  measured : Json → Option Binary64

def BoundRule.keys (rule : BoundRule) : Side → BoundKeys
  | .min => rule.min
  | .max => rule.max

/-- What the schema's type says about a bound: the faults that rule it out, or else the number it
stands for, if that is not the bound itself. -/
abbrev Admission := Side → Json → Except (List SchemaFault) (Option Binary64)

def anyBound : Admission := fun _ _ => .ok none

structure Bound where
  limit : Binary64
  exclusive : Bool
  deriving DecidableEq

/-- The relation to the bound that violates it. -/
def Bound.violation (bound : Bound) : Side → Relation
  | .min => if bound.exclusive then .lessOrEqual else .less
  | .max => if bound.exclusive then .greaterOrEqual else .greater

/-- Whether a number is whole and not negative. -/
def isCount (x : Binary64) : Bool :=
  0 ≤ x.toRat && isWhole x.toRat

/-- The number that a bound's value gives, or what is wrong with it. -/
def limitOf (rule : BoundRule) (admission : Admission) (side : Side) (value : Json) :
    Except (List SchemaFault) Binary64 := do
  let limit ← match ← admission side value with
    | some limit => pure limit
    | none =>
      match value with
      | .number n => pure n.toBinary64
      | other => throw [.boundNotNumber rule.measure side other.kind]
  if rule.counts && !isCount limit then throw [.boundNotCount rule.measure side]
  return limit

/-- The value of the bound on a side and whether it is exclusive. -/
def takeBound? (rule : BoundRule) (side : Side) : Reader (Option (Json × Bool)) := do
  let keys := rule.keys side
  let inclusive ← Reader.take? keys.inclusive
  let exclusive ← match keys.exclusive with
    | some key => Reader.take? key
    | none => pure none
  match inclusive, exclusive with
  | some _, some value => do
    Reader.report [.boundGivenTwice rule.measure side]
    return some (value, true)
  | none, some value => return some (value, true)
  | some value, none => return some (value, false)
  | none, none => return none

def readBound (rule : BoundRule) (admission : Admission) (side : Side) : Reader (Option Bound) := do
  match ← takeBound? rule side with
  | none => return none
  | some (value, exclusive) =>
    match limitOf rule admission side value with
    | .ok limit => return some ⟨limit, exclusive⟩
    | .error faults =>
      Reader.report faults
      return none

/-- What is wrong with two sound bounds together. -/
def crossFaults (measure : Measure) (min max : Bound) : List SchemaFault :=
  if max.limit.toRat < min.limit.toRat then [.boundsCross measure]
  else if (min.exclusive || max.exclusive) && min.limit.toRat == max.limit.toRat then
    [.boundsExcludeAll measure]
  else []

def boundSupplement (rule : BoundRule) (side : Side) (bound : Bound) : Supplement := fun value =>
  match rule.measured value with
  | none => []
  | some target =>
    let relation := bound.violation side
    if relation.holds target bound.limit then [.outOfBound rule.measure bound.limit relation]
    else []

/-- Reads the bounds of both sides and attaches a check for each sound one, the minimum first. -/
def readBounds (rule : BoundRule) (admission : Admission) : Reader Unit := do
  let min ← readBound rule admission .min
  let max ← readBound rule admission .max
  match min, max with
  | some min, some max => Reader.report (crossFaults rule.measure min max)
  | _, _ => pure ()
  min.forM fun bound => Reader.attach (boundSupplement rule .min bound)
  max.forM fun bound => Reader.attach (boundSupplement rule .max bound)

end JsonTypeDefinition.Checks
