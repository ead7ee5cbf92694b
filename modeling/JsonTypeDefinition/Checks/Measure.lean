import JsonTypeDefinition.Number.Binary64

/-!
# Bounds

What a bound measures, which side it limits, and how a measured value can relate to it.
-/

namespace JsonTypeDefinition

/-- What is compared with a bound. -/
inductive Measure where
  | stringLength
  | value
  | elements
  | properties
  | values
  deriving DecidableEq

def Measure.name : Measure → String
  | .stringLength => "string_length"
  | .value => "value"
  | .elements => "elements"
  | .properties => "properties"
  | .values => "values"

inductive Side where
  | min
  | max
  deriving DecidableEq

def Side.name : Side → String
  | .min => "min"
  | .max => "max"

/-- How a measured value relates to a bound. -/
inductive Relation where
  | less
  | lessOrEqual
  | greater
  | greaterOrEqual
  deriving DecidableEq

namespace Relation

def all : List Relation := [less, lessOrEqual, greater, greaterOrEqual]

def sign : Relation → String
  | less => "<"
  | lessOrEqual => "<="
  | greater => ">"
  | greaterOrEqual => ">="

/-- Whether `target` stands in the relation to `bound`. -/
def holds (relation : Relation) (target bound : Binary64) : Bool :=
  match relation with
  | less => target.toRat < bound.toRat
  | lessOrEqual => target.toRat ≤ bound.toRat
  | greater => bound.toRat < target.toRat
  | greaterOrEqual => bound.toRat ≤ target.toRat

end Relation

end JsonTypeDefinition
