import JsonTypeDefinition.Number.Rounding

/-!
# Binary64 numbers

`Binary64` holds a finite number as the rational it denotes. Zero alone carries a sign, which no
comparison sees and only printing shows. Arithmetic is exact arithmetic followed by `nearest`.
-/

namespace JsonTypeDefinition

/-- A finite binary64 number. -/
structure Binary64 where
  toRat : Rat
  /-- Set for the negative zero. -/
  negZero : Bool := false
  deriving DecidableEq

namespace Binary64

def ofRat (q : Rat) : Binary64 := { toRat := nearest q }

def ofInt (n : Int) : Binary64 := ofRat n

instance : Add Binary64 := ⟨fun x y => ofRat (x.toRat + y.toRat)⟩
instance : Mul Binary64 := ⟨fun x y => ofRat (x.toRat * y.toRat)⟩
instance : Div Binary64 := ⟨fun x y => ofRat (x.toRat / y.toRat)⟩

/-- The remainder of the division that truncates. It is exact, takes the sign of `x`, and does not
exist for a zero divisor. -/
def rem? (x y : Binary64) : Option Rat :=
  if y.toRat = 0 then none
  else some (x.toRat - y.toRat * integerPart (x.toRat / y.toRat))

end Binary64

/-- A number of a JSON document: an integer literal keeps its exact value, any other literal is
read as the nearest binary64 number. -/
inductive Number where
  | int (n : Int)
  | float (x : Binary64)
  deriving DecidableEq

namespace Number

/-- What a literal denotes, before any rounding of integers. -/
def exact : Number → Rat
  | int n => n
  | float x => x.toRat

/-- The number as binary64; all arithmetic and comparison is done on it. -/
def toBinary64 : Number → Binary64
  | int n => .ofInt n
  | float x => x

def value (n : Number) : Rat := n.toBinary64.toRat

/-- How a measured number is reported: whole numbers below the limit as integers, the negative zero
among them. -/
def ofBinary64 (x : Binary64) : Number :=
  if isWhole x.toRat ∧ x.toRat.num.natAbs < wholeLimit then int x.toRat.num else float x

end Number

end JsonTypeDefinition
