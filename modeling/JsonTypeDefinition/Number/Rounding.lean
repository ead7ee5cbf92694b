/-!
# Rounding to binary64

A finite binary64 number denotes `m * 2 ^ e` with `|m| < 2 ^ 53` and `-1074 ≤ e`. `nearest` takes
a rational to the closest such number, a tie going to the even `m`. The upper end of the exponent
range is left open: no number of a document reaches it.
-/

namespace JsonTypeDefinition

/-- The largest `e` with `2 ^ e ≤ q`, for a positive `q`. The two binary lengths give it up to
one, and one comparison settles it. -/
def floorLog2 (q : Rat) : Int :=
  let e : Int := q.num.natAbs.log2 - q.den.log2
  if (2 : Rat) ^ e ≤ q then e else e - 1

/-- The nearest integer; a half goes to the even neighbour. -/
def roundHalfEven (q : Rat) : Int :=
  let below := q.floor
  let rest := q - below
  if rest < 1 / 2 then below
  else if 1 / 2 < rest then below + 1
  else if below % 2 = 0 then below
  else below + 1

/-- The spacing of the binary64 numbers around `q`. -/
def spacing (q : Rat) : Rat :=
  (2 : Rat) ^ max (floorLog2 q.abs - 52) (-1074)

/-- The integer part: `q` rounded toward zero. -/
def integerPart (q : Rat) : Int :=
  q.num.tdiv q.den

def isWhole (q : Rat) : Bool :=
  q.den == 1

/-- The number `2 ^ 53`, up to which every whole number is a binary64 number. -/
def wholeLimit : Nat := 9007199254740992

/-- The binary64 number nearest to `q`. Whole numbers up to the limit stay as they are. -/
def nearest (q : Rat) : Rat :=
  if isWhole q ∧ q.num.natAbs ≤ wholeLimit then q
  else roundHalfEven (q / spacing q) * spacing q

end JsonTypeDefinition
