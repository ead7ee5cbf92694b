import JsonTypeDefinition.Number.Binary64

/-!
# Shortest decimals

`shortest` gives a positive binary64 number the fewest decimal digits that `nearest` reads back as
that number. For each digit count only the two neighbours on that decimal grid can be the closest
ones, so those two are tried; of two that read back the nearer is taken. A `Tie` says what happens
when both are equally near. `Layout` then says how the digits are written.
-/

namespace JsonTypeDefinition

/-- Which of two equally near decimals is written. -/
inductive Tie where
  | toEven
  | up
  deriving DecidableEq

/-- The decimal `digits * 10 ^ exponent`. -/
structure Decimal where
  digits : Nat
  exponent : Int
  deriving DecidableEq

namespace Decimal

/-- The largest `e` with `10 ^ e ≤ q`, for a positive `q`. A product with `log10 2` gives it up to
one. -/
def floorLog10 (q : Rat) : Int :=
  let e := floorLog2 q * 30103 / 100000
  if (10 : Rat) ^ (e + 1) ≤ q then e + 1
  else if (10 : Rat) ^ e ≤ q then e
  else e - 1

/-- The nearer of `low` and `low + 1` to `q`. -/
def nearer (tie : Tie) (q : Rat) (low : Int) : Int :=
  if q - low < 1 / 2 then low
  else if 1 / 2 < q - low then low + 1
  else match tie with
    | .toEven => if low % 2 = 0 then low else low + 1
    | .up => low + 1

/-- The multiple of `10 ^ k` that reads back as `q`, the nearest if there are two. -/
def onGrid (tie : Tie) (q : Rat) (k : Int) : Option Int :=
  let step := (10 : Rat) ^ k
  let low := (q / step).floor
  let readsBack (m : Int) : Bool := nearest (m * step) = q
  match readsBack low, readsBack (low + 1) with
  | true, true => some (nearer tie (q / step) low)
  | true, false => some low
  | false, true => some (low + 1)
  | false, false => none

/-- Moves the final zeros of the digits into the exponent; `fuel` bounds their number. -/
def trim : Nat → Decimal → Decimal
  | 0, d => d
  | fuel + 1, d =>
    if d.digits % 10 = 0 then trim fuel ⟨d.digits / 10, d.exponent + 1⟩ else d

/-- The fewest digits that read back as the positive binary64 number `q`. Seventeen always do. -/
def shortest (tie : Tie) (q : Rat) : Decimal :=
  let top := floorLog10 q
  let grids := (List.range 17).map fun (n : Nat) => top - n
  match grids.findSome? fun k => (onGrid tie q k).map fun m => (m, k) with
  | some (m, k) => trim 17 ⟨m.toNat, k⟩
  | none => ⟨(q / (10 : Rat) ^ (top - 16)).floor.toNat, top - 16⟩

end Decimal

/-- How a binary64 number is written. -/
structure Layout where
  tie : Tie
  /-- The scientific exponents written positionally, all of them if absent. -/
  positional : Option (Int × Int)
  /-- Whether a whole number written positionally ends in `.0`. -/
  pointZero : Bool

namespace Layout

/-- Numbers as JSON text: `1.0`, `0.00001`, `1e-6`, `1e+16`. -/
def json : Layout := ⟨.toEven, some (-5, 15), true⟩

/-- Numbers inside messages: never an exponent, no empty fraction. -/
def message : Layout := ⟨.up, none, false⟩

def zeros (n : Nat) : String := String.ofList (List.replicate n '0')

/-- Writes `digits` with the point `shift` places after the first of them. -/
def positionalText (layout : Layout) (digits : String) (shift : Int) : String :=
  if shift < 0 then "0." ++ zeros (-shift - 1).toNat ++ digits
  else
    let whole := shift.toNat + 1
    if digits.length ≤ whole then
      digits ++ zeros (whole - digits.length) ++ (if layout.pointZero then ".0" else "")
    else String.ofList (digits.toList.take whole) ++ "." ++
      String.ofList (digits.toList.drop whole)

/-- Writes one digit before the point and the signed exponent after an `e`. -/
def scientificText (digits : String) (e : Int) : String :=
  let rest := String.ofList (digits.toList.drop 1)
  String.ofList (digits.toList.take 1) ++ (if rest.isEmpty then "" else "." ++ rest) ++ "e" ++
    (if e < 0 then "-" else "+") ++ toString e.natAbs

def write (layout : Layout) (x : Binary64) : String :=
  if x.toRat = 0 then
    (if x.negZero then "-0" else "0") ++ (if layout.pointZero then ".0" else "")
  else
    let d := Decimal.shortest layout.tie x.toRat.abs
    let digits := toString d.digits
    let e := d.exponent + (digits.length - 1)
    let positional := match layout.positional with
      | none => true
      | some (low, high) => low ≤ e && e ≤ high
    (if x.toRat < 0 then "-" else "") ++
      (if positional then layout.positionalText digits e else scientificText digits e)

end Layout

end JsonTypeDefinition
