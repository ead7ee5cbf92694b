/-!
# Digits

Reading ASCII digits. None of these accepts a digit of another script.
-/

namespace JsonTypeDefinition.Text

def digitValue? (c : Char) : Option Nat :=
  if '0' ≤ c ∧ c ≤ '9' then some (c.toNat - '0'.toNat) else none

def hexValue? (c : Char) : Option Nat :=
  if '0' ≤ c ∧ c ≤ '9' then some (c.toNat - '0'.toNat)
  else if 'a' ≤ c ∧ c ≤ 'f' then some (c.toNat - 'a'.toNat + 10)
  else if 'A' ≤ c ∧ c ≤ 'F' then some (c.toNat - 'A'.toNat + 10)
  else none

/-- The decimal digits at the front of a text, and the rest. -/
def splitDigits (text : List Char) : List Char × List Char :=
  (text.takeWhile fun c => (digitValue? c).isSome, text.dropWhile fun c => (digitValue? c).isSome)

def decimalValue (digits : List Char) : Nat :=
  (digits.filterMap digitValue?).foldl (fun n d => n * 10 + d) 0

end JsonTypeDefinition.Text
