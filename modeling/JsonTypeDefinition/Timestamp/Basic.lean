import JsonTypeDefinition.Timestamp.Calendar
import JsonTypeDefinition.Number.Binary64
import JsonTypeDefinition.Text.Digits

/-!
# Timestamps

`Timestamp.parse?` reads the date-time texts of RFC 3339: `YYYY-MM-DDTHH:MM:SS`, an optional
fraction, then `Z` or an offset. The letters may be small, second 60 is allowed in every minute,
and offsets stay within a day. `millis` places a timestamp on the time line.
-/

namespace JsonTypeDefinition

structure Timestamp where
  year : Nat
  month : Nat
  day : Nat
  hour : Nat
  minute : Nat
  second : Nat
  /-- The digits of the fraction. -/
  fraction : List Nat
  /-- Minutes that local time is ahead of UTC. -/
  offset : Int
  deriving DecidableEq

namespace Timestamp

/-- The number that the first `count` characters denote, and the rest. -/
def readDigits : Nat → List Char → Option (Nat × List Char) :=
  go 0
where
  go (value : Nat) : Nat → List Char → Option (Nat × List Char)
    | 0, text => some (value, text)
    | _ + 1, [] => none
    | count + 1, c :: text => do
      let d ← Text.digitValue? c
      go (value * 10 + d) count text

/-- The rest of a text after one of the given characters. -/
def skip (allowed : List Char) : List Char → Option (List Char)
  | [] => none
  | c :: text => if c ∈ allowed then some text else none

/-- The digits after a point, if there is one; a point needs a digit after it. -/
def readFraction : List Char → Option (List Nat × List Char)
  | '.' :: text =>
    match Text.splitDigits text with
    | ([], _) => none
    | (digits, text) => some (digits.filterMap Text.digitValue?, text)
  | text => some ([], text)

def readOffset : List Char → Option (Int × List Char)
  | [] => none
  | c :: text =>
    if c = 'Z' ∨ c = 'z' then some (0, text)
    else if c = '+' ∨ c = '-' then do
      let (hours, text) ← readDigits 2 text
      let text ← skip [':'] text
      let (minutes, text) ← readDigits 2 text
      if 23 < hours ∨ 59 < minutes then none
      else
        let total : Int := hours * 60 + minutes
        some (if c = '-' then -total else total, text)
    else none

def inRange (t : Timestamp) : Bool :=
  1 ≤ t.month && t.month ≤ 12 && 1 ≤ t.day && t.day ≤ Calendar.monthLength t.year t.month &&
    t.hour ≤ 23 && t.minute ≤ 59 && t.second ≤ 60

def readFields (text : List Char) : Option (Timestamp × List Char) := do
  let (year, text) ← readDigits 4 text
  let text ← skip ['-'] text
  let (month, text) ← readDigits 2 text
  let text ← skip ['-'] text
  let (day, text) ← readDigits 2 text
  let text ← skip ['T', 't'] text
  let (hour, text) ← readDigits 2 text
  let text ← skip [':'] text
  let (minute, text) ← readDigits 2 text
  let text ← skip [':'] text
  let (second, text) ← readDigits 2 text
  let (fraction, text) ← readFraction text
  let (offset, text) ← readOffset text
  return ({ year, month, day, hour, minute, second, fraction, offset }, text)

def parse? (s : String) : Option Timestamp :=
  match readFields s.toList with
  | some (t, []) => if t.inRange then some t else none
  | _ => none

def isTimestamp (s : String) : Bool :=
  (parse? s).isSome

/-- Whole seconds from the epoch, in UTC. A second 60 counts as second 59 here. -/
def epochSeconds (t : Timestamp) : Int :=
  Calendar.epochDay t.year t.month t.day * 86400 + t.hour * 3600 + t.minute * 60 +
    min t.second 59 - t.offset * 60

/-- The nanoseconds past `epochSeconds`: the first nine digits of the fraction, and a whole second
more at second 60. -/
def nanoseconds (t : Timestamp) : Nat :=
  let digits := t.fraction.take 9
  digits.foldl (fun n d => n * 10 + d) 0 * Nat.pow 10 (9 - digits.length) +
    (if t.second = 60 then 1000000000 else 0)

/-- Milliseconds from the epoch, in binary64 arithmetic. -/
def millis (t : Timestamp) : Binary64 :=
  Binary64.ofInt t.epochSeconds * .ofInt 1000 + Binary64.ofInt t.nanoseconds / .ofInt 1000000

/-- Milliseconds from the epoch of a text that is a timestamp. -/
def millisOf? (s : String) : Option Binary64 :=
  (parse? s).map millis

end Timestamp

end JsonTypeDefinition
