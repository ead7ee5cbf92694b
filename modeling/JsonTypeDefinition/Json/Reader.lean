import JsonTypeDefinition.Json.Basic
import JsonTypeDefinition.Text.Digits

/-!
# Reading JSON text

`Json.parse` reads one value from a text that holds nothing else but blanks around it. Integer
literals that fit 64 bits stay integers, every other number becomes the nearest binary64 number.
Recursion is bounded by a count taken from the length of the text.
-/

namespace JsonTypeDefinition.Json

/-- Why a text is not read. -/
inductive ReadError where
  | unexpectedEnd
  | unexpected (c : Char)
  | badEscape
  | numberOutOfRange
  deriving DecidableEq

/-- A step of reading; each gives what it read and the text it left. -/
abbrev Reading := Except ReadError

/-- Drops the blanks that may stand between two tokens. -/
def skipBlanks : List Char → List Char :=
  List.dropWhile fun c => c = ' ' || c = '\n' || c = '\r' || c = '\t'

/-- The complaint about a text that does not go on as it should. -/
def complain {α : Type} : List Char → Reading α
  | [] => .error .unexpectedEnd
  | c :: _ => .error (.unexpected c)

def readUnit : List Char → Reading (Nat × List Char)
  | a :: b :: c :: d :: rest =>
    match Text.hexValue? a, Text.hexValue? b, Text.hexValue? c, Text.hexValue? d with
    | some a, some b, some c, some d => .ok (((a * 16 + b) * 16 + c) * 16 + d, rest)
    | _, _, _, _ => .error .badEscape
  | _ => .error .unexpectedEnd

/-- The scalar value after a backslash and a `u`; two units make a value beyond `FFFF`. -/
def readScalar (text : List Char) : Reading (Char × List Char) := do
  let (unit, rest) ← readUnit text
  if 0xDC00 ≤ unit ∧ unit ≤ 0xDFFF then .error .badEscape
  else if 0xD800 ≤ unit ∧ unit ≤ 0xDBFF then
    match rest with
    | '\\' :: 'u' :: low =>
      let (second, rest) ← readUnit low
      if 0xDC00 ≤ second ∧ second ≤ 0xDFFF then
        .ok (Char.ofNat (0x10000 + (unit - 0xD800) * 0x400 + (second - 0xDC00)), rest)
      else .error .badEscape
    | _ => .error .badEscape
  else .ok (Char.ofNat unit, rest)

/-- The characters of a string up to its closing quote. -/
def readChars : Nat → List Char → Reading (List Char × List Char)
  | 0, _ => .error .unexpectedEnd
  | _ + 1, [] => .error .unexpectedEnd
  | _ + 1, '"' :: rest => .ok ([], rest)
  | fuel + 1, '\\' :: 'u' :: rest => do
    let (c, rest) ← readScalar rest
    let (cs, rest) ← readChars fuel rest
    .ok (c :: cs, rest)
  | fuel + 1, '\\' :: e :: rest => do
    let c ← match e with
      | '"' => .ok '"'
      | '\\' => .ok '\\'
      | '/' => .ok '/'
      | 'b' => .ok '\x08'
      | 'f' => .ok '\x0c'
      | 'n' => .ok '\n'
      | 'r' => .ok '\r'
      | 't' => .ok '\t'
      | _ => .error ReadError.badEscape
    let (cs, rest) ← readChars fuel rest
    .ok (c :: cs, rest)
  | fuel + 1, c :: rest =>
    if c.toNat < 0x20 || c = '\\' then .error (.unexpected c)
    else do
      let (cs, rest) ← readChars fuel rest
      .ok (c :: cs, rest)

/-- The binary64 number nearest to `digits * 10 ^ exponent`, refused beyond the largest one. -/
def decimalNumber (negative : Bool) (digits : Nat) (exponent : Int) : Reading Number :=
  let places : Int := (Nat.toDigits 10 digits).length
  if digits = 0 ∨ places + exponent < -400 then .ok (.float ⟨0, negative⟩)
  else if 400 < places + exponent then .error .numberOutOfRange
  else
    let q := nearest ((digits : Rat) * (10 : Rat) ^ exponent)
    if (2 : Rat) ^ (1024 : Int) ≤ q then .error .numberOutOfRange
    else .ok (.float ⟨if negative then -q else q, negative && q == 0⟩)

/-- The exponent of a literal, if it has one. -/
def readExponent : List Char → Reading (Option Int × List Char)
  | c :: rest =>
    if c = 'e' || c = 'E' then
      let (negative, rest) := match rest with
        | '-' :: rest => (true, rest)
        | '+' :: rest => (false, rest)
        | _ => (false, rest)
      match Text.splitDigits rest with
      | ([], rest) => complain rest
      | (digits, rest) =>
        let n : Int := Text.decimalValue digits
        .ok (some (if negative then -n else n), rest)
    else .ok (none, c :: rest)
  | [] => .ok (none, [])

/-- The digits after the point of a literal, if it has one. -/
def readFraction : List Char → Reading (Option (List Char) × List Char)
  | '.' :: rest =>
    match Text.splitDigits rest with
    | ([], rest) => complain rest
    | (digits, rest) => .ok (some digits, rest)
  | rest => .ok (none, rest)

def readNumber (text : List Char) : Reading (Number × List Char) := do
  let (negative, text) := match text with
    | '-' :: rest => (true, rest)
    | _ => (false, text)
  let (whole, text) ← match Text.splitDigits text with
    | ([], rest) => complain rest
    | ('0' :: d :: _, _) => .error (.unexpected d)
    | (whole, rest) => .ok (whole, rest)
  let (fraction, text) ← readFraction text
  let (exponent, text) ← readExponent text
  let digits := Text.decimalValue (whole ++ fraction.getD [])
  let fits := if negative then 0 < digits && digits ≤ Nat.pow 2 63 else digits < Nat.pow 2 64
  if fraction.isNone && exponent.isNone && fits then
    .ok (.int (if negative then -digits else digits), text)
  else do
    let n ← decimalNumber negative digits (exponent.getD 0 - (fraction.getD []).length)
    .ok (n, text)

/-- The rest of the text after a fixed word. -/
def readWord (word : List Char) (value : Json) (text : List Char) : Reading (Json × List Char) :=
  match word, text with
  | [], rest => .ok (value, rest)
  | w :: word, c :: rest => if w = c then readWord word value rest else .error (.unexpected c)
  | _ :: _, [] => .error .unexpectedEnd

mutual

/-- A value, after the blanks in front of it. -/
def readValue : Nat → List Char → Reading (Json × List Char)
  | 0, _ => .error .unexpectedEnd
  | fuel + 1, text =>
    match skipBlanks text with
    | [] => .error .unexpectedEnd
    | 'n' :: rest => readWord "ull".toList .null rest
    | 't' :: rest => readWord "rue".toList (.bool true) rest
    | 'f' :: rest => readWord "alse".toList (.bool false) rest
    | '"' :: rest => do
      let (cs, rest) ← readChars (rest.length + 1) rest
      .ok (.string (String.ofList cs), rest)
    | '[' :: rest =>
      match skipBlanks rest with
      | ']' :: rest => .ok (.array [], rest)
      | rest => do
        let (items, rest) ← readItems fuel rest
        .ok (.array items, rest)
    | '\x7b' :: rest =>
      match skipBlanks rest with
      | '\x7d' :: rest => .ok (.object [], rest)
      | rest => do
        let (members, rest) ← readMembers fuel rest
        .ok (.object members, rest)
    | text => do
      let (n, rest) ← readNumber text
      .ok (.number n, rest)

/-- One item or more, up to the closing bracket. -/
def readItems : Nat → List Char → Reading (List Json × List Char)
  | 0, _ => .error .unexpectedEnd
  | fuel + 1, text => do
    let (item, rest) ← readValue fuel text
    match skipBlanks rest with
    | ',' :: rest =>
      let (items, rest) ← readItems fuel rest
      .ok (item :: items, rest)
    | ']' :: rest => .ok ([item], rest)
    | rest => complain rest

/-- One member or more, up to the closing brace. -/
def readMembers : Nat → List Char → Reading (List (String × Json) × List Char)
  | 0, _ => .error .unexpectedEnd
  | fuel + 1, text =>
    match skipBlanks text with
    | '"' :: rest => do
      let (cs, rest) ← readChars (rest.length + 1) rest
      match skipBlanks rest with
      | ':' :: rest =>
        let (value, rest) ← readValue fuel rest
        let member := (String.ofList cs, value)
        match skipBlanks rest with
        | ',' :: rest =>
          let (members, rest) ← readMembers fuel rest
          .ok (member :: members, rest)
        | '\x7d' :: rest => .ok ([member], rest)
        | rest => complain rest
      | rest => complain rest
    | rest => complain rest

end

def parse (text : String) : Reading Json := do
  let chars := text.toList
  let (value, rest) ← readValue (2 * chars.length + 2) chars
  match skipBlanks rest with
  | [] => .ok value
  | rest => complain rest

end JsonTypeDefinition.Json
