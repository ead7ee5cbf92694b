import JsonTypeDefinition.Pattern.Basic
import JsonTypeDefinition.Text.Digits

/-!
# Reading patterns

`Pattern.parse?` reads the text of a regular expression and refuses texts outside the syntax:
look-around, back-references, Unicode property classes, repetitions of nothing, repeated group
names and unknown escapes among them. A lone `]` or closing brace stands for itself, a lone opening
brace does not.

Every step or two of the recursion read a character, so the length of the text bounds it.
-/

namespace JsonTypeDefinition.Pattern

open Text (Ranges)

structure Flags where
  ignoreCase : Bool := false
  multiLine : Bool := false
  dotAll : Bool := false
  crlf : Bool := false
  /-- Blanks and comments between the parts of a pattern are skipped. -/
  spaced : Bool := false
  /-- Repetitions take as little as they can, and as much when marked lazy. -/
  swapGreed : Bool := false
  /-- The named classes hold ASCII characters alone, and sets may not go beyond them. -/
  ascii : Bool := false

namespace Flags

def update (flags : Flags) (letter : Char) (value : Bool) : Option Flags :=
  match letter with
  | 'i' => some { flags with ignoreCase := value }
  | 'm' => some { flags with multiLine := value }
  | 's' => some { flags with dotAll := value }
  | 'R' => some { flags with crlf := value }
  | 'x' => some { flags with spaced := value }
  | 'u' => some { flags with ascii := !value }
  | 'U' => some { flags with swapGreed := value }
  | _ => none

def digits (flags : Flags) : Ranges :=
  if flags.ascii then .range '0' '9' else Text.digitRanges

def spaces (flags : Flags) : Ranges :=
  if flags.ascii then .ofList [(0x09, 0x0d), (0x20, 0x20)] else Text.spaceRanges

def words (flags : Flags) : Ranges :=
  if flags.ascii then Text.asciiWordRanges else Text.wordRanges

/-- The set with all case variants, if case does not count. -/
def fold (flags : Flags) (s : Ranges) : Ranges :=
  if !flags.ignoreCase then s
  else if flags.ascii then s.foldAsciiCase
  else s.foldCase

/-- The complement, which is refused where sets may not go beyond ASCII. -/
def complement (flags : Flags) (s : Ranges) : Option Ranges :=
  if flags.ascii then none else some s.complement

def dot (flags : Flags) : Option Ranges :=
  flags.complement <|
    if flags.dotAll then #[]
    else if flags.crlf then .union (.single '\r') (.single '\n')
    else .single '\n'

/-- What `^` asserts. -/
def startAssertion (flags : Flags) : Assertion :=
  if flags.multiLine then (if flags.crlf then .crlfLineStart else .lineStart) else .textStart

/-- What `$` asserts. -/
def endAssertion (flags : Flags) : Assertion :=
  if flags.multiLine then (if flags.crlf then .crlfLineEnd else .lineEnd) else .textEnd

def wordAssertion (flags : Flags) (condition : WordAssertion) : Assertion :=
  .word flags.ascii condition

end Flags

/-- Drops blanks and comments; `fuel` bounds their number. -/
def dropSpaced : Nat → List Char → List Char
  | 0, text => text
  | fuel + 1, text =>
    match text with
    | [] => []
    | c :: rest =>
      if Text.isSpace c then dropSpaced fuel rest
      else if c = '#' then dropSpaced fuel ((rest.dropWhile (· ≠ '\n')).drop 1)
      else text

/-- Drops what the flags say is not part of the pattern. -/
def skip (flags : Flags) (text : List Char) : List Char :=
  if flags.spaced then dropSpaced text.length text else text

def scalar? (n : Nat) : Option Char :=
  if n.isValidChar then some (Char.ofNat n) else none

/-- The character with `count` more hexadecimal digits after those of `value`. -/
def readHexDigits (flags : Flags) : Nat → Nat → List Char → Option (Char × List Char)
  | 0, value, text => (scalar? value).map fun c => (c, text)
  | _ + 1, _, [] => none
  | count + 1, value, c :: rest => do
    let d ← Text.hexValue? c
    readHexDigits flags count (value * 16 + d) (skip flags rest)

/-- The character whose number stands in braces. -/
def readHexBraces (flags : Flags) (text : List Char) : Option (Char × List Char) := do
  let inside := text.takeWhile (· ≠ '\x7d')
  let digits := if flags.spaced then inside.filter (!Text.isSpace ·) else inside
  match text.dropWhile (· ≠ '\x7d') with
  | '\x7d' :: rest =>
    if digits.isEmpty then none
    else do
      let values ← digits.mapM Text.hexValue?
      let c ← scalar? (values.foldl (fun n d => n * 16 + d) 0)
      some (c, rest)
  | _ => none

/-- The character after `\x`, `\u` or `\U`, given by so many digits or in braces. -/
def readHex (flags : Flags) (count : Nat) (text : List Char) : Option (Char × List Char) :=
  match skip flags text with
  | '\x7b' :: rest => readHexBraces flags rest
  | text => readHexDigits flags count 0 text

/-- The character after `\x`. Two digits stand for a byte, which has to be a character by itself
where sets may not go beyond ASCII. -/
def readHexByte (flags : Flags) (text : List Char) : Option (Char × List Char) := do
  let (c, rest) ← readHex flags 2 text
  let braced := (skip flags text).head? == some '\x7b'
  if flags.ascii && !braced && 0x7f < c.toNat then none else some (c, rest)

inductive Escape where
  | char (c : Char)
  | set (s : Ranges)
  | assertion (condition : Assertion)

/-- The condition on words named in braces after `\b`; without such a name, that of `\b` itself. -/
def readBoundary (flags : Flags) (text : List Char) : Option (WordAssertion × List Char) :=
  let isNameChar (c : Char) : Bool := ('a' ≤ c && c ≤ 'z') || ('A' ≤ c && c ≤ 'Z') || c == '-'
  match text with
  | '\x7b' :: inside =>
    match skip flags inside with
    | [] => none
    | c :: rest =>
      if isNameChar c then
        let name := (c :: rest).takeWhile fun d =>
          isNameChar d || (flags.spaced && Text.isSpace d)
        match (c :: rest).drop name.length with
        | '\x7d' :: rest =>
          match String.ofList (name.filter isNameChar) with
          | "start" => some (.start, rest)
          | "end" => some (.stop, rest)
          | "start-half" => some (.startHalf, rest)
          | "end-half" => some (.stopHalf, rest)
          | _ => none
        | _ => none
      else some (.boundary, text)
  | _ => some (.boundary, text)

/-- Whether a backslash before the character makes it stand for itself. -/
def isEscapable (c : Char) : Bool :=
  c.toNat < 0x80 && !c.isAlphanum && c != '<' && c != '>'

def readEscape (flags : Flags) : List Char → Option (Escape × List Char)
  | [] => none
  | c :: rest =>
    match c with
    | 'x' => (readHexByte flags rest).map fun (c, rest) => (.char c, rest)
    | 'u' => (readHex flags 4 rest).map fun (c, rest) => (.char c, rest)
    | 'U' => (readHex flags 8 rest).map fun (c, rest) => (.char c, rest)
    | 'd' => some (.set flags.digits, rest)
    | 's' => some (.set flags.spaces, rest)
    | 'w' => some (.set flags.words, rest)
    | 'D' => (flags.complement flags.digits).map fun s => (.set s, rest)
    | 'S' => (flags.complement flags.spaces).map fun s => (.set s, rest)
    | 'W' => (flags.complement flags.words).map fun s => (.set s, rest)
    | 'a' => some (.char '\x07', rest)
    | 'f' => some (.char '\x0c', rest)
    | 't' => some (.char '\t', rest)
    | 'n' => some (.char '\n', rest)
    | 'r' => some (.char '\r', rest)
    | 'v' => some (.char '\x0b', rest)
    | 'A' => some (.assertion .textStart, rest)
    | 'z' => some (.assertion .textEnd, rest)
    | 'b' => (readBoundary flags rest).map fun (condition, rest) =>
      (.assertion (flags.wordAssertion condition), rest)
    | 'B' => some (.assertion (flags.wordAssertion .noBoundary), rest)
    | '<' => some (.assertion (flags.wordAssertion .start), rest)
    | '>' => some (.assertion (flags.wordAssertion .stop), rest)
    | c => if isEscapable c then some (.char c, rest) else none

/-- The ASCII class with a name, as in `[:alpha:]`. -/
def asciiClass? (name : String) : Option Ranges :=
  match name with
  | "alnum" => some #[(0x30, 0x39), (0x41, 0x5a), (0x61, 0x7a)]
  | "alpha" => some #[(0x41, 0x5a), (0x61, 0x7a)]
  | "ascii" => some #[(0x00, 0x7f)]
  | "blank" => some #[(0x09, 0x09), (0x20, 0x20)]
  | "cntrl" => some #[(0x00, 0x1f), (0x7f, 0x7f)]
  | "digit" => some #[(0x30, 0x39)]
  | "graph" => some #[(0x21, 0x7e)]
  | "lower" => some #[(0x61, 0x7a)]
  | "print" => some #[(0x20, 0x7e)]
  | "punct" => some #[(0x21, 0x2f), (0x3a, 0x40), (0x5b, 0x60), (0x7b, 0x7e)]
  | "space" => some #[(0x09, 0x0d), (0x20, 0x20)]
  | "upper" => some #[(0x41, 0x5a)]
  | "word" => some Text.asciiWordRanges
  | "xdigit" => some #[(0x30, 0x39), (0x41, 0x46), (0x61, 0x66)]
  | _ => none

/-- A named ASCII class after its opening bracket. Other texts are no such class. -/
def readAsciiClass (flags : Flags) : List Char → Option (Ranges × List Char)
  | ':' :: text => do
    let (negated, text) := match text with
      | '^' :: rest => (true, rest)
      | _ => (false, text)
    let name := text.takeWhile (· ≠ ':')
    match text.drop name.length with
    | ':' :: ']' :: rest => do
      let s ← asciiClass? (String.ofList name)
      if negated then (flags.complement (flags.fold s)).map fun s => (s, rest)
      else some (flags.fold s, rest)
    | _ => none
  | _ => none

/-- A set as it is written, with the levels of brackets and operations in it. -/
structure Written where
  levels : Nat
  chars : Ranges

namespace Written

/-- The members that stand side by side in a bracket, with a level of their own if there are
several. -/
def ofMembers (members : List Written) : Written where
  levels :=
    match members with
    | [] => 0
    | [member] => member.levels
    | members => members.foldl (fun n member => max n member.levels) 0 + 1
  chars := .ofList (members.flatMap fun member => member.chars.toList)

/-- A set with brackets around it. -/
def bracketed (flags : Flags) (negated : Bool) (s : Written) : Option Written := do
  let chars := flags.fold s.chars
  let chars ← if negated then flags.complement chars else some chars
  some ⟨s.levels + 1, chars⟩

end Written

inductive SetOp where
  | inter
  | diff
  | symmDiff

def SetOp.apply : SetOp → Ranges → Ranges → Ranges
  | inter => .inter
  | diff => .diff
  | symmDiff => .symmDiff

/-- Applies an operation that waits for its right side. -/
def applyPending (flags : Flags) (pending : Option (SetOp × Written)) (right : Written) : Written :=
  match pending with
  | none => right
  | some (op, left) =>
    ⟨max left.levels right.levels + 1, op.apply (flags.fold left.chars) (flags.fold right.chars)⟩

/-- One member of a bracket: a character or an escape. -/
def readMember (flags : Flags) (text : List Char) : Option (Escape × List Char) := do
  let (member, rest) ← match text with
    | [] => none
    | '\\' :: rest => readEscape flags rest
    | c :: rest => some (.char c, rest)
  match member with
  | .char c => if flags.ascii && 0x7f < c.toNat then none else some (.char c, rest)
  | member => some (member, rest)

/-- A member alone as a set. Assertions are none. -/
def memberSet? : Escape → Option Ranges
  | .char c => some (.single c)
  | .set s => some s
  | .assertion _ => none

/-- A member or a range of characters. A hyphen before the closing bracket or before another
hyphen makes no range. -/
def readRange (flags : Flags) (text : List Char) : Option (Ranges × List Char) := do
  let (first, rest) ← readMember flags text
  let alone := (memberSet? first).map fun s => (s, rest)
  match skip flags rest with
  | [] => none
  | '-' :: after =>
    match skip flags after with
    | ']' :: _ => alone
    | '-' :: _ => alone
    | after => do
      let (last, rest) ← readMember flags after
      match first, last with
      | .char a, .char b => if a ≤ b then some (.range a b, rest) else none
      | _, _ => none
  | _ => alone

/-- The hyphens that open a bracket stand for themselves. -/
def leadingHyphens (flags : Flags) : Nat → List Char → Nat × List Char
  | 0, text => (0, text)
  | fuel + 1, text =>
    match skip flags text with
    | '-' :: rest =>
      let (count, rest) := leadingHyphens flags fuel rest
      (count + 1, rest)
    | rest => (0, rest)

mutual

/-- The set of a bracket, after its opening. A closing bracket in the first place stands for
itself. -/
def readBracket : Nat → Flags → List Char → Option (Written × List Char)
  | 0, _, _ => none
  | fuel + 1, flags, text => do
    let (negated, text) := match skip flags text with
      | '^' :: rest => (true, rest)
      | text => (false, text)
    let (hyphens, text) := leadingHyphens flags text.length text
    let (found, text) := match hyphens, text with
      | 0, ']' :: rest => ([⟨0, .single ']'⟩], rest)
      | count, text => (List.replicate count ⟨0, .single '-'⟩, text)
    let (s, rest) ← readMembers fuel flags none found text
    (s.bracketed flags negated).map fun s => (s, rest)

/-- The members of a bracket up to its closing. `found` holds those since the last operation. -/
def readMembers : Nat → Flags → Option (SetOp × Written) → List Written → List Char →
    Option (Written × List Char)
  | 0, _, _, _, _ => none
  | fuel + 1, flags, pending, found, text =>
    let left (_ : Unit) := applyPending flags pending (.ofMembers found)
    match skip flags text with
    | [] => none
    | ']' :: rest => some (left (), rest)
    | '&' :: '&' :: rest => readMembers fuel flags (some (.inter, left ())) [] rest
    | '-' :: '-' :: rest => readMembers fuel flags (some (.diff, left ())) [] rest
    | '~' :: '~' :: rest => readMembers fuel flags (some (.symmDiff, left ())) [] rest
    | '[' :: rest =>
      match readAsciiClass flags rest with
      | some (s, rest) => readMembers fuel flags pending (⟨0, s⟩ :: found) rest
      | none => do
        let (s, rest) ← readBracket fuel flags rest
        readMembers fuel flags pending (s :: found) rest
    | text => do
      let (s, rest) ← readRange flags text
      readMembers fuel flags pending (⟨0, s⟩ :: found) rest

end

/-- The flags up to the colon or parenthesis that ends them. `seen` holds the letters so far,
`negated` says that a minus came, `dangling` that it came last. -/
def readFlags (seen : List Char) (negated dangling : Bool) (flags : Flags) :
    List Char → Option (Flags × List Char)
  | [] => none
  | c :: rest =>
    if c = ':' ∨ c = ')' then
      if dangling then none else some (flags, c :: rest)
    else if c = '-' then
      if negated then none else readFlags seen true true flags rest
    else if c ∈ seen then none
    else do
      let flags ← flags.update c (!negated)
      readFlags (c :: seen) negated false flags rest

/-- A group name up to its closing bracket: letters, numbers and some punctuation, no number or
punctuation first. -/
def readGroupName (names : List String) (text : List Char) : Option (String × List Char) :=
  let name := text.takeWhile (· ≠ '>')
  let isFirst (c : Char) : Bool := c == '_' || Text.isLetter c
  let isLater (c : Char) : Bool :=
    c == '_' || c == '.' || c == '[' || c == ']' || Text.isAlphanumeric c
  match name, text.drop name.length with
  | c :: later, '>' :: rest =>
    let s := String.ofList name
    if isFirst c && later.all isLater && !names.contains s then some (s, rest) else none
  | _, _ => none

inductive Opening where
  /-- New flags for the rest of the enclosing group. -/
  | directive (flags : Flags)
  /-- A group with its flags, whether it captures, and perhaps a name. -/
  | group (flags : Flags) (captures : Bool) (name : Option String)

/-- The opening of a group after its parenthesis. -/
def readOpening (flags : Flags) (names : List String) (text : List Char) :
    Option (Opening × List Char) :=
  match text with
  | '?' :: '=' :: _ => none
  | '?' :: '!' :: _ => none
  | '?' :: '<' :: '=' :: _ => none
  | '?' :: '<' :: '!' :: _ => none
  | '?' :: 'P' :: '<' :: rest =>
    (readGroupName names rest).map fun (name, rest) => (.group flags true (some name), rest)
  | '?' :: '<' :: rest =>
    (readGroupName names rest).map fun (name, rest) => (.group flags true (some name), rest)
  | '?' :: ')' :: _ => none
  | '?' :: rest => do
    let (inner, rest) ← readFlags [] false false flags rest
    match rest with
    | ')' :: rest => some (.directive inner, rest)
    | ':' :: rest => some (.group inner false none, rest)
    | _ => none
  | text => some (.group flags true none, text)

def readNumber (flags : Flags) (text : List Char) : Option (Nat × List Char) :=
  match Text.splitDigits (text.dropWhile Text.isSpace) with
  | ([], _) => none
  | (digits, rest) =>
    let n := Text.decimalValue digits
    if n < Nat.pow 2 32 then some (n, skip flags (rest.dropWhile Text.isSpace)) else none

/-- The bounds of a repetition after its opening brace. -/
def readCounts (flags : Flags) (text : List Char) :
    Option (Nat × Option Nat × List Char) := do
  let (low, rest) ← readNumber flags (skip flags text)
  let (high, rest) ← match rest with
    | ',' :: rest =>
      match skip flags rest with
      | '\x7d' :: rest => some (none, '\x7d' :: rest)
      | rest => (readNumber flags rest).map fun (high, rest) => (some high, rest)
    | rest => some (some low, rest)
  match rest with
  | '\x7d' :: rest => if high.all (low ≤ ·) then some (low, high, rest) else none
  | _ => none

/-- A part of a sequence. Flag directives stand in it but cannot be repeated. -/
inductive Item where
  | directive
  | part (p : Pattern)

def Item.pattern : Item → Pattern
  | directive => empty
  | part p => p

/-- The pattern of a sequence, given last part first. -/
def sequence (items : List Item) : Pattern :=
  match items with
  | [item] => item.pattern
  | items => concat (items.reverse.map Item.pattern)

/-- The pattern of some branches, given last branch first. -/
def choice : List Pattern → Pattern
  | [p] => p
  | branches => alternation branches.reverse

def literal (flags : Flags) (c : Char) : Pattern :=
  set 0 (flags.fold (.single c))

/-- The items with the last part repeated, and the text after a mark that makes the repetition
lazy. -/
def repeatLast (flags : Flags) (min : Nat) (max : Option Nat) (items : List Item)
    (text : List Char) : Option (List Item × List Char) :=
  let (isLazy, rest) := match text with
    | '?' :: rest => (true, rest)
    | rest => (false, rest)
  match items with
  | .part p :: items => some (.part (loop (isLazy == flags.swapGreed) min max p) :: items, rest)
  | _ => none

/-- Reads alternatives up to the end of the text or the parenthesis that closes their group.
`names` are the group names so far, `branches` and `items` what was read, last first. -/
def readAlternatives : Nat → Flags → List String → List Pattern → List Item → List Char →
    Option (Pattern × List String × List Char)
  | 0, _, _, _, _, _ => none
  | fuel + 1, flags, names, branches, items, text =>
    let next (p : Pattern) (rest : List Char) :=
      readAlternatives fuel flags names branches (.part p :: items) rest
    let repeated (min : Nat) (max : Option Nat) (rest : List Char) := do
      let (items, rest) ← repeatLast flags min max items rest
      readAlternatives fuel flags names branches items rest
    match skip flags text with
    | [] => some (choice (sequence items :: branches), names, [])
    | ')' :: rest => some (choice (sequence items :: branches), names, ')' :: rest)
    | '|' :: rest => readAlternatives fuel flags names (sequence items :: branches) [] rest
    | '(' :: rest => do
      match ← readOpening flags names (skip flags rest) with
      | (.directive flags, rest) =>
        readAlternatives fuel flags names branches (.directive :: items) rest
      | (.group inner captures name, rest) => do
        match ← readAlternatives fuel inner (name.toList ++ names) [] [] rest with
        | (body, names, ')' :: rest) =>
          readAlternatives fuel flags names branches (.part (group captures body) :: items) rest
        | _ => none
    | '[' :: rest => do
      let (s, rest) ← readBracket (2 * rest.length + 2) flags rest
      next (set s.levels s.chars) rest
    | '?' :: rest => repeated 0 (some 1) rest
    | '*' :: rest => repeated 0 none rest
    | '+' :: rest => repeated 1 none rest
    | '\x7b' :: rest => do
      let (min, max, rest) ← readCounts flags rest
      repeated min max (skip flags rest)
    | '.' :: rest => do
      let s ← flags.dot
      next (set 0 s) rest
    | '^' :: rest => next (assertion flags.startAssertion) rest
    | '$' :: rest => next (assertion flags.endAssertion) rest
    | '\\' :: rest => do
      match ← readEscape flags rest with
      | (.char c, rest) => next (literal flags c) rest
      | (.set s, rest) => next (set 0 s) rest
      | (.assertion condition, rest) => next (assertion condition) rest
    | c :: rest => next (literal flags c) rest

def parse? (s : String) : Option Pattern := do
  let text := s.toList
  match ← readAlternatives (text.length + 1) {} [] [] [] text with
  | (p, _, []) => some p
  | _ => none

end JsonTypeDefinition.Pattern
