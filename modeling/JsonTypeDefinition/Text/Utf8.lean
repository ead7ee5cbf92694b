/-!
# Ranges of characters in UTF-8

UTF-8 writes a code point in one to four bytes: a lead byte, whose marker tells the length, and
bytes with six bits each. The encodings of a range of characters are the union of a few products,
each given by one range of bytes for every position.
-/

namespace JsonTypeDefinition.Text.Utf8

abbrev ByteRange := Nat × Nat

/-- Products of byte ranges, one range for every position. -/
abbrev Sequence := List ByteRange

/-- The code points that are written in the same number of bytes, without the surrogates. -/
structure Zone where
  first : Nat
  last : Nat
  /-- What the lead byte adds to its bits. -/
  marker : Nat
  /-- How many bytes follow the lead byte. -/
  following : Nat

def zones : List Zone :=
  [⟨0, 0x7f, 0, 0⟩, ⟨0x80, 0x7ff, 0xc0, 1⟩, ⟨0x800, 0xd7ff, 0xe0, 2⟩, ⟨0xe000, 0xffff, 0xe0, 2⟩,
    ⟨0x10000, 0x10ffff, 0xf0, 3⟩]

/-- What a following byte adds to its bits. -/
def followingMarker : Nat := 0x80

/-- The numbers from `first` to `last` as products of ranges of digits: a leading one and `count`
more to the base 64. The numbers under the first and the last leading digit stand alone, unless
they are all there. -/
def digitRanges : Nat → Nat → Nat → List (List (Nat × Nat))
  | 0, first, last => [[(first, last)]]
  | count + 1, first, last =>
    let size := Nat.pow 64 (count + 1)
    let low := first / size
    let high := last / size
    let below (digit first last : Nat) : List (List (Nat × Nat)) :=
      (digitRanges count first last).map ((digit, digit) :: ·)
    let whole (low high : Nat) : List (List (Nat × Nat)) :=
      if low ≤ high then [(low, high) :: List.replicate (count + 1) (0, 63)] else []
    if low = high then below low (first % size) (last % size)
    else
      match first % size == 0, last % size == size - 1 with
      | true, true => whole low high
      | true, false => whole low (high - 1) ++ below high 0 (last % size)
      | false, true => below low (first % size) (size - 1) ++ whole (low + 1) high
      | false, false =>
        below low (first % size) (size - 1) ++ whole (low + 1) (high - 1) ++
          below high 0 (last % size)

/-- The bytes of digits. -/
def ofDigits (marker : Nat) : List (Nat × Nat) → Sequence
  | [] => []
  | (low, high) :: rest => (marker + low, marker + high) :: ofDigits followingMarker rest

/-- The encodings of the characters from one code point to another, in order. -/
def sequences (first last : Nat) : List Sequence :=
  zones.flatMap fun zone =>
    let low := max first zone.first
    let high := min last zone.last
    if low ≤ high then (digitRanges zone.following low high).map (ofDigits zone.marker) else []

end JsonTypeDefinition.Text.Utf8
