import JsonTypeDefinition.Proofs.WholeNumbers
import JsonTypeDefinition.Validation.Node

/-!
# What integer types accept

An integer type accepts the numbers whose exact value is an integer of its width. The check looks at
a number once it is rounded, which makes no difference: rounding keeps integers whole and moves none
across an end of a range.
-/

namespace JsonTypeDefinition.Proofs

/-- The least and the greatest integer of a type, by its width in bits. -/
inductive Spans : Primitive → Int → Int → Prop where
  | int8 : Spans .int8 (-2 ^ 7) (2 ^ 7 - 1)
  | uint8 : Spans .uint8 0 (2 ^ 8 - 1)
  | int16 : Spans .int16 (-2 ^ 15) (2 ^ 15 - 1)
  | uint16 : Spans .uint16 0 (2 ^ 16 - 1)
  | int32 : Spans .int32 (-2 ^ 31) (2 ^ 31 - 1)
  | uint32 : Spans .uint32 0 (2 ^ 32 - 1)

def IsIntegerIn (low high : Int) (value : Json) : Prop :=
  ∃ (n : Number) (i : Int), value = .number n ∧ n.exact = i ∧ low ≤ i ∧ i ≤ high

def IsFractional (value : Json) : Prop :=
  ∃ n : Number, value = .number n ∧ ∀ i : Int, n.exact ≠ i

/-- A type accepts the integers between `low` and `high`, and tells numbers that are no integers
from other values. -/
structure ChecksIntegers (type : Primitive) (low high : Int) : Prop where
  accepts : ∀ value, type.violation? value = none ↔ IsIntegerIn low high value
  notWhole : ∀ value, type.violation? value = some (.notWhole type) ↔ IsFractional value
  mismatch : ∀ value, type.violation? value = some (.typeMismatch type value.kind) ↔
    ¬ IsIntegerIn low high value ∧ ¬ IsFractional value
  /-- Rounding an integer of any size makes no difference to what it is told for. -/
  rounds : ∀ i : Int, ∃ m : Int,
    (Number.int i).value = m ∧ (low ≤ m ↔ low ≤ i) ∧ (m ≤ high ↔ i ≤ high)

section Numbers

variable {n : Number} {i : Int}

lemma isWhole_iff {q : Rat} : isWhole q = true ↔ ∃ i : Int, q = i := by
  rw [isWhole, beq_iff_eq]
  constructor
  · exact fun h => ⟨q.num, (Rat.coe_int_num_of_den_eq_one h).symm⟩
  · rintro ⟨i, rfl⟩
    exact Rat.den_intCast i

lemma value_keeps_order (h : n.exact = i) : ∃ m : Int, n.value = m ∧
    ∀ b : Int, b.natAbs < wholeLimit → (m ≤ b ↔ i ≤ b) ∧ (b ≤ m ↔ b ≤ i) := by
  cases n with
  | int k =>
    obtain rfl : k = i := Int.cast_inj.mp h
    exact nearest_keeps_order k
  | float x => exact ⟨i, h, fun _ _ => ⟨.rfl, .rfl⟩⟩

lemma isWhole_value : isWhole n.value = true ↔ ∃ i : Int, n.exact = i := by
  constructor
  · intro h
    cases n with
    | int k => exact ⟨k, rfl⟩
    | float x => exact isWhole_iff.mp h
  · rintro ⟨i, hi⟩
    obtain ⟨m, hm, -⟩ := value_keeps_order hi
    exact isWhole_iff.mpr ⟨m, hm⟩

end Numbers

section Checks

variable {type : Primitive} {low high : Int} {value : Json} {n : Number} {i : Int}

lemma spans_range (h : Spans type low high) : type.range? = some (low, high) ∧
    low.natAbs < wholeLimit ∧ high.natAbs < wholeLimit := by
  cases h <;> decide

lemma violation?_other (h : Spans type low high) (hvalue : ∀ n, value ≠ .number n) :
    type.violation? value = some (.typeMismatch type value.kind) := by
  unfold Primitive.violation?
  rw [(spans_range h).1]
  cases value with
  | number n => exact absurd rfl (hvalue n)
  | _ => rfl

lemma violation?_fractional (h : Spans type low high) (hn : ∀ i : Int, n.exact ≠ i) :
    type.violation? (.number n) = some (.notWhole type) := by
  have hwhole : isWhole n.value = false :=
    Bool.eq_false_iff.mpr fun hwhole => not_exists.mpr hn (isWhole_value.mp hwhole)
  simp [Primitive.violation?, (spans_range h).1, Json.number?, hwhole]

lemma violation?_integer (h : Spans type low high) (hi : n.exact = i) :
    type.violation? (.number n) =
      if low ≤ i ∧ i ≤ high then none else some (.typeMismatch type .number) := by
  obtain ⟨hrange, hlow, hhigh⟩ := spans_range h
  obtain ⟨m, hm, horder⟩ := value_keeps_order hi
  have hwhole : isWhole (m : Rat) = true := isWhole_iff.mpr ⟨m, rfl⟩
  simp only [Primitive.violation?, hrange, Json.number?, hm, hwhole, Int.cast_lt,
    ← (horder low hlow).2, ← (horder high hhigh).1]
  grind [Json.kind]

lemma not_fractional (h : IsIntegerIn low high value) : ¬ IsFractional value := by
  rintro ⟨n, hn, hfraction⟩
  obtain ⟨m, i, hm, hi, -⟩ := h
  cases hn.symm.trans hm
  exact hfraction i hi

lemma violation?_cases (h : Spans type low high) (value : Json) :
    (IsIntegerIn low high value ∧ type.violation? value = none) ∨
      (IsFractional value ∧ type.violation? value = some (.notWhole type)) ∨
        (¬ IsIntegerIn low high value ∧ ¬ IsFractional value) ∧
          type.violation? value = some (.typeMismatch type value.kind) := by
  by_cases hnumber : ∃ n, value = .number n
  · obtain ⟨n, rfl⟩ := hnumber
    by_cases hfraction : ∀ i : Int, n.exact ≠ i
    · exact .inr (.inl ⟨⟨n, rfl, hfraction⟩, violation?_fractional h hfraction⟩)
    · obtain ⟨i, hi⟩ := not_forall_not.mp hfraction
      rw [violation?_integer h hi]
      split_ifs with hin
      · exact .inl ⟨⟨n, i, rfl, hi, hin⟩, rfl⟩
      · refine .inr (.inr ⟨⟨?_, ?_⟩, rfl⟩)
        · rintro ⟨_, j, ⟨⟩, hj, hin'⟩
          obtain rfl : i = j := Int.cast_inj.mp (hi.symm.trans hj)
          exact hin hin'
        · rintro ⟨_, ⟨⟩, hnone⟩
          exact hnone i hi
  · have hother : ∀ n, value ≠ .number n := fun n hn => hnumber ⟨n, hn⟩
    refine .inr (.inr ⟨⟨?_, ?_⟩, violation?_other h hother⟩)
    · rintro ⟨n, -, hn, -⟩
      exact hother n hn
    · rintro ⟨n, hn, -⟩
      exact hother n hn

end Checks

/-- An integer type accepts just the numbers that are exactly an integer of its width. Of the
others, just the numbers that are exactly no integer are told to be none, however large they are. -/
theorem integers_checked {type : Primitive} {low high : Int} (h : Spans type low high) :
    ChecksIntegers type low high := by
  constructor
  case accepts =>
    intro value
    rcases violation?_cases h value with ⟨hin, hv⟩ | ⟨hfraction, hv⟩ | ⟨⟨hout, -⟩, hv⟩
    · simp [hin, hv]
    · simp [mt not_fractional (not_not.mpr hfraction), hv]
    · simp [hout, hv]
  case notWhole =>
    intro value
    rcases violation?_cases h value with ⟨hin, hv⟩ | ⟨hfraction, hv⟩ | ⟨⟨-, hwhole⟩, hv⟩
    · simp [not_fractional hin, hv]
    · simp [hfraction, hv]
    · simp [hwhole, hv]
  case mismatch =>
    intro value
    rcases violation?_cases h value with ⟨hin, hv⟩ | ⟨hfraction, hv⟩ | ⟨hneither, hv⟩
    · simp [hin, hv]
    · simp [hfraction, hv]
    · simp [hneither, hv]
  case rounds =>
    intro i
    obtain ⟨-, hlow, hhigh⟩ := spans_range h
    obtain ⟨m, hm, horder⟩ := nearest_keeps_order i
    exact ⟨m, hm, (horder low hlow).2, (horder high hhigh).1⟩

/-- Of the values around the greatest integer of 32 bits, the negative zero and whole decimals are
accepted, a fraction beyond the range is told to be one, and `2 ^ 53 + 1` is beyond. -/
theorem uint32_checked :
    Spans .uint32 0 4294967295 ∧ ChecksIntegers .uint32 0 4294967295 ∧
      [Number.int 4294967295, .float ⟨4294967295, false⟩, .float ⟨0, true⟩, .int 4294967296,
          .int (-1), .float ⟨8589934593 / 2, false⟩, .int 9007199254740993].map
        (fun n => (Primitive.uint32.violation? (.number n)).map Violation.code) =
        [none, none, none, some "TYPE_FORM:TYPE_MISMATCH", some "TYPE_FORM:TYPE_MISMATCH",
          some "TYPE_FORM:TYPE_MISMATCH:NOT_INTEGER", some "TYPE_FORM:TYPE_MISMATCH"] := by
  have hspans : Spans .uint32 0 4294967295 := .uint32
  exact ⟨hspans, integers_checked hspans, by decide +kernel⟩

end JsonTypeDefinition.Proofs
