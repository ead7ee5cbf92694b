import JsonTypeDefinition.Proofs.CivilDates
import JsonTypeDefinition.Proofs.WholeNumbers
import Mathlib.Algebra.Order.Field.Basic
import Mathlib.Tactic.Linarith
import Mathlib.Tactic.NormNum

/-!
# Timestamps on the time line

The library that places timestamps is taken as it is documented. Measuring a timestamp with it
always succeeds, is exact for fractions of at most three digits, and keeps the order of instants.
-/

namespace JsonTypeDefinition.Proofs
open Timestamp

/-- The number that the digits after a point denote. -/
def decimalFraction : List Nat → Rat
  | [] => 0
  | d :: digits => (d + decimalFraction digits) / 10

def localDate (t : Timestamp) : Date :=
  ⟨t.year, t.month, t.day⟩

/-- The seconds from the epoch to a timestamp. Second 60 is one second after second 59. -/
def IsInstant (t : Timestamp) (instant : Rat) : Prop :=
  ∃ day : Int, DayCount (localDate t) day ∧
    instant = day * 86400 + t.hour * 3600 + t.minute * 60 + t.second + decimalFraction t.fraction -
      t.offset * 60

/-- Where texts are placed: whole seconds from the epoch, and nanoseconds after them. -/
abbrev Placement := String → Option (Int × Nat)

/-- The place of a timestamp is in UTC, with nine digits of its fraction. Second 60 counts as second
59 and a second's worth of nanoseconds. -/
structure PlacedAt (t : Timestamp) (seconds : Int) (nanos : Nat) : Prop where
  seconds : ∃ day : Int, DayCount (localDate t) day ∧
    seconds = day * 86400 + t.hour * 3600 + t.minute * 60 + min t.second 59 - t.offset * 60
  nanos : (nanos : Rat) =
    decimalFraction (t.fraction.take 9) * 10 ^ 9 + if t.second = 60 then 10 ^ 9 else 0

/-- Every timestamp is placed. -/
def Documented (place : Placement) : Prop :=
  ∀ s t, Spells t s.toList → ∃ seconds nanos,
    place s = some (seconds, nanos) ∧ PlacedAt t seconds nanos

/-- Milliseconds from the epoch to the place of a timestamp. -/
def millisBy (place : Placement) (s : String) : Option Binary64 := do
  let _ ← parse? s
  let (seconds, nanos) ← place s
  return .ofInt seconds * .ofInt 1000 + .ofInt nanos / .ofInt 1000000

def placeFields : Placement := fun s =>
  (parse? s).map fun t => (t.epochSeconds, t.nanoseconds)

/-- A timestamp with at most three digits in its fraction, and its measure. -/
structure Measured (place : Placement) (s : String) (t : Timestamp) (x : Binary64) : Prop where
  spelled : Spells t s.toList
  short : t.fraction.length ≤ 3
  measure : millisBy place s = some x

section Fractions

variable {digits : List Nat}

lemma foldl_digits (digits : List Nat) (a : Nat) :
    ((digits.foldl (fun n d => n * 10 + d) a : Nat) : Rat) =
      (a + decimalFraction digits) * 10 ^ digits.length := by
  induction digits generalizing a with
  | nil => simp [decimalFraction]
  | cons d digits ih =>
    rw [List.foldl_cons, ih, decimalFraction, List.length_cons, pow_succ]
    push_cast
    ring

lemma decimalFraction_range (h : ∀ d ∈ digits, d < 10) :
    0 ≤ decimalFraction digits ∧ decimalFraction digits < 1 := by
  induction digits with
  | nil => simp [decimalFraction]
  | cons d digits ih =>
    obtain ⟨hd, hdigits⟩ := List.forall_mem_cons.mp h
    obtain ⟨hnonneg, hlt⟩ := ih hdigits
    have hdigit : (d : Rat) ≤ 9 := by exact_mod_cast Nat.le_of_lt_succ hd
    have hdigit' : (0 : Rat) ≤ d := Nat.cast_nonneg d
    unfold decimalFraction
    constructor <;> linarith

lemma foldl_places {places : Nat} (h : digits.length ≤ places) :
    ((digits.foldl (fun n d => n * 10 + d) 0 * Nat.pow 10 (places - digits.length) : Nat) : Rat) =
      decimalFraction digits * 10 ^ places := by
  have hpow : (10 : Rat) ^ digits.length * 10 ^ (places - digits.length) = 10 ^ places := by
    rw [← pow_add, Nat.add_sub_cancel' h]
  have hcast : ((Nat.pow 10 (places - digits.length) : Nat) : Rat) =
      10 ^ (places - digits.length) := by
    rw [Nat.pow_eq]
    push_cast
    rfl
  rw [Nat.cast_mul, hcast, foldl_digits, Nat.cast_zero, zero_add, mul_assoc, hpow]

lemma fraction_digits {t : Timestamp} {text : List Char} (h : Spells t text) :
    ∀ d ∈ t.fraction, d < 10 := by
  obtain ⟨_, fraction, _, _, hfraction, _⟩ := h.written
  generalize t.fraction = digits at hfraction
  cases hfraction with
  | none => simp
  | digits _ hdigits => exact hdigits

end Fractions

section Places

variable {t : Timestamp} {text : List Char} {place : Placement} {seconds : Int} {nanos : Nat}

lemma localDate_exists (h : Spells t text) : (localDate t).Exists :=
  ⟨h.month, h.day⟩

lemma nanoseconds_eq (t : Timestamp) : (t.nanoseconds : Rat) =
    decimalFraction (t.fraction.take 9) * 10 ^ 9 + if t.second = 60 then 10 ^ 9 else 0 := by
  have hplaces := foldl_places (List.length_take_le 9 t.fraction)
  unfold nanoseconds
  rw [Nat.cast_add, hplaces]
  congr 1
  split_ifs <;> norm_num

lemma placedAt_iff (h : Spells t text) :
    PlacedAt t seconds nanos ↔ seconds = t.epochSeconds ∧ nanos = t.nanoseconds := by
  have hepoch : t.epochSeconds = (localDate t).number * 86400 + t.hour * 3600 + t.minute * 60 +
      min t.second 59 - t.offset * 60 := rfl
  constructor
  · rintro ⟨⟨day, hday, hseconds⟩, hnanos⟩
    obtain ⟨-, hnumber⟩ := dayCount_iff.mp hday
    refine ⟨by rw [hseconds, hepoch, hnumber], ?_⟩
    rw [← nanoseconds_eq] at hnanos
    exact_mod_cast hnanos
  · rintro ⟨rfl, rfl⟩
    refine ⟨⟨(localDate t).number, ?_, hepoch⟩, nanoseconds_eq t⟩
    exact dayCount_iff.mpr ⟨localDate_exists h, rfl⟩

lemma placeFields_documented : Documented placeFields := by
  intro s t ht
  refine ⟨t.epochSeconds, t.nanoseconds, ?_, (placedAt_iff ht).mpr ⟨rfl, rfl⟩⟩
  rw [placeFields, parse?_eq_some_iff.mpr ht, Option.map_some]

lemma millisBy_eq (hplace : Documented place) (s : String) : millisBy place s = millisOf? s := by
  unfold millisBy millisOf?
  cases hparse : parse? s with
  | none => rfl
  | some t =>
    have ht : Spells t s.toList := parse?_eq_some_iff.mp hparse
    obtain ⟨seconds, nanos, hs, hplaced⟩ := hplace s t ht
    obtain ⟨rfl, rfl⟩ := (placedAt_iff ht).mp hplaced
    rw [hs]
    rfl

end Places

section Instants

variable {t t' : Timestamp} {text text' : List Char} {place : Placement} {s s' : String}
  {x x' : Binary64} {q q' : Rat}

lemma epochSeconds_small (h : Spells t text) : t.epochSeconds.natAbs ≤ 10 ^ 12 := by
  have hlow : -(Calendar.daysBeforeYear 1970 : Int) ≤ (localDate t).number := by
    unfold Date.number Calendar.epochDay
    omega
  have hhigh : (localDate t).number < Date.number ⟨10000, 1, 1⟩ :=
    number_lt_of_before (localDate_exists h) (exists_newYear 10000)
      (.year (Nat.lt_succ_of_le h.year))
  have hepoch : Calendar.daysBeforeYear 1970 = 719528 := rfl
  have hlast : Date.number ⟨10000, 1, 1⟩ = 2932897 := rfl
  have hoffset : t.offset.natAbs < 1440 := by
    obtain ⟨_, _, _, _, _, hoffset, _⟩ := h.written
    generalize t.offset = offset at hoffset ⊢
    cases hoffset <;> omega
  have hhour := h.hour
  have hminute := h.minute
  have hseconds : t.epochSeconds = (localDate t).number * 86400 + t.hour * 3600 + t.minute * 60 +
      min t.second 59 - t.offset * 60 := rfl
  omega

lemma nanoseconds_short (h : Spells t text) (hshort : t.fraction.length ≤ 3) :
    ∃ n : Nat, n < 1000 ∧ (n : Rat) = decimalFraction t.fraction * 1000 ∧
      t.nanoseconds = (n + if t.second = 60 then 1000 else 0) * 1000000 := by
  obtain ⟨n, hn⟩ : ∃ n, n = t.fraction.foldl (fun n d => n * 10 + d) 0 *
    Nat.pow 10 (3 - t.fraction.length) := ⟨_, rfl⟩
  have hthousandths : (n : Rat) = decimalFraction t.fraction * 1000 := by
    rw [hn, foldl_places hshort]
    norm_num
  obtain ⟨-, hlt⟩ := decimalFraction_range (fraction_digits h)
  refine ⟨n, ?_, hthousandths, ?_⟩
  · have hsmall : (n : Rat) < 1000 := by linarith
    exact_mod_cast hsmall
  · have hnanos := nanoseconds_eq t
    rw [List.take_of_length_le (by omega)] at hnanos
    have hcast : (t.nanoseconds : Rat) =
        ((n + if t.second = 60 then 1000 else 0) * 1000000 : Nat) := by
      push_cast
      rw [hnanos, hthousandths]
      split_ifs <;> ring
    exact_mod_cast hcast

lemma isInstant_iff (h : Spells t text) : IsInstant t q ↔
    q = t.epochSeconds + (if t.second = 60 then 1 else 0) + decimalFraction t.fraction := by
  have hsecond : (t.second : Int) = (min t.second 59 : Nat) + if t.second = 60 then 1 else 0 := by
    have hle := h.second
    split_ifs <;> omega
  have hwhole : (localDate t).number * 86400 + t.hour * 3600 + t.minute * 60 + t.second -
      t.offset * 60 = t.epochSeconds + if t.second = 60 then 1 else 0 := by
    rw [hsecond]
    unfold epochSeconds localDate Date.number
    ring
  have hcast : ((localDate t).number : Rat) * 86400 + t.hour * 3600 + t.minute * 60 + t.second -
      t.offset * 60 = t.epochSeconds + if t.second = 60 then 1 else 0 := by exact_mod_cast hwhole
  rw [← hcast]
  constructor
  · rintro ⟨day, hday, rfl⟩
    rw [(dayCount_iff.mp hday).2]
    ring
  · rintro rfl
    refine ⟨_, dayCount_iff.mpr ⟨localDate_exists h, rfl⟩, ?_⟩
    ring

/-- A day that has no second 60 is over before the next one starts. -/
lemma instant_lt_of_before (h : Spells t text) (h' : Spells t' text')
    (hoffset : t.offset = t'.offset) (hsecond : t.second ≤ 59)
    (hbefore : (localDate t).Before (localDate t')) (hq : IsInstant t q) (hq' : IsInstant t' q') :
    q < q' := by
  obtain ⟨day, hday, rfl⟩ := hq
  obtain ⟨day', hday', rfl⟩ := hq'
  obtain ⟨hexists, rfl⟩ := dayCount_iff.mp hday
  obtain ⟨hexists', rfl⟩ := dayCount_iff.mp hday'
  have hnumber : (localDate t).number + 1 ≤ (localDate t').number :=
    number_lt_of_before hexists hexists' hbefore
  have hday : (((localDate t).number : Rat) + 1) ≤ (localDate t').number := by
    exact_mod_cast hnumber
  have htime : t.hour * 3600 + t.minute * 60 + t.second + 1 ≤ 86400 := by
    have hhour := h.hour
    have hminute := h.minute
    omega
  have hcast : (t.hour : Rat) * 3600 + t.minute * 60 + t.second + 1 ≤ 86400 := by
    exact_mod_cast htime
  have hpast : (0 : Rat) ≤ t'.hour * 3600 + t'.minute * 60 + t'.second := by positivity
  obtain ⟨-, hfraction⟩ := decimalFraction_range (fraction_digits h)
  obtain ⟨hfraction', -⟩ := decimalFraction_range (fraction_digits h')
  rw [hoffset]
  linarith

lemma millis_exact (h : Spells t text) (hshort : t.fraction.length ≤ 3) :
    ∃ m : Int, t.millis.toRat = m ∧ m.natAbs < 2 ^ 53 ∧ ∀ q, IsInstant t q ↔ q * 1000 = m := by
  obtain ⟨n, hn, hfraction, hnanos⟩ := nanoseconds_short h hshort
  obtain ⟨ms, hms⟩ : ∃ ms, ms = n + if t.second = 60 then 1000 else 0 := ⟨_, rfl⟩
  have hless : ms < 2000 := by split_ifs at hms <;> omega
  -- Every operation gives a whole number below the limit, and so none of them rounds.
  have hsmall := epochSeconds_small h
  have hseconds : (Binary64.ofInt t.epochSeconds).toRat = t.epochSeconds :=
    Binary64.ofRat_whole (by omega)
  have hproduct : (Binary64.ofInt t.epochSeconds * .ofInt 1000).toRat =
      (t.epochSeconds * 1000 : Int) :=
    Binary64.mul_whole hseconds (Binary64.ofRat_whole (by decide)) (by omega)
  have hnanoseconds : (Binary64.ofInt t.nanoseconds).toRat = ((ms : Int) * 1000000 : Int) := by
    rw [hnanos, ← hms]
    exact Binary64.ofRat_whole (by omega)
  have hquotient : (Binary64.ofInt t.nanoseconds / .ofInt 1000000).toRat = (ms : Int) :=
    Binary64.div_whole hnanoseconds (Binary64.ofRat_whole (by decide)) (by decide)
      (by omega)
  refine ⟨t.epochSeconds * 1000 + ms, ?_, by omega, ?_⟩
  · exact Binary64.add_whole hproduct hquotient (by omega)
  · intro q
    have hwhole : ((t.epochSeconds + if t.second = 60 then 1 else 0) +
        decimalFraction t.fraction) * 1000 = ((t.epochSeconds * 1000 + ms : Int) : Rat) := by
      rw [hms]
      push_cast
      rw [hfraction]
      split_ifs <;> ring
    rw [isInstant_iff h, ← hwhole, mul_left_inj' (by norm_num)]

lemma measured_exact (hplace : Documented place) (h : Measured place s t x) :
    ∃ m : Int, x.toRat = m ∧ m.natAbs < 2 ^ 53 ∧ ∀ q, IsInstant t q ↔ q * 1000 = m := by
  have hparse : parse? s = some t := parse?_eq_some_iff.mpr h.spelled
  have hx : some t.millis = some x := by
    rw [← h.measure, millisBy_eq hplace, millisOf?, hparse, Option.map_some]
  rw [← Option.some.inj hx]
  exact millis_exact h.spelled h.short

lemma measures_ordered (hplace : Documented place) (h : Measured place s t x)
    (h' : Measured place s' t' x') (hq : IsInstant t q) (hq' : IsInstant t' q') :
    (x.toRat < x'.toRat ↔ q < q') ∧ (x.toRat = x'.toRat ↔ q = q') ∧
      (x'.toRat < x.toRat ↔ q' < q) := by
  obtain ⟨m, hm, -, hinstant⟩ := measured_exact hplace h
  obtain ⟨m', hm', -, hinstant'⟩ := measured_exact hplace h'
  rw [hm, hm', ← (hinstant q).mp hq, ← (hinstant' q').mp hq']
  refine ⟨mul_lt_mul_iff_left₀ (by norm_num), mul_left_inj' (by norm_num),
    mul_lt_mul_iff_left₀ (by norm_num)⟩

/-- With timestamps placed as documented, just the timestamps have a measure. Up to three digits of
a fraction it is exact, and in the order of the instants, whatever the offsets; of one offset, an
earlier date is an earlier instant. -/
theorem timestamps_measured {place : Placement} (hplace : Documented place) :
    (∀ s, millisBy place s = millisOf? s ∧ (millisBy place s).isSome = isTimestamp s) ∧
    (∀ s t, Spells t s.toList → t.fraction.length ≤ 3 → ∃ x, Measured place s t x ∧
      ∃ m : Int, x.toRat = m ∧ m.natAbs < 2 ^ 53 ∧ ∀ q, IsInstant t q ↔ q * 1000 = m) ∧
    ∀ s t x s' t' x', Measured place s t x → Measured place s' t' x' →
      (∀ q q', IsInstant t q → IsInstant t' q' → (x.toRat < x'.toRat ↔ q < q') ∧
        (x.toRat = x'.toRat ↔ q = q') ∧ (x'.toRat < x.toRat ↔ q' < q)) ∧
      (t.offset = t'.offset → t.second ≤ 59 → (localDate t).Before (localDate t') →
        x.toRat < x'.toRat) := by
  refine ⟨?_, ?_, ?_⟩
  · intro s
    have heq := millisBy_eq hplace s
    refine ⟨heq, ?_⟩
    rw [heq, millisOf?, Option.isSome_map, isTimestamp]
  · intro s t ht hshort
    have hmeasure : millisBy place s = some t.millis := by
      rw [millisBy_eq hplace, millisOf?, parse?_eq_some_iff.mpr ht, Option.map_some]
    have hmeasured : Measured place s t t.millis := ⟨ht, hshort, hmeasure⟩
    exact ⟨t.millis, hmeasured, measured_exact hplace hmeasured⟩
  · intro s t x s' t' x' h h'
    refine ⟨fun q q' hq hq' => measures_ordered hplace h h' hq hq', ?_⟩
    intro hoffset hsecond hbefore
    obtain ⟨m, -, -, hinstant⟩ := measured_exact hplace h
    obtain ⟨m', -, -, hinstant'⟩ := measured_exact hplace h'
    have hq : IsInstant t (m / 1000) := (hinstant _).mpr (by ring)
    have hq' : IsInstant t' (m' / 1000) := (hinstant' _).mpr (by ring)
    rw [(measures_ordered hplace h h' hq hq').1]
    exact instant_lt_of_before h.spelled h'.spelled hoffset hsecond hbefore hq hq'

/-- A leap second of the west coast is after the start of the year in Greenwich. -/
theorem leapSecond_measured : Documented placeFields ∧
    ∃ x x', millisBy placeFields "1990-12-31T15:59:60.5-08:00" = some x ∧
      millisBy placeFields "1991-01-01T00:00:00.25Z" = some x' ∧ x.toRat = 662688000500 ∧
      x'.toRat < x.toRat := by
  have hlocal : Spells ⟨1990, 12, 31, 15, 59, 60, [5], -480⟩
    "1990-12-31T15:59:60.5-08:00".toList := parse?_eq_some_iff.mp (by decide)
  have hutc : Spells ⟨1991, 1, 1, 0, 0, 0, [2, 5], 0⟩ "1991-01-01T00:00:00.25Z".toList :=
    parse?_eq_some_iff.mp (by decide)
  have hq : IsInstant ⟨1990, 12, 31, 15, 59, 60, [5], -480⟩ (662688000 + 1 / 2) :=
    ⟨7669, dayCount_iff.mpr ⟨localDate_exists hlocal, by decide⟩, by norm_num [decimalFraction]⟩
  have hq' : IsInstant ⟨1991, 1, 1, 0, 0, 0, [2, 5], 0⟩ (662688000 + 1 / 4) :=
    ⟨7670, dayCount_iff.mpr ⟨localDate_exists hutc, by decide⟩, by norm_num [decimalFraction]⟩
  obtain ⟨-, hexact, hordered⟩ := timestamps_measured placeFields_documented
  obtain ⟨x, hx, m, hm, -, hinstant⟩ := hexact _ _ hlocal (by decide)
  obtain ⟨x', hx', -⟩ := hexact _ _ hutc (by decide)
  have hlater : x'.toRat < x.toRat := by
    rw [((hordered _ _ x _ _ x' hx hx').1 _ _ hq hq').2.2]
    norm_num
  refine ⟨placeFields_documented, x, x', hx.measure, hx'.measure, ?_, hlater⟩
  rw [hm, ← (hinstant _).mp hq]
  norm_num

end Instants

end JsonTypeDefinition.Proofs
