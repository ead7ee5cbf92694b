import JsonTypeDefinition.Timestamp.Basic
import Mathlib.Data.List.Basic
import Mathlib.Tactic.IntervalCases
import Mathlib.Tactic.Lemma

/-!
# The texts of timestamps

`Spells` says how the fields of a timestamp are written. Reading a text gives the fields that it
spells, so that a text is a timestamp if and only if it spells one.
-/

namespace JsonTypeDefinition.Proofs
open Timestamp

/-- A number below `10 ^ places` in decimal, with all its places. -/
def padded : Nat → Nat → List Char
  | 0, _ => []
  | places + 1, n => Nat.digitChar (n / 10 ^ places) :: padded places (n % 10 ^ places)

/-- Every fourth year is a leap year, but of the last years of centuries only every fourth. -/
def IsLeap (year : Nat) : Prop :=
  4 ∣ year ∧ (100 ∣ year → 400 ∣ year)

inductive MonthHas (year : Nat) : Nat → Nat → Prop where
  | long {month : Nat} (h : month ∈ [1, 3, 5, 7, 8, 10, 12]) : MonthHas year month 31
  | short {month : Nat} (h : month ∈ [4, 6, 9, 11]) : MonthHas year month 30
  | february (h : ¬ IsLeap year) : MonthHas year 2 28
  | leapFebruary (h : IsLeap year) : MonthHas year 2 29

/-- How the digits of a fraction are written, with the point. -/
inductive SpellsFraction : List Nat → List Char → Prop where
  | none : SpellsFraction [] []
  | digits {digits : List Nat} (hsome : digits ≠ []) (hdigits : ∀ d ∈ digits, d < 10) :
      SpellsFraction digits ('.' :: digits.map Nat.digitChar)

inductive SpellsOffset : Int → List Char → Prop where
  | utc {c : Char} (hc : c ∈ ['Z', 'z']) : SpellsOffset 0 [c]
  | ahead {hours minutes : Nat} (hh : hours ≤ 23) (hm : minutes ≤ 59) :
      SpellsOffset (hours * 60 + minutes) ('+' :: padded 2 hours ++ ':' :: padded 2 minutes)
  | behind {hours minutes : Nat} (hh : hours ≤ 23) (hm : minutes ≤ 59) :
      SpellsOffset (-(hours * 60 + minutes)) ('-' :: padded 2 hours ++ ':' :: padded 2 minutes)

/-- A text is the date and the time of day of a timestamp, then its fraction and its offset. -/
structure Spells (t : Timestamp) (text : List Char) : Prop where
  year : t.year ≤ 9999
  month : 1 ≤ t.month ∧ t.month ≤ 12
  day : ∃ last, MonthHas t.year t.month last ∧ 1 ≤ t.day ∧ t.day ≤ last
  hour : t.hour ≤ 23
  minute : t.minute ≤ 59
  second : t.second ≤ 60
  written : ∃ separator fraction offset, separator ∈ ['T', 't'] ∧
    SpellsFraction t.fraction fraction ∧ SpellsOffset t.offset offset ∧
    text = padded 4 t.year ++ '-' :: padded 2 t.month ++ '-' :: padded 2 t.day ++
      separator :: padded 2 t.hour ++ ':' :: padded 2 t.minute ++ ':' :: padded 2 t.second ++
      fraction ++ offset

section Digits

variable {c : Char} {d : Nat}

lemma digitValue?_eq_some_iff : Text.digitValue? c = some d ↔ d < 10 ∧ c = Nat.digitChar d := by
  unfold Text.digitValue?
  constructor
  · intro h
    split_ifs at h with hc
    have hlow : 48 ≤ c.toNat := hc.1
    have hhigh : c.toNat ≤ 57 := hc.2
    have hd : c.toNat - 48 = d := Option.some.inj h
    have hlt : d < 10 := by omega
    have hnat : c.toNat = 48 + d := by omega
    refine ⟨hlt, ?_⟩
    rw [← Char.ofNat_toNat c, hnat]
    interval_cases d <;> rfl
  · rintro ⟨hd, rfl⟩
    interval_cases d <;> rfl

lemma digitValue?_digitChar (h : d < 10) : Text.digitValue? (Nat.digitChar d) = some d :=
  digitValue?_eq_some_iff.mpr ⟨h, rfl⟩

lemma digitChar_ascii (h : d < 10) : (Nat.digitChar d).toNat < 128 := by
  interval_cases d <;> decide

lemma padded_ascii (places : Nat) {n : Nat} (h : n < 10 ^ places) :
    ∀ c ∈ padded places n, c.toNat < 128 := by
  induction places generalizing n with
  | zero => simp [padded]
  | succ places ih =>
    have hpos : 0 < 10 ^ places := Nat.pow_pos (by decide)
    intro c hc
    rcases List.mem_cons.mp hc with rfl | hc
    · apply digitChar_ascii
      apply Nat.div_lt_of_lt_mul
      rwa [← Nat.pow_succ]
    · exact ih (Nat.mod_lt n hpos) c hc

lemma readDigits_go_eq_some_iff (places : Nat) : ∀ (value : Nat) (text : List Char) (n : Nat)
    (rest : List Char), readDigits.go value places text = some (n, rest) ↔
      ∃ m < 10 ^ places, n = value * 10 ^ places + m ∧ text = padded places m ++ rest := by
  induction places with
  | zero =>
    intro value text n rest
    simp only [readDigits.go, padded, Option.some.injEq, Prod.mk.injEq, Nat.pow_zero,
      Nat.lt_one_iff, List.nil_append, exists_eq_left]
    rw [Nat.mul_one, Nat.add_zero, eq_comm (a := value)]
  | succ places ih =>
    intro value text n rest
    have hpos : 0 < 10 ^ places := Nat.pow_pos (by decide)
    have hpow : 10 ^ (places + 1) = 10 * 10 ^ places := by rw [Nat.pow_succ, Nat.mul_comm]
    cases text with
    | nil => simp [readDigits.go, padded]
    | cons c text =>
      simp only [readDigits.go, Option.bind_eq_bind, Option.bind_eq_some_iff, ih,
        digitValue?_eq_some_iff, padded, List.cons_append, List.cons.injEq]
      constructor
      · rintro ⟨d, ⟨hd, rfl⟩, m, hm, rfl, rfl⟩
        have hdiv : (d * 10 ^ places + m) / 10 ^ places = d := by
          rw [Nat.mul_comm, Nat.mul_add_div hpos, Nat.div_eq_of_lt hm, Nat.add_zero]
        have hmod : (d * 10 ^ places + m) % 10 ^ places = m := by
          rw [Nat.mul_comm, Nat.mul_add_mod, Nat.mod_eq_of_lt hm]
        have hlt : (d + 1) * 10 ^ places ≤ 10 * 10 ^ places := Nat.mul_le_mul_right _ hd
        rw [Nat.add_mul, Nat.one_mul] at hlt
        refine ⟨d * 10 ^ places + m, by omega, ?_, by rw [hdiv], by rw [hmod]⟩
        rw [hpow, Nat.add_mul, Nat.mul_assoc, Nat.add_assoc]
      · rintro ⟨m, hm, rfl, rfl, rfl⟩
        have hd : m / 10 ^ places < 10 := by
          apply Nat.div_lt_of_lt_mul
          rwa [Nat.mul_comm, ← hpow]
        refine ⟨m / 10 ^ places, ⟨hd, rfl⟩, m % 10 ^ places, Nat.mod_lt m hpos, ?_, rfl⟩
        rw [hpow, Nat.add_mul, Nat.mul_assoc, Nat.add_assoc, Nat.div_add_mod']

lemma readDigits_eq_some_iff {places n : Nat} {text rest : List Char} :
    readDigits places text = some (n, rest) ↔
      n < 10 ^ places ∧ text = padded places n ++ rest := by
  rw [readDigits, readDigits_go_eq_some_iff]
  simp

lemma skip_eq_some_iff {allowed text rest : List Char} :
    skip allowed text = some rest ↔ ∃ c ∈ allowed, text = c :: rest := by
  cases text with
  | nil => simp [skip]
  | cons c text =>
    by_cases h : c ∈ allowed <;> simp [skip, h]

end Digits

section Fractions

variable {digits : List Nat} {text rest : List Char}

lemma splitDigits_written (hdigits : ∀ d ∈ digits, d < 10)
    (hrest : ∀ c ∈ rest.head?, Text.digitValue? c = none) :
    Text.splitDigits (digits.map Nat.digitChar ++ rest) = (digits.map Nat.digitChar, rest) := by
  have hall : ∀ c ∈ digits.map Nat.digitChar, (Text.digitValue? c).isSome := by
    intro c hc
    obtain ⟨d, hd, rfl⟩ := List.mem_map.mp hc
    rw [digitValue?_digitChar (hdigits d hd), Option.isSome_some]
  have hstop : rest.takeWhile (fun c => (Text.digitValue? c).isSome) = [] ∧
      rest.dropWhile (fun c => (Text.digitValue? c).isSome) = rest := by
    cases rest with
    | nil => simp
    | cons c rest =>
      have hc : Text.digitValue? c = none := hrest c rfl
      simp [hc]
  unfold Text.splitDigits
  rw [List.takeWhile_append_of_pos hall, List.dropWhile_append_of_pos hall, hstop.1, hstop.2,
    List.append_nil]

lemma digits_read_back (hdigits : ∀ d ∈ digits, d < 10) :
    (digits.map Nat.digitChar).filterMap Text.digitValue? = digits := by
  rw [List.filterMap_map]
  conv_rhs => rw [← List.filterMap_some (l := digits)]
  apply List.filterMap_congr
  intro d hd
  exact digitValue?_digitChar (hdigits d hd)

lemma offset_starts {offset : Int} {written : List Char} (h : SpellsOffset offset written) :
    ∃ c ∈ ['Z', 'z', '+', '-'], ∃ more, written = c :: more := by
  cases h with
  | utc hc => exact ⟨_, by simp at hc ⊢; tauto, [], rfl⟩
  | ahead => exact ⟨'+', by simp, _, rfl⟩
  | behind => exact ⟨'-', by simp, _, rfl⟩

lemma readFraction_written {fraction : List Char} (h : SpellsFraction digits fraction)
    (hrest : ∃ c ∈ ['Z', 'z', '+', '-'], ∃ more, rest = c :: more) :
    readFraction (fraction ++ rest) = some (digits, rest) := by
  obtain ⟨c, hc, more, rfl⟩ := hrest
  cases h with
  | none =>
    have hpoint : c ≠ '.' := by rintro rfl; simp at hc
    simp [readFraction, hpoint]
  | digits hsome hdigits =>
    have hend : Text.digitValue? c = none := by
      simp only [List.mem_cons, List.not_mem_nil, or_false] at hc
      rcases hc with rfl | rfl | rfl | rfl <;> rfl
    have hstop : ∀ d ∈ (c :: more).head?, Text.digitValue? d = none := by simpa using hend
    have hsplit := splitDigits_written hdigits hstop
    have hmap : digits.map Nat.digitChar ≠ [] := by simpa using hsome
    simp only [List.cons_append, readFraction, hsplit, digits_read_back hdigits]

lemma digits_written_back {text : List Char} (h : ∀ c ∈ text, (Text.digitValue? c).isSome) :
    (text.filterMap Text.digitValue?).map Nat.digitChar = text ∧
      ∀ d ∈ text.filterMap Text.digitValue?, d < 10 := by
  induction text with
  | nil => simp
  | cons c text ih =>
    obtain ⟨hc, htext⟩ := List.forall_mem_cons.mp h
    obtain ⟨d, hd⟩ := Option.isSome_iff_exists.mp hc
    obtain ⟨hlt, hchar⟩ := digitValue?_eq_some_iff.mp hd
    obtain ⟨hmap, hall⟩ := ih htext
    rw [List.filterMap_cons_some hd]
    constructor
    · rw [List.map_cons, hmap, hchar]
    · exact List.forall_mem_cons.mpr ⟨hlt, hall⟩

lemma readFraction_reads (h : readFraction text = some (digits, rest)) :
    ∃ fraction, SpellsFraction digits fraction ∧ text = fraction ++ rest := by
  unfold readFraction at h
  split at h
  · next text =>
    split at h
    · simp at h
    · next read more hread hsplit =>
      obtain ⟨rfl, rfl⟩ := Prod.mk.inj (Option.some.inj h)
      obtain ⟨htake, hdrop⟩ := Prod.mk.inj hsplit
      have hall : ∀ c ∈ read, (Text.digitValue? c).isSome := by
        intro c hc
        rw [← htake] at hc
        exact List.all_eq_true.mp List.all_takeWhile c hc
      obtain ⟨hback, hlt⟩ := digits_written_back hall
      have hsome : read.filterMap Text.digitValue? ≠ [] := by
        intro hnil
        rw [hnil, List.map_nil] at hback
        exact hread hback.symm
      refine ⟨'.' :: read, ?_, ?_⟩
      · have hwritten := SpellsFraction.digits hsome hlt
        rwa [hback] at hwritten
      · rw [← htake, ← hdrop, List.cons_append, List.takeWhile_append_dropWhile]
  · obtain ⟨rfl, rfl⟩ := Prod.mk.inj (Option.some.inj h)
    exact ⟨[], .none, rfl⟩

end Fractions

section Offsets

variable {offset : Int} {text rest : List Char}

lemma readOffset_signed {c : Char} (hc : c = '+' ∨ c = '-') :
    readOffset (c :: text) = some (offset, rest) ↔
      ∃ hours ≤ 23, ∃ minutes ≤ 59, text = padded 2 hours ++ ':' :: padded 2 minutes ++ rest ∧
        offset = if c = '-' then -((hours : Int) * 60 + minutes) else hours * 60 + minutes := by
  have hutc : ¬ (c = 'Z' ∨ c = 'z') := by rcases hc with rfl | rfl <;> decide
  simp only [readOffset, if_neg hutc, if_pos hc, Option.bind_eq_bind, Option.bind_eq_some_iff,
    Prod.exists, readDigits_eq_some_iff, skip_eq_some_iff, Option.ite_none_left_eq_some,
    Option.some.injEq, Prod.mk.injEq]
  constructor
  · rintro ⟨hours, _, ⟨_, rfl⟩, _, ⟨separator, hseparator, rfl⟩, minutes, _, ⟨_, rfl⟩, hrange,
      rfl, rfl⟩
    obtain rfl : separator = ':' := by simpa using hseparator
    refine ⟨hours, by omega, minutes, by omega, ?_, rfl⟩
    rw [List.append_assoc, List.cons_append]
  · rintro ⟨hours, hh, minutes, hm, rfl, rfl⟩
    refine ⟨hours, ':' :: padded 2 minutes ++ rest, ⟨by omega, ?_⟩, padded 2 minutes ++ rest,
      ⟨':', by simp, rfl⟩, minutes, rest, ⟨by omega, rfl⟩, by omega, rfl, rfl⟩
    rw [List.append_assoc]

lemma readOffset_eq_some_iff : readOffset text = some (offset, rest) ↔
    ∃ written, SpellsOffset offset written ∧ text = written ++ rest := by
  constructor
  · intro h
    cases text with
    | nil => simp [readOffset] at h
    | cons c text =>
      by_cases hutc : c = 'Z' ∨ c = 'z'
      · simp only [readOffset, if_pos hutc, Option.some.injEq, Prod.mk.injEq] at h
        obtain ⟨rfl, rfl⟩ := h
        exact ⟨[c], .utc (by simpa using hutc), rfl⟩
      · by_cases hsign : c = '+' ∨ c = '-'
        · obtain ⟨hours, hh, minutes, hm, rfl, rfl⟩ := (readOffset_signed hsign).mp h
          rcases hsign with rfl | rfl
          · exact ⟨_, .ahead hh hm, by simp⟩
          · exact ⟨_, .behind hh hm, by simp⟩
        · simp [readOffset, hutc, hsign] at h
  · rintro ⟨written, hwritten, rfl⟩
    cases hwritten with
    | utc hc =>
      have hutc := by simpa using hc
      simp [readOffset, hutc]
    | ahead hh hm => exact (readOffset_signed (.inl rfl)).mpr ⟨_, hh, _, hm, rfl, rfl⟩
    | behind hh hm => exact (readOffset_signed (.inr rfl)).mpr ⟨_, hh, _, hm, rfl, rfl⟩

/-- What comes before an offset does not run into it, so that both are read. -/
lemma readTail_eq_some_iff {digits : List Nat} :
    (∃ middle, readFraction text = some (digits, middle) ∧
        readOffset middle = some (offset, rest)) ↔
      ∃ fraction written, SpellsFraction digits fraction ∧ SpellsOffset offset written ∧
        text = fraction ++ (written ++ rest) := by
  constructor
  · rintro ⟨middle, hfraction, hoffset⟩
    obtain ⟨fraction, hspells, rfl⟩ := readFraction_reads hfraction
    obtain ⟨written, hwritten, rfl⟩ := readOffset_eq_some_iff.mp hoffset
    exact ⟨fraction, written, hspells, hwritten, rfl⟩
  · rintro ⟨fraction, written, hspells, hwritten, rfl⟩
    obtain ⟨c, hc, more, hmore⟩ := offset_starts hwritten
    refine ⟨written ++ rest, readFraction_written hspells ⟨c, hc, more ++ rest, ?_⟩, ?_⟩
    · rw [hmore, List.cons_append]
    · exact readOffset_eq_some_iff.mpr ⟨written, hwritten, rfl⟩

end Offsets

section Fields

variable {t : Timestamp}

lemma isLeapYear_iff (year : Nat) : Calendar.isLeapYear year = true ↔ IsLeap year := by
  simp only [Calendar.isLeapYear, IsLeap, Bool.and_eq_true, Bool.or_eq_true, beq_iff_eq, bne_iff_ne]
  omega

lemma monthLength_long (year : Nat) {month : Nat} (h : month ∈ [1, 3, 5, 7, 8, 10, 12]) :
    Calendar.monthLength year month = 31 := by
  simp only [List.mem_cons, List.not_mem_nil, or_false] at h
  rcases h with rfl | rfl | rfl | rfl | rfl | rfl | rfl <;> rfl

lemma monthLength_short (year : Nat) {month : Nat} (h : month ∈ [4, 6, 9, 11]) :
    Calendar.monthLength year month = 30 := by
  simp only [List.mem_cons, List.not_mem_nil, or_false] at h
  rcases h with rfl | rfl | rfl | rfl <;> rfl

lemma monthLength_february (year : Nat) [Decidable (IsLeap year)] :
    Calendar.monthLength year 2 = if IsLeap year then 29 else 28 := by
  simp only [Calendar.monthLength, isLeapYear_iff]

lemma monthHas_iff {year month last : Nat} (h : 1 ≤ month ∧ month ≤ 12) :
    MonthHas year month last ↔ last = Calendar.monthLength year month := by
  classical
  constructor
  · intro hlast
    cases hlast with
    | long hlong => rw [monthLength_long year hlong]
    | short hshort => rw [monthLength_short year hshort]
    | february hyear => rw [monthLength_february, if_neg hyear]
    | leapFebruary hyear => rw [monthLength_february, if_pos hyear]
  · rintro rfl
    by_cases hfebruary : month = 2
    · subst hfebruary
      by_cases hyear : IsLeap year
      · rw [monthLength_february, if_pos hyear]
        exact .leapFebruary hyear
      · rw [monthLength_february, if_neg hyear]
        exact .february hyear
    · by_cases hshort : month ∈ [4, 6, 9, 11]
      · rw [monthLength_short year hshort]
        exact .short hshort
      · have hlong : month ∈ [1, 3, 5, 7, 8, 10, 12] := by
          simp only [List.mem_cons, List.not_mem_nil, or_false] at hshort ⊢
          omega
        rw [monthLength_long year hlong]
        exact .long hlong

lemma inRange_iff : t.inRange = true ↔ (1 ≤ t.month ∧ t.month ≤ 12) ∧
    (∃ last, MonthHas t.year t.month last ∧ 1 ≤ t.day ∧ t.day ≤ last) ∧
    t.hour ≤ 23 ∧ t.minute ≤ 59 ∧ t.second ≤ 60 := by
  simp only [inRange, Bool.and_eq_true, decide_eq_true_eq]
  by_cases hmonth : 1 ≤ t.month ∧ t.month ≤ 12
  · simp only [monthHas_iff hmonth, exists_eq_left]
    tauto
  · tauto

lemma readField_eq_some_iff {α : Type} {places : Nat} {allowed text : List Char}
    {next : Nat × List Char → List Char → Option α} {a : α} :
    ((readDigits places text).bind fun field => (skip allowed field.2).bind (next field)) = some a ↔
      ∃ n < 10 ^ places, ∃ c ∈ allowed, ∃ rest, text = padded places n ++ c :: rest ∧
        next (n, c :: rest) rest = some a := by
  simp only [Option.bind_eq_some_iff, Prod.exists, readDigits_eq_some_iff, skip_eq_some_iff]
  constructor
  · rintro ⟨n, _, ⟨hn, rfl⟩, rest, ⟨c, hc, rfl⟩, hnext⟩
    exact ⟨n, hn, c, hc, rest, rfl, hnext⟩
  · rintro ⟨n, hn, c, hc, rest, rfl, hnext⟩
    exact ⟨n, _, ⟨hn, rfl⟩, rest, ⟨c, hc, rfl⟩, hnext⟩

lemma readFields_eq_some_iff {text rest : List Char} :
    readFields text = some (t, rest) ↔
      t.year < 10 ^ 4 ∧ t.month < 10 ^ 2 ∧ t.day < 10 ^ 2 ∧ t.hour < 10 ^ 2 ∧ t.minute < 10 ^ 2 ∧
      t.second < 10 ^ 2 ∧ ∃ separator fraction offset, separator ∈ ['T', 't'] ∧
        SpellsFraction t.fraction fraction ∧ SpellsOffset t.offset offset ∧
        text = padded 4 t.year ++ '-' :: (padded 2 t.month ++ '-' :: (padded 2 t.day ++ separator ::
          (padded 2 t.hour ++ ':' :: (padded 2 t.minute ++ ':' :: (padded 2 t.second ++
          (fraction ++ (offset ++ rest))))))) := by
  unfold readFields
  dsimp only [Option.bind_eq_bind, Option.pure_def]
  constructor
  · intro h
    obtain ⟨year, hyear, c, hc, _, rfl, hmonths⟩ := readField_eq_some_iff.mp h
    obtain ⟨month, hmonth, c', hc', _, rfl, hdays⟩ := readField_eq_some_iff.mp hmonths
    obtain ⟨day, hday, separator, hseparator, _, rfl, hhours⟩ := readField_eq_some_iff.mp hdays
    obtain ⟨hour, hhour, c₁, hc₁, _, rfl, hminutes⟩ := readField_eq_some_iff.mp hhours
    obtain ⟨minute, hminute, c₂, hc₂, _, rfl, hseconds⟩ := readField_eq_some_iff.mp hminutes
    obtain ⟨⟨second, _⟩, hread, htail⟩ := Option.bind_eq_some_iff.mp hseconds
    obtain ⟨hsecond, rfl⟩ := readDigits_eq_some_iff.mp hread
    obtain ⟨⟨digits, _⟩, hfraction, hend⟩ := Option.bind_eq_some_iff.mp htail
    obtain ⟨⟨minutes, _⟩, hoffset, hfields⟩ := Option.bind_eq_some_iff.mp hend
    obtain ⟨rfl, rfl⟩ := Prod.mk.inj (Option.some.inj hfields)
    obtain ⟨fraction, written, hspells, hwritten, rfl⟩ :=
      readTail_eq_some_iff.mp ⟨_, hfraction, hoffset⟩
    simp only [List.mem_singleton] at hc hc' hc₁ hc₂
    subst hc hc' hc₁ hc₂
    exact ⟨hyear, hmonth, hday, hhour, hminute, hsecond, separator, fraction, written, hseparator,
      hspells, hwritten, rfl⟩
  · rintro ⟨hyear, hmonth, hday, hhour, hminute, hsecond, separator, fraction, written, hseparator,
      hspells, hwritten, rfl⟩
    obtain ⟨middle, hfraction, hoffset⟩ :=
      readTail_eq_some_iff.mpr ⟨fraction, written, hspells, hwritten, rfl⟩
    refine readField_eq_some_iff.mpr ⟨t.year, hyear, '-', by simp, _, rfl, ?_⟩
    refine readField_eq_some_iff.mpr ⟨t.month, hmonth, '-', by simp, _, rfl, ?_⟩
    refine readField_eq_some_iff.mpr ⟨t.day, hday, separator, hseparator, _, rfl, ?_⟩
    refine readField_eq_some_iff.mpr ⟨t.hour, hhour, ':', by simp, _, rfl, ?_⟩
    refine readField_eq_some_iff.mpr ⟨t.minute, hminute, ':', by simp, _, rfl, ?_⟩
    rw [readDigits_eq_some_iff.mpr ⟨hsecond, rfl⟩, Option.bind_some, hfraction, Option.bind_some,
      hoffset, Option.bind_some]

lemma monthHas_le {year month last : Nat} (h : MonthHas year month last) : last ≤ 31 := by
  cases h <;> decide

lemma parse?_eq_some_iff_read {s : String} :
    parse? s = some t ↔ readFields s.toList = some (t, []) ∧ t.inRange = true := by
  unfold parse?
  split
  · next u hread =>
    rw [hread, Option.ite_none_right_eq_some, Option.some.injEq, Option.some.injEq, Prod.mk.injEq]
    grind
  · next hread =>
    simp only [reduceCtorEq, false_iff, not_and]
    exact fun h => absurd h (hread t)

theorem parse?_eq_some_iff {s : String} : parse? s = some t ↔ Spells t s.toList := by
  rw [parse?_eq_some_iff_read, readFields_eq_some_iff, inRange_iff]
  constructor
  · rintro ⟨⟨hyear, -, -, -, -, -, separator, fraction, offset, hseparator, hfraction, hoffset,
      htext⟩, hmonth, hday, hhour, hminute, hsecond⟩
    refine ⟨by omega, hmonth, hday, hhour, hminute, hsecond, separator, fraction, offset,
      hseparator, hfraction, hoffset, ?_⟩
    simpa only [List.append_assoc, List.cons_append, List.append_nil] using htext
  · intro h
    obtain ⟨last, hlast, hfirst, hday⟩ := h.day
    have hle : last ≤ 31 := monthHas_le hlast
    obtain ⟨hyear, hmonth, -, hhour, hminute, hsecond, separator, fraction, offset, hseparator,
      hfraction, hoffset, htext⟩ := h
    refine ⟨⟨by omega, by omega, by omega, by omega, by omega, by omega, separator, fraction,
      offset, hseparator, hfraction, hoffset, ?_⟩, hmonth, ⟨last, hlast, hfirst, hday⟩, hhour,
      hminute, hsecond⟩
    simpa only [List.append_assoc, List.cons_append, List.append_nil] using htext

lemma fraction_ascii {digits : List Nat} {text : List Char} (h : SpellsFraction digits text) :
    ∀ c ∈ text, c.toNat < 128 := by
  cases h with
  | none => simp
  | digits _ hdigits =>
    intro c hc
    rcases List.mem_cons.mp hc with rfl | hc
    · decide
    · obtain ⟨d, hd, rfl⟩ := List.mem_map.mp hc
      exact digitChar_ascii (hdigits d hd)

lemma offset_ascii {offset : Int} {text : List Char} (h : SpellsOffset offset text) :
    ∀ c ∈ text, c.toNat < 128 := by
  cases h with
  | utc hc =>
    simp only [List.mem_cons, List.not_mem_nil, or_false, forall_eq] at hc ⊢
    rcases hc with rfl | rfl <;> decide
  | ahead hh hm | behind hh hm =>
    rw [List.cons_append, List.forall_mem_cons, List.forall_mem_append, List.forall_mem_cons]
    exact ⟨by decide, padded_ascii 2 (by omega), by decide, padded_ascii 2 (by omega)⟩

lemma spells_ascii {text : List Char} (h : Spells t text) : ∀ c ∈ text, c.toNat < 128 := by
  obtain ⟨hyear, hmonth, ⟨last, hlast, -, hday⟩, hhour, hminute, hsecond, separator, fraction,
    offset, hseparator, hfraction, hoffset, rfl⟩ := h
  have hle : last ≤ 31 := monthHas_le hlast
  have hletter : separator.toNat < 128 := by
    simp only [List.mem_cons, List.not_mem_nil, or_false] at hseparator
    rcases hseparator with rfl | rfl <;> decide
  have hyear' : ∀ c ∈ padded 4 t.year, c.toNat < 128 := padded_ascii 4 (by omega)
  have htwo : ∀ n < 100, ∀ c ∈ padded 2 n, c.toNat < 128 := fun n hn => padded_ascii 2 hn
  have hdash : '-'.toNat < 128 := by decide
  have hcolon : ':'.toNat < 128 := by decide
  simp only [List.forall_mem_append, List.forall_mem_cons, and_assoc]
  exact ⟨hyear', hdash, htwo _ (by omega), hdash, htwo _ (by omega), hletter, htwo _ (by omega),
    hcolon, htwo _ (by omega), hcolon, htwo _ (by omega), fraction_ascii hfraction,
    offset_ascii hoffset⟩

/-- A text is a timestamp if and only if it spells one, and has then no characters but those of
ASCII. -/
theorem timestamps_spelled (s : String) :
    (isTimestamp s = true ↔ ∃ t, Spells t s.toList) ∧
      ∀ c ∈ s.toList, 128 ≤ c.toNat → isTimestamp s = false := by
  have hspelled : isTimestamp s = true ↔ ∃ t, Spells t s.toList := by
    simp only [isTimestamp, Option.isSome_iff_exists, parse?_eq_some_iff]
  refine ⟨hspelled, ?_⟩
  intro c hc hwide
  apply Bool.eq_false_iff.mpr
  intro htimestamp
  obtain ⟨t, ht⟩ := hspelled.mp htimestamp
  have hascii : c.toNat < 128 := spells_ascii ht c hc
  omega

example : isTimestamp "2000-02-29t23:59:60.5-08:00" = true := by decide

example : isTimestamp "1900-02-29T00:00:00Z" = false := by decide

end Fields

end JsonTypeDefinition.Proofs
