import JsonTypeDefinition.Proofs.TimestampTexts
import Mathlib.Order.Nat

/-!
# Dates and their days

`DayCount` counts days along the calendar, from one date to the next. The day number of a date is
its count, and numbers are in the order of the dates.
-/

namespace JsonTypeDefinition.Proofs

structure Date where
  year : Nat
  month : Nat
  day : Nat

namespace Date

structure Exists (date : Date) : Prop where
  month : 1 ≤ date.month ∧ date.month ≤ 12
  day : ∃ last, MonthHas date.year date.month last ∧ 1 ≤ date.day ∧ date.day ≤ last

/-- The number of days since 1 January 1970. -/
def number (date : Date) : Int :=
  Calendar.epochDay date.year date.month date.day

inductive Before : Date → Date → Prop where
  | year {d e : Date} (h : d.year < e.year) : Before d e
  | month {d e : Date} (hyear : d.year = e.year) (h : d.month < e.month) : Before d e
  | day {d e : Date} (hyear : d.year = e.year) (hmonth : d.month = e.month) (h : d.day < e.day) :
      Before d e

end Date

inductive NextDay : Date → Date → Prop where
  | sameMonth {year month day last : Nat} (hlast : MonthHas year month last) (hfirst : 1 ≤ day)
      (h : day < last) : NextDay ⟨year, month, day⟩ ⟨year, month, day + 1⟩
  | newMonth {year month last : Nat} (hlast : MonthHas year month last) (h : month < 12) :
      NextDay ⟨year, month, last⟩ ⟨year, month + 1, 1⟩
  | newYear {year : Nat} : NextDay ⟨year, 12, 31⟩ ⟨year + 1, 1, 1⟩

/-- How many days after 1 January 1970 a date is. -/
inductive DayCount : Date → Int → Prop where
  | epoch : DayCount ⟨1970, 1, 1⟩ 0
  | after {d e : Date} {n : Int} (h : DayCount d n) (hnext : NextDay d e) : DayCount e (n + 1)
  | before {d e : Date} {n : Int} (h : DayCount e n) (hnext : NextDay d e) : DayCount d (n - 1)

section Numbers

variable {year month day last : Nat} {d e : Date}

lemma quotient_succ (n k : Nat) :
    (n + 1 + k) / (k + 1) = (n + k) / (k + 1) + if k + 1 ∣ n then 1 else 0 := by
  rw [Nat.add_right_comm, Nat.succ_div]
  simp only [Nat.add_assoc n k 1, Nat.dvd_add_self_right]

lemma daysBeforeYear_succ (year : Nat) : Calendar.daysBeforeYear (year + 1) =
    Calendar.daysBeforeYear year + Calendar.daysBeforeMonth year 13 := by
  have hmonths : Calendar.daysBeforeMonth year 13 =
      0 + 31 + Calendar.monthLength year 2 + 31 + 30 + 31 + 30 + 31 + 31 + 30 + 31 + 30 + 31 := rfl
  have hfebruary : Calendar.monthLength year 2 = if Calendar.isLeapYear year then 29 else 28 := rfl
  have hleap : Calendar.isLeapYear year = true ↔ IsLeap year := isLeapYear_iff year
  have hfours : (year + 1 + 3) / 4 = (year + 3) / 4 + if 4 ∣ year then 1 else 0 :=
    quotient_succ year 3
  have hcenturies : (year + 1 + 99) / 100 = (year + 99) / 100 + if 100 ∣ year then 1 else 0 :=
    quotient_succ year 99
  have hcycles : (year + 1 + 399) / 400 = (year + 399) / 400 + if 400 ∣ year then 1 else 0 :=
    quotient_succ year 399
  have hfewer : (year + 99) / 100 ≤ year + (year + 3) / 4 := by omega
  unfold Calendar.daysBeforeYear
  rw [hmonths, hfebruary, hfours, hcenturies, hcycles]
  simp only [hleap, IsLeap]
  generalize (year + 3) / 4 = fours at hfewer ⊢
  generalize (year + 99) / 100 = centuries at hfewer ⊢
  generalize (year + 399) / 400 = cycles
  split_ifs <;> omega

lemma monthHas_range (h : MonthHas year month last) : 1 ≤ month ∧ month ≤ 12 := by
  cases h <;> simp_all <;> omega

lemma monthHas_pos (h : MonthHas year month last) : 1 ≤ last := by
  cases h <;> decide

lemma daysBeforeMonth_succ (h : MonthHas year month last) :
    Calendar.daysBeforeMonth year (month + 1) = Calendar.daysBeforeMonth year month + last := by
  have hrange := monthHas_range h
  rw [(monthHas_iff hrange).mp h]
  obtain ⟨k, rfl⟩ : ∃ k, month = k + 1 := ⟨month - 1, by omega⟩
  rfl

lemma number_next (h : NextDay d e) : e.number = d.number + 1 := by
  unfold Date.number Calendar.epochDay
  cases h with
  | sameMonth _ hfirst => dsimp only; omega
  | @newMonth year month last hlast =>
    have hstep := daysBeforeMonth_succ hlast
    have hpos : 1 ≤ last := monthHas_pos hlast
    dsimp only
    omega
  | @newYear year =>
    have hyear := daysBeforeYear_succ year
    have hdecember : Calendar.daysBeforeMonth year 13 = Calendar.daysBeforeMonth year 12 + 31 := rfl
    have hjanuary : Calendar.daysBeforeMonth (year + 1) 1 = 0 := rfl
    dsimp only
    omega

lemma exists_newYear (year : Nat) : Date.Exists ⟨year, 1, 1⟩ :=
  ⟨by simp, 31, .long (by simp), by simp⟩

lemma exists_next (h : NextDay d e) : d.Exists ∧ e.Exists := by
  cases h with
  | sameMonth hlast hfirst h =>
    have hrange := monthHas_range hlast
    exact ⟨⟨hrange, _, hlast, hfirst, le_of_lt h⟩, ⟨hrange, _, hlast, Nat.le_add_left 1 _, h⟩⟩
  | @newMonth year month last hlast h =>
    have hrange := monthHas_range hlast
    have hrange' : 1 ≤ month + 1 ∧ month + 1 ≤ 12 := by omega
    have hnext : MonthHas year (month + 1) (Calendar.monthLength year (month + 1)) :=
      (monthHas_iff hrange').mpr rfl
    exact ⟨⟨hrange, _, hlast, monthHas_pos hlast, le_refl last⟩,
      ⟨hrange', _, hnext, le_refl 1, monthHas_pos hnext⟩⟩
  | newYear =>
    exact ⟨⟨by simp, 31, .long (by simp), by simp⟩, exists_newYear _⟩

end Numbers

section Counts

variable {d e : Date} {n : Int}

lemma number_of_count (h : DayCount d n) : d.Exists ∧ d.number = n := by
  induction h with
  | epoch => exact ⟨exists_newYear 1970, rfl⟩
  | after _ hnext ih => exact ⟨(exists_next hnext).2, by rw [number_next hnext, ih.2]⟩
  | before _ hnext ih =>
    have hstep := number_next hnext
    exact ⟨(exists_next hnext).1, by omega⟩

def Counted (date : Date) : Prop :=
  DayCount date date.number

lemma counted_next (h : NextDay d e) : Counted d ↔ Counted e := by
  unfold Counted
  rw [number_next h]
  constructor
  · intro hd
    exact .after hd h
  · intro he
    have hd := DayCount.before he h
    rwa [Int.add_sub_cancel] at hd

variable {year month day last : Nat}

lemma counted_day (hlast : MonthHas year month last) (hfirst : 1 ≤ day) (h : day ≤ last) :
    Counted ⟨year, month, day⟩ ↔ Counted ⟨year, month, 1⟩ := by
  induction day, hfirst using Nat.le_induction with
  | base => rfl
  | succ day hfirst ih => rw [← ih (by omega), counted_next (.sameMonth hlast hfirst h)]

lemma counted_month (hfirst : 1 ≤ month) (h : month ≤ 12) :
    Counted ⟨year, month, 1⟩ ↔ Counted ⟨year, 1, 1⟩ := by
  induction month, hfirst using Nat.le_induction with
  | base => rfl
  | succ month hfirst ih =>
    have hlast : MonthHas year month (Calendar.monthLength year month) :=
      (monthHas_iff ⟨hfirst, by omega⟩).mpr rfl
    calc Counted ⟨year, month + 1, 1⟩
      _ ↔ Counted ⟨year, month, _⟩ := (counted_next (.newMonth hlast h)).symm
      _ ↔ Counted ⟨year, month, 1⟩ := counted_day hlast (monthHas_pos hlast) (le_refl _)
      _ ↔ Counted ⟨year, 1, 1⟩ := ih (by omega)

lemma counted_year (year : Nat) : Counted ⟨year, 1, 1⟩ ↔ Counted ⟨0, 1, 1⟩ := by
  induction year with
  | zero => rfl
  | succ year ih =>
    have hlast : MonthHas year 12 31 := .long (by simp)
    calc Counted ⟨year + 1, 1, 1⟩
      _ ↔ Counted ⟨year, 12, 31⟩ := (counted_next .newYear).symm
      _ ↔ Counted ⟨year, 12, 1⟩ := counted_day hlast (by decide) (le_refl 31)
      _ ↔ Counted ⟨year, 1, 1⟩ := counted_month (by decide) (le_refl 12)
      _ ↔ Counted ⟨0, 1, 1⟩ := ih

lemma counted_of_exists (h : d.Exists) : Counted d := by
  obtain ⟨⟨hfirst, htwelve⟩, last, hlast, hday⟩ := h
  -- From the epoch back to year 0, and from there to the year of the date.
  have hepoch : Counted ⟨1970, 1, 1⟩ := .epoch
  rw [counted_year] at hepoch
  have hyear : Counted ⟨d.year, 1, 1⟩ := (counted_year d.year).mpr hepoch
  have hmonth : Counted ⟨d.year, d.month, 1⟩ := (counted_month hfirst htwelve).mpr hyear
  exact (counted_day hlast hday.1 hday.2).mpr hmonth

/-- Every date of the calendar has one count, and it is the number of the date. -/
theorem dayCount_iff : DayCount d n ↔ d.Exists ∧ d.number = n := by
  constructor
  · exact number_of_count
  · rintro ⟨hexists, rfl⟩
    exact counted_of_exists hexists

end Counts

section Order

variable {year year' month month' day last : Nat} {d e : Date}

lemma daysBeforeYear_le (h : year ≤ year') :
    Calendar.daysBeforeYear year ≤ Calendar.daysBeforeYear year' := by
  induction year', h using Nat.le_induction with
  | base => exact le_refl _
  | succ year' h ih =>
    have hstep := daysBeforeYear_succ year'
    omega

lemma daysBeforeMonth_le (h : month ≤ month') :
    Calendar.daysBeforeMonth year month ≤ Calendar.daysBeforeMonth year month' := by
  induction month', h using Nat.le_induction with
  | base => exact le_refl _
  | succ month' h ih =>
    refine le_trans ih ?_
    cases month' with
    | zero => exact le_refl _
    | succ month' => exact Nat.le_add_right _ _

/-- The days of a date before the end of its month, and so of its year. -/
lemma number_lt_of_before (hd : d.Exists) (he : e.Exists) (h : d.Before e) :
    d.number < e.number := by
  obtain ⟨⟨_, hmonth⟩, last, hlast, hday⟩ := hd
  obtain ⟨_, _, _, hday', _⟩ := he
  have hend := daysBeforeMonth_succ hlast
  unfold Date.number Calendar.epochDay
  cases h with
  | year h =>
    have hyear := daysBeforeYear_succ d.year
    have hmonths : Calendar.daysBeforeMonth d.year (d.month + 1) ≤ _ :=
      daysBeforeMonth_le (by omega : d.month + 1 ≤ 13)
    have hyears : Calendar.daysBeforeYear (d.year + 1) ≤ Calendar.daysBeforeYear e.year :=
      daysBeforeYear_le h
    omega
  | month hyear h =>
    have hmonths : Calendar.daysBeforeMonth d.year (d.month + 1) ≤
        Calendar.daysBeforeMonth d.year e.month := daysBeforeMonth_le h
    rw [← hyear]
    omega
  | day hyear hmonth h =>
    rw [← hyear, ← hmonth]
    omega

end Order

end JsonTypeDefinition.Proofs
