import JsonTypeDefinition.Proofs.LegalChecks
import Mathlib.Algebra.Order.Field.Rat

/-!
# What reading bounds reports

Each side of a pair of bounds is read by itself, whatever is wrong with the other one. What the two
sides come to together is asked only where both have a bound.
-/

namespace JsonTypeDefinition.Proofs
open Checks

/-- The number that an admitted value of a bound gives: the one put in its place, or its own. -/
inductive Gives (admission : Admission) (side : Side) : Json → Binary64 → Prop where
  | replaced {value : Json} {limit : Binary64} (h : admission side value = .ok (some limit)) :
      Gives admission side value limit
  | kept {n : Number} (h : admission side (.number n) = .ok none) :
      Gives admission side (.number n) n.toBinary64

/-- What comes of the value of a bound: what is reported, and the limit if there is nothing. -/
inductive ValueRead (rule : BoundRule) (admission : Admission) (side : Side) (value : Json) :
    List SchemaFault → Option Binary64 → Prop where
  | rejected {faults : List SchemaFault} (h : admission side value = .error faults) :
      ValueRead rule admission side value faults none
  | notNumber (h : admission side value = .ok none) (hkind : value.kind ≠ .number) :
      ValueRead rule admission side value [.boundNotNumber rule.measure side value.kind] none
  | notCount {limit : Binary64} (hlimit : Gives admission side value limit)
      (hcounts : rule.counts = true) (h : ¬ ∃ n : ℕ, limit.toRat = n) :
      ValueRead rule admission side value [.boundNotCount rule.measure side] none
  | resolved {limit : Binary64} (hlimit : Gives admission side value limit)
      (h : rule.counts = true → ∃ n : ℕ, limit.toRat = n) :
      ValueRead rule admission side value [] (some limit)

/-- What comes of a side: what is reported, and the bound if it resolves. -/
inductive SideRead (rule : BoundRule) (admission : Admission) (side : Side) (find : Lookup) :
    List SchemaFault → Option Bound → Prop where
  | absent (hinclusive : find (rule.keys side).inclusive = none)
      (hexclusive : (rule.keys side).exclusive.bind find = none) :
      SideRead rule admission side find [] none
  | inclusive {value : Json} {faults : List SchemaFault} {limit : Option Binary64}
      (hinclusive : find (rule.keys side).inclusive = some value)
      (hexclusive : (rule.keys side).exclusive.bind find = none)
      (h : ValueRead rule admission side value faults limit) :
      SideRead rule admission side find faults (limit.map fun limit => ⟨limit, false⟩)
  | exclusive {value : Json} {faults : List SchemaFault} {limit : Option Binary64}
      (hinclusive : find (rule.keys side).inclusive = none)
      (hexclusive : (rule.keys side).exclusive.bind find = some value)
      (h : ValueRead rule admission side value faults limit) :
      SideRead rule admission side find faults (limit.map fun limit => ⟨limit, true⟩)
  | both {other value : Json} {faults : List SchemaFault} {limit : Option Binary64}
      (hinclusive : find (rule.keys side).inclusive = some other)
      (hexclusive : (rule.keys side).exclusive.bind find = some value)
      (h : ValueRead rule admission side value faults limit) :
      SideRead rule admission side find (.boundGivenTwice rule.measure side :: faults)
        (limit.map fun limit => ⟨limit, true⟩)

/-- What is reported of the bounds of both sides together. -/
inductive CrossRead (measure : Measure) : Option Bound → Option Bound → List SchemaFault → Prop where
  | unresolved {min max : Option Bound} (h : min = none ∨ max = none) :
      CrossRead measure min max []
  | crossed {min max : Bound} (h : max.limit.toRat < min.limit.toRat) :
      CrossRead measure (some min) (some max) [.boundsCross measure]
  | excludeAll {min max : Bound} (h : min.limit.toRat = max.limit.toRat)
      (hexclusive : min.exclusive = true ∨ max.exclusive = true) :
      CrossRead measure (some min) (some max) [.boundsExcludeAll measure]
  | compatible {min max : Bound} (h : LeaveRoom min max) :
      CrossRead measure (some min) (some max) []

/-- Reading both sides goes from one state of a checks object to another. -/
structure BoundsRead (rule : BoundRule) (admission : Admission) (before after : Progress) :
    Prop where
  reported : ∃ low min high max cross,
    SideRead rule admission .min (Members.get? before.remaining) low min ∧
      SideRead rule admission .max (Members.get? before.remaining) high max ∧
      CrossRead rule.measure min max cross ∧
      after.faults = before.faults ++ (low ++ high ++ cross) ∧
      after.supplements = before.supplements ++ (min.toList.map (boundSupplement rule .min) ++
        max.toList.map (boundSupplement rule .max))
  taken : after.remaining = before.remaining.filter fun member => member.1 ∉ ruleKeys rule

section Sides

variable {rule : BoundRule} {admission : Admission} {side : Side} {value : Json}

lemma isCount_iff_nat {limit : Binary64} : isCount limit = true ↔ ∃ n : ℕ, limit.toRat = n := by
  rw [isCount, Bool.and_eq_true, decide_eq_true_iff, isWhole, beq_iff_eq]
  constructor
  · rintro ⟨hnonneg, hwhole⟩
    obtain ⟨n, hn⟩ := Int.eq_ofNat_of_zero_le (Rat.num_nonneg.mpr hnonneg)
    refine ⟨n, ?_⟩
    rw [← Rat.coe_int_num_of_den_eq_one hwhole, hn, Int.cast_natCast]
  · rintro ⟨n, hn⟩
    rw [hn]
    exact ⟨Nat.cast_nonneg n, Rat.den_natCast n⟩

lemma valueRead_given {limit : Binary64} (hlimit : Gives admission side value limit)
    (h : limitOf rule admission side value =
      if rule.counts && !isCount limit then .error [.boundNotCount rule.measure side]
      else .ok limit) :
    ValueRead rule admission side value (limitFaults rule admission side value)
      (limitOf rule admission side value).toOption := by
  by_cases hcount : rule.counts = true ∧ ¬ ∃ n : ℕ, limit.toRat = n
  · obtain ⟨hcounts, hnot⟩ := hcount
    have hfails : (rule.counts && !isCount limit) = true := by
      rw [hcounts, Bool.true_and, Bool.not_eq_true', ← Bool.not_eq_true, isCount_iff_nat]
      exact hnot
    rw [limitFaults, h, if_pos hfails]
    exact .notCount hlimit hcounts hnot
  · have hpasses : ¬ (rule.counts && !isCount limit) = true := by
      rw [Bool.and_eq_true, Bool.not_eq_true', ← Bool.not_eq_true, isCount_iff_nat]
      exact hcount
    rw [limitFaults, h, if_neg hpasses]
    exact .resolved hlimit fun hcounts => by_contra fun hnot => hcount ⟨hcounts, hnot⟩

lemma value_read (rule : BoundRule) (admission : Admission) (side : Side) (value : Json) :
    ValueRead rule admission side value (limitFaults rule admission side value)
      (limitOf rule admission side value).toOption := by
  cases hadmission : admission side value with
  | error faults =>
    have hlimit : limitOf rule admission side value = .error faults := by
      rw [limitOf, hadmission]
      rfl
    rw [limitFaults, hlimit]
    exact .rejected hadmission
  | ok admitted =>
    cases admitted with
    | some limit =>
      refine valueRead_given (.replaced hadmission) ?_
      rw [limitOf, hadmission]
      rfl
    | none =>
      cases value with
      | number n =>
        refine valueRead_given (.kept hadmission) ?_
        rw [limitOf, hadmission]
        rfl
      | _ =>
        rw [limitFaults, limitOf, hadmission]
        exact .notNumber hadmission (by rintro ⟨⟩)

lemma side_read (rule : BoundRule) (admission : Admission) (side : Side) (find : Lookup) :
    SideRead rule admission side find (sideFaults rule admission side find)
      (soundBound rule admission side find) := by
  unfold sideFaults twiceFaults soundBound boundIn
  cases hinclusive : find (rule.keys side).inclusive with
  | none =>
    cases hexclusive : (rule.keys side).exclusive.bind find with
    | none => exact .absent hinclusive hexclusive
    | some value => exact .exclusive hinclusive hexclusive (value_read rule admission side value)
  | some other =>
    cases hexclusive : (rule.keys side).exclusive.bind find with
    | none => exact .inclusive hinclusive hexclusive (value_read rule admission side other)
    | some value => exact .both hinclusive hexclusive (value_read rule admission side value)

lemma cross_read (measure : Measure) (min max : Option Bound) :
    CrossRead measure min max (bothFaults measure min max) := by
  cases min with
  | none => exact .unresolved (.inl rfl)
  | some min =>
  cases max with
  | none => exact .unresolved (.inr rfl)
  | some max =>
  rw [bothFaults, crossFaults]
  split_ifs with hcrossed hexcludes
  · exact .crossed hcrossed
  · simp only [Bool.and_eq_true, Bool.or_eq_true, beq_iff_eq] at hexcludes
    exact .excludeAll hexcludes.2 hexcludes.1
  · simp only [Bool.and_eq_true, Bool.or_eq_true, beq_iff_eq, not_and] at hexcludes
    have hle : min.limit.toRat ≤ max.limit.toRat := not_lt.mp hcrossed
    exact .compatible ⟨hle, fun hexclusive => lt_of_le_of_ne hle (hexcludes hexclusive)⟩

end Sides

/-- Every problem of a pair of bounds is reported, and no other key is taken. -/
theorem bounds_read {rule : BoundRule} (h : (ruleKeys rule).Nodup) (admission : Admission)
    (progress : Progress) :
    BoundsRead rule admission progress ((readBounds rule admission).run progress).2 := by
  rw [(takes_readBounds rule admission h).run progress]
  refine ⟨⟨_, _, _, _, _, side_read rule admission .min _, side_read rule admission .max _,
    cross_read rule.measure _ _, rfl, rfl⟩, ?_⟩
  refine List.filter_congr fun member _ => ?_
  rw [List.contains_eq_mem, decide_not]

/-- A checks object with something wrong on both sides, and a key that no bound has. -/
def crowdedChecks : Progress where
  remaining := [("maximum", .string "9"), ("minimum", .number (.int 3)), ("multipleOf", .null),
    ("exclusiveMinimum", .number (.int 200))]

theorem crowdedChecks_read :
    (ruleKeys (valueRule .int8)).Nodup ∧
      BoundsRead (valueRule .int8) (valueAdmission .int8) crowdedChecks
        { remaining := [("multipleOf", .null)]
          faults := [.boundGivenTwice .value .min, .integerBoundOutOfRange .min .int8,
            .boundNotNumber .value .max .string] } := by
  have hkeys : (ruleKeys (valueRule .int8)).Nodup := by decide
  exact ⟨hkeys, bounds_read hkeys (valueAdmission .int8) crowdedChecks⟩

end JsonTypeDefinition.Proofs
