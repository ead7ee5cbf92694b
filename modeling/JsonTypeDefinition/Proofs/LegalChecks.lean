import JsonTypeDefinition.Proofs.ChecksReading
import Mathlib.Algebra.Order.Ring.Unbundled.Rat

/-!
# Legal checks

`LegalChecks` says which checks a schema object of a form may have. Reading checks has no fault
just if they are legal: a key that is not admitted is left over or refused, a bound that is not
admitted is refused, and the two sides of a bound are compared with each other.
-/

namespace JsonTypeDefinition.Proofs
open Checks

/-- The number that the value of a bound stands for: a timestamp for its milliseconds. -/
def limit? : Json → Option Binary64
  | .number n => some n.toBinary64
  | .string s => Timestamp.millisOf? s
  | _ => none

/-- The keys of a side set a bound. -/
inductive Sets (keys : BoundKeys) (find : Lookup) : Bound → Prop where
  | inclusive {value : Json} {limit : Binary64} (hvalue : find keys.inclusive = some value)
      (hlimit : limit? value = some limit) : Sets keys find ⟨limit, false⟩
  | exclusive {key : String} {value : Json} {limit : Binary64} (hkey : keys.exclusive = some key)
      (hvalue : find key = some value) (hlimit : limit? value = some limit) :
      Sets keys find ⟨limit, true⟩

/-- A side has not both of its keys, and what it has is legal. -/
structure SideLegal (keys : BoundKeys) (legal : Json → Prop) (find : Lookup) : Prop where
  values : ∀ key ∈ sideKeys keys, ∀ value, find key = some value → legal value
  once : ∀ key, keys.exclusive = some key → (find key).isSome → find keys.inclusive = none

/-- The minimum is not greater than the maximum. -/
def Ordered (low high : Bound) : Prop :=
  low.limit.toRat ≤ high.limit.toRat

/-- The minimum is not greater than the maximum, and less where one of them is exclusive. -/
def LeaveRoom (low high : Bound) : Prop :=
  Ordered low high ∧ (low.exclusive ∨ high.exclusive → low.limit.toRat < high.limit.toRat)

/-- The bounds on both sides are legal, and two of them fit together. -/
structure BoundsLegal (fits : Bound → Bound → Prop) (lower upper : BoundKeys)
    (legal : Json → Prop) (find : Lookup) : Prop where
  min : SideLegal lower legal find
  max : SideLegal upper legal find
  ordered : ∀ low high, Sets lower find low → Sets upper find high → fits low high

def IsCount (value : Json) : Prop :=
  ∃ n, value = .number n ∧ isWhole n.value ∧ 0 ≤ n.value

/-- A bound for the values of a type: for floats a number, for integers one of the type, for
timestamps a timestamp. -/
inductive IsLimit (type : Primitive) : Json → Prop where
  | float {n : Number} (htype : type = .float32 ∨ type = .float64) : IsLimit type (.number n)
  | integer {n : Number} {low high : Int} (htype : type.range? = some (low, high))
      (hwhole : isWhole n.value) (hlow : low ≤ n.value) (hhigh : n.value ≤ high) :
      IsLimit type (.number n)
  | timestamp {s : String} (htype : type = .timestamp) (hvalue : Timestamp.isTimestamp s) :
      IsLimit type (.string s)

def IsPattern (engine : PatternEngine) (value : Json) : Prop :=
  ∃ text pattern, value = .string text ∧ engine.compile text = .ok pattern

def IsDivisor (value : Json) : Prop :=
  ∃ n, value = .number n ∧ isWhole n.value

def OnlyKeys (checks : Members) (keys : List String) : Prop :=
  ∀ key ∈ Members.keys checks, key ∈ keys

/-- The checks are legal for a schema object of a form, where two bounds have to fit together. -/
inductive LegalChecks (engine : PatternEngine) (fits : Bound → Bound → Prop)
    (members checks : Members) : Form → Prop where
  | none {form : Form} (hform : form ∈ [.empty, .enum, .discriminator, .ref])
      (hkeys : OnlyKeys checks []) : LegalChecks engine fits members checks form
  | elements (hkeys : OnlyKeys checks ["minElements", "maxElements", "uniqueElements"])
      (hbounds : BoundsLegal fits ⟨"minElements", none⟩ ⟨"maxElements", none⟩ IsCount checks.get?) :
      LegalChecks engine fits members checks .elements
  | properties (hkeys : OnlyKeys checks ["minProperties", "maxProperties"])
      (hbounds : BoundsLegal fits ⟨"minProperties", none⟩ ⟨"maxProperties", none⟩ IsCount
        checks.get?) :
      LegalChecks engine fits members checks .properties
  | values (hkeys : OnlyKeys checks ["minValues", "maxValues"])
      (hbounds : BoundsLegal fits ⟨"minValues", none⟩ ⟨"maxValues", none⟩ IsCount checks.get?) :
      LegalChecks engine fits members checks .values
  | string (htype : typeOf? members = some .string)
      (hkeys : OnlyKeys checks ["minLength", "maxLength", "pattern"])
      (hbounds : BoundsLegal fits ⟨"minLength", none⟩ ⟨"maxLength", none⟩ IsCount checks.get?)
      (hpattern : ∀ value, checks.get? "pattern" = some value → IsPattern engine value) :
      LegalChecks engine fits members checks .type
  | integer {type : Primitive} (htype : typeOf? members = some type) (hinteger : type.isInteger)
      (hkeys : OnlyKeys checks
        ["minimum", "exclusiveMinimum", "maximum", "exclusiveMaximum", "multipleOf"])
      (hbounds : BoundsLegal fits ⟨"minimum", some "exclusiveMinimum"⟩
        ⟨"maximum", some "exclusiveMaximum"⟩ (IsLimit type) checks.get?)
      (hdivisor : ∀ value, checks.get? "multipleOf" = some value → IsDivisor value) :
      LegalChecks engine fits members checks .type
  | other {type : Primitive} (htype : typeOf? members = some type)
      (hother : type ∈ [.float32, .float64, .timestamp])
      (hkeys : OnlyKeys checks ["minimum", "exclusiveMinimum", "maximum", "exclusiveMaximum"])
      (hbounds : BoundsLegal fits ⟨"minimum", some "exclusiveMinimum"⟩
        ⟨"maximum", some "exclusiveMaximum"⟩ (IsLimit type) checks.get?) :
      LegalChecks engine fits members checks .type
  | boolean (htype : typeOf? members = some .boolean) (hkeys : OnlyKeys checks []) :
      LegalChecks engine fits members checks .type

section Limits

variable {rule : BoundRule} {admission : Admission} {side : Side} {value : Json} {limit : Binary64}

lemma limitOf_eq_ok_iff : limitOf rule admission side value = .ok limit ↔
    ∃ admitted, admission side value = .ok admitted ∧
      admitted.or (value.number?.map Number.toBinary64) = some limit ∧
        (rule.counts = true → isCount limit = true) := by
  have hcount : ∀ found : Binary64,
      (if rule.counts && !isCount found then throw [SchemaFault.boundNotCount rule.measure side]
        else pure found : Except (List SchemaFault) Binary64) = .ok limit ↔
        found = limit ∧ (rule.counts = true → isCount limit = true) := by
    intro found
    split_ifs with h
    · simp only [Bool.and_eq_true, Bool.not_eq_true'] at h
      refine iff_of_false nofun ?_
      rintro ⟨rfl, hc⟩
      rw [h.2] at hc
      exact Bool.false_ne_true (hc h.1)
    · refine ⟨fun he => ?_, fun he => congrArg Except.ok he.1⟩
      cases he
      refine ⟨rfl, fun hr => ?_⟩
      simpa [hr] using h
  unfold limitOf
  cases admission side value with
  | error faults => exact iff_of_false nofun nofun
  | ok admitted =>
    simp only [Except.ok.injEq, exists_eq_left']
    cases admitted with
    | some found => exact (hcount found).trans (and_congr_left' Option.some_inj.symm)
    | none =>
      cases value with
      | number n => exact (hcount n.toBinary64).trans (and_congr_left' Option.some_inj.symm)
      | _ => exact iff_of_false nofun nofun

lemma isCount_iff (n : Number) : isCount n.toBinary64 = true ↔ isWhole n.value ∧ 0 ≤ n.value := by
  rw [isCount, Bool.and_eq_true, decide_eq_true_iff]
  exact and_comm

lemma limitOf_count_iff (hcounts : rule.counts = true) :
    limitOf rule anyBound side value = .ok limit ↔ IsCount value ∧ limit? value = some limit := by
  rw [limitOf_eq_ok_iff]
  simp only [anyBound, Except.ok.injEq, exists_eq_left', Option.none_or, hcounts, forall_const,
    IsCount]
  cases value with
  | number n =>
    simp only [Json.number?, Option.map_some, Option.some.injEq, limit?, Json.number.injEq,
      exists_eq_left', ← isCount_iff]
    exact ⟨fun ⟨he, hc⟩ => ⟨he ▸ hc, he⟩, fun ⟨hc, he⟩ => ⟨he, he ▸ hc⟩⟩
  | _ => exact iff_of_false nofun nofun

lemma limitOf_length_iff {type : Primitive} :
    limitOf lengthRule (lengthAdmission type) side value = .ok limit ↔
      (type = .string ∧ IsCount value) ∧ limit? value = some limit := by
  by_cases htype : type = .string
  · have hany : lengthAdmission type = anyBound := by
      funext side value
      rw [lengthAdmission, if_pos htype, anyBound]
    rw [hany, limitOf_count_iff rfl, and_iff_right htype]
  · rw [limitOf_eq_ok_iff]
    refine iff_of_false ?_ fun h => htype h.1.1
    rintro ⟨admitted, hadmitted, -⟩
    rw [lengthAdmission, if_neg htype] at hadmitted
    cases hadmitted

lemma integerBoundFaults_eq_nil_iff {type : Primitive} {x : Rat} :
    integerBoundFaults type side x = [] ↔
      ∀ low high, type.range? = some (low, high) → isWhole x ∧ low ≤ x ∧ x ≤ high := by
  unfold integerBoundFaults
  cases type.range? with
  | none => simp
  | some range =>
    obtain ⟨low, high⟩ := range
    simp only [Option.some.injEq, Prod.mk.injEq, List.append_eq_nil_iff, ite_eq_left_iff,
      List.cons_ne_nil, imp_false, not_not, ite_eq_right_iff, not_or, not_lt]
    exact ⟨fun h _ _ he => he.1 ▸ he.2 ▸ h, fun h => h low high ⟨rfl, rfl⟩⟩

lemma isLimit_ordered {type : Primitive} (h : IsLimit type value) : type.isOrdered = true := by
  cases h with
  | float htype => rcases htype with rfl | rfl <;> rfl
  | integer htype =>
    rw [Primitive.isOrdered, Primitive.isNumeric, Primitive.isInteger, htype]
    rfl
  | timestamp htype => rw [htype]; rfl

lemma millisOf?_isSome (s : String) :
    (Timestamp.millisOf? s).isSome = Timestamp.isTimestamp s := by
  rw [Timestamp.millisOf?, Timestamp.isTimestamp, Option.isSome_map]

lemma isLimit_number_iff {type : Primitive} (hordered : type.isOrdered = true)
    (htimestamp : type ≠ .timestamp) (n : Number) :
    IsLimit type (.number n) ↔ integerBoundFaults type side n.value = [] := by
  rw [integerBoundFaults_eq_nil_iff]
  constructor
  · intro h low high hrange
    cases h with
    | float htype => rcases htype with rfl | rfl <;> cases hrange
    | integer htype hwhole hlow hhigh =>
      cases htype.symm.trans hrange
      exact ⟨hwhole, hlow, hhigh⟩
  · intro h
    cases hrange : type.range? with
    | some range => exact .integer hrange (h _ _ hrange).1 (h _ _ hrange).2.1 (h _ _ hrange).2.2
    | none =>
      refine .float ?_
      cases type <;> simp_all [Primitive.isOrdered, Primitive.isNumeric, Primitive.isInteger,
        Primitive.range?]

lemma valueAdmission_number {type : Primitive} (hordered : type.isOrdered = true)
    (htimestamp : type ≠ .timestamp) (n : Number) (admitted : Option Binary64) :
    valueAdmission type side (.number n) = .ok admitted ↔
      integerBoundFaults type side n.value = [] ∧ none = admitted := by
  rw [valueAdmission, hordered, Bool.not_true, if_neg Bool.false_ne_true, if_neg htimestamp]
  cases integerBoundFaults type side n.value with
  | nil => simp
  | cons fault rest => simp

lemma limitOf_admitted_iff {type : Primitive} :
    limitOf (valueRule type) (valueAdmission type) side value = .ok limit ↔
      ∃ admitted, valueAdmission type side value = .ok admitted ∧
        admitted.or (value.number?.map Number.toBinary64) = some limit := by
  have huncounted : (valueRule type).counts = true ↔ False := iff_of_false nofun not_false
  rw [limitOf_eq_ok_iff]
  simp only [huncounted, false_imp_iff, and_true]

lemma limitOf_timestamp_iff :
    limitOf (valueRule .timestamp) (valueAdmission .timestamp) side value = .ok limit ↔
      IsLimit .timestamp value ∧ limit? value = some limit := by
  rw [limitOf_admitted_iff]
  cases value with
  | string s =>
    have hlimit : IsLimit .timestamp (.string s) ↔ (Timestamp.millisOf? s).isSome := by
      rw [millisOf?_isSome]
      exact ⟨fun h => by cases h; assumption, fun h => .timestamp rfl h⟩
    rw [hlimit, limit?]
    simp only [valueAdmission, Primitive.isOrdered, if_true]
    cases Timestamp.millisOf? s with
    | none => simp
    | some millis => simp
  | number n =>
    refine iff_of_false (by rintro ⟨_, ⟨⟩, _⟩) fun h => ?_
    cases h.1 with
    | float htype => exact absurd htype (by decide)
    | integer htype => cases htype
  | _ => exact iff_of_false (by rintro ⟨_, ⟨⟩, _⟩) (by rintro ⟨⟨⟩, _⟩)

lemma limitOf_numeric_iff {type : Primitive} (hordered : type.isOrdered = true)
    (htimestamp : type ≠ .timestamp) :
    limitOf (valueRule type) (valueAdmission type) side value = .ok limit ↔
      IsLimit type value ∧ limit? value = some limit := by
  -- Anything else than a number is admitted as it is, and gives no limit then.
  have hother : value.number? = none → ¬ ∃ admitted, valueAdmission type side value = .ok admitted ∧
      admitted.or (value.number?.map Number.toBinary64) = some limit := by
    rintro hnumber ⟨admitted, hadmitted, hfound⟩
    have hnone : admitted = none := by
      unfold valueAdmission at hadmitted
      rw [hordered, Bool.not_true, if_neg Bool.false_ne_true, if_neg htimestamp] at hadmitted
      cases value with
      | number n => cases hnumber
      | _ => cases hadmitted; rfl
    rw [hnone, hnumber] at hfound
    cases hfound
  rw [limitOf_admitted_iff]
  cases value with
  | number n =>
    simp only [valueAdmission_number hordered htimestamp, and_assoc, exists_and_left,
      exists_eq_left']
    rw [isLimit_number_iff hordered htimestamp]
    rfl
  | string s =>
    refine iff_of_false (hother rfl) fun h => ?_
    cases h.1 with
    | timestamp htype => exact htimestamp htype
  | _ => exact iff_of_false (hother rfl) nofun

lemma limitOf_value_iff {type : Primitive} :
    limitOf (valueRule type) (valueAdmission type) side value = .ok limit ↔
      IsLimit type value ∧ limit? value = some limit := by
  by_cases htimestamp : type = .timestamp
  · rw [htimestamp]
    exact limitOf_timestamp_iff
  by_cases hordered : type.isOrdered = true
  · exact limitOf_numeric_iff hordered htimestamp
  · refine iff_of_false ?_ fun h => hordered (isLimit_ordered h.1)
    rw [limitOf_admitted_iff]
    rintro ⟨admitted, hadmitted, -⟩
    unfold valueAdmission at hadmitted
    rw [if_pos (by simpa using hordered)] at hadmitted
    cases hadmitted

end Limits

/-- For the bounds of a rule just the legal values are admitted. -/
structure AdmitsLegal (rule : BoundRule) (admission : Admission) (legal : Json → Prop) : Prop where
  admits : ∀ side value limit, limitOf rule admission side value = .ok limit ↔
    legal value ∧ limit? value = some limit
  stands : ∀ value, legal value → (limit? value).isSome
  refuses : ∀ side value faults, admission side value = .error faults → faults ≠ []

section Bounds

variable {rule : BoundRule} {admission : Admission} {legal : Json → Prop} {side : Side}
  {find : Lookup}

lemma limitOf_error_ne_nil (h : AdmitsLegal rule admission legal) {value : Json}
    {faults : List SchemaFault} (he : limitOf rule admission side value = .error faults) :
    faults ≠ [] := by
  unfold limitOf at he
  cases hadmitted : admission side value with
  | error found =>
    rw [hadmitted] at he
    cases he
    exact h.refuses side value faults hadmitted
  | ok admitted =>
    rw [hadmitted] at he
    have hcount : ∀ found : Binary64,
        (if rule.counts && !isCount found then throw [SchemaFault.boundNotCount rule.measure side]
          else pure found : Except (List SchemaFault) Binary64) = .error faults → faults ≠ [] := by
      intro found he
      split_ifs at he
      · cases he
        exact List.cons_ne_nil _ _
      · cases he
    cases admitted with
    | some found => exact hcount found he
    | none =>
      cases value with
      | number n => exact hcount n.toBinary64 he
      | _ =>
        cases he
        exact List.cons_ne_nil _ _

lemma limitFaults_eq_nil_iff (h : AdmitsLegal rule admission legal) {value : Json} :
    limitFaults rule admission side value = [] ↔ legal value := by
  unfold limitFaults
  cases hlimit : limitOf rule admission side value with
  | ok limit => exact iff_of_true rfl ((h.admits side value limit).mp hlimit).1
  | error faults =>
    refine iff_of_false (limitOf_error_ne_nil h hlimit) fun hlegal => ?_
    obtain ⟨limit, hl⟩ := Option.isSome_iff_exists.mp (h.stands value hlegal)
    rw [(h.admits side value limit).mpr ⟨hlegal, hl⟩] at hlimit
    cases hlimit

lemma sideFaults_eq_nil_iff (h : AdmitsLegal rule admission legal) :
    sideFaults rule admission side find = [] ↔ SideLegal (rule.keys side) legal find := by
  unfold sideFaults twiceFaults boundIn
  generalize rule.keys side = keys
  obtain ⟨inclusive, exclusive⟩ := keys
  have hkeys : SideLegal ⟨inclusive, exclusive⟩ legal find ↔
      (∀ value, find inclusive = some value → legal value) ∧
      (∀ value, exclusive.bind find = some value → legal value) ∧
        ((exclusive.bind find).isSome → find inclusive = none) := by
    constructor
    · rintro ⟨hvalues, honce⟩
      cases exclusive with
      | none => exact ⟨hvalues inclusive List.mem_cons_self, nofun, nofun⟩
      | some key => exact ⟨hvalues inclusive List.mem_cons_self,
          hvalues key (List.mem_cons_of_mem _ List.mem_cons_self), honce key rfl⟩
    · rintro ⟨hinclusive, hexclusive, honce⟩
      cases exclusive with
      | none => exact ⟨by simpa [sideKeys] using hinclusive, nofun⟩
      | some key =>
        refine ⟨by simpa [sideKeys] using ⟨hinclusive, hexclusive⟩, fun other hother => ?_⟩
        cases hother
        exact honce
  rw [hkeys, List.append_eq_nil_iff]
  dsimp only
  rcases exclusive.bind find with _ | value <;> rcases find inclusive with _ | other <;>
    simp [chosen, limitFaults_eq_nil_iff h]

lemma soundBound_eq_some_iff (h : AdmitsLegal rule admission legal) (side : Side)
    (hside : SideLegal (rule.keys side) legal find) (bound : Bound) :
    soundBound rule admission side find = some bound ↔ Sets (rule.keys side) find bound := by
  have hlimit : ∀ value limit, legal value →
      ((limitOf rule admission side value).toOption = some limit ↔ limit? value = some limit) := by
    intro value limit hlegal
    have hadmits := h.admits side value limit
    rw [and_iff_right hlegal] at hadmits
    rw [← hadmits]
    cases limitOf rule admission side value <;> simp [Except.toOption]
  unfold soundBound boundIn
  generalize rule.keys side = keys at hside ⊢
  obtain ⟨hvalues, honce⟩ := hside
  constructor
  · intro hsound
    obtain ⟨⟨value, exclusive⟩, hchosen, hsound⟩ := Option.bind_eq_some_iff.mp hsound
    obtain ⟨limit, hfound, rfl⟩ := Option.map_eq_some_iff.mp hsound
    unfold chosen at hchosen
    split at hchosen
    · rename_i other hother
      cases hchosen
      obtain ⟨key, hkey, hvalue⟩ := Option.bind_eq_some_iff.mp hother
      have hmem : key ∈ sideKeys keys :=
        List.mem_cons_of_mem _ (by rw [hkey]; exact List.mem_cons_self)
      exact .exclusive hkey hvalue ((hlimit _ _ (hvalues key hmem _ hvalue)).mp hfound)
    · obtain ⟨other, hvalue, he⟩ := Option.map_eq_some_iff.mp hchosen
      cases he
      exact .inclusive hvalue ((hlimit _ _ (hvalues _ List.mem_cons_self _ hvalue)).mp hfound)
  · intro hsets
    cases hsets with
    | @inclusive value limit hvalue hstands =>
      have hnone : keys.exclusive.bind find = none := by
        rw [Option.bind_eq_none_iff]
        intro key hkey
        by_contra hsome
        rw [honce key hkey (Option.isSome_iff_ne_none.mpr hsome)] at hvalue
        cases hvalue
      rw [hnone, hvalue]
      simpa [chosen, hlimit value _ (hvalues _ List.mem_cons_self _ hvalue)] using hstands
    | @exclusive key value limit hkey hvalue hstands =>
      have hmem : key ∈ sideKeys keys :=
        List.mem_cons_of_mem _ (by rw [hkey]; exact List.mem_cons_self)
      rw [hkey, Option.bind_some, hvalue]
      simpa [chosen, hlimit value _ (hvalues key hmem _ hvalue)] using hstands

lemma crossFaults_eq_nil_iff {measure : Measure} {low high : Bound} :
    crossFaults measure low high = [] ↔ LeaveRoom low high := by
  unfold crossFaults LeaveRoom Ordered
  by_cases hcross : high.limit.toRat < low.limit.toRat
  · rw [if_pos hcross]
    exact iff_of_false (List.cons_ne_nil _ _) fun h => absurd h.1 (not_le.mpr hcross)
  rw [if_neg hcross, ite_eq_right_iff, imp_iff_not (List.cons_ne_nil _ _)]
  simp only [Bool.and_eq_true, Bool.or_eq_true, beq_iff_eq, not_and]
  have hle : low.limit.toRat ≤ high.limit.toRat := not_lt.mp hcross
  rw [and_iff_right hle]
  exact ⟨fun h he => lt_of_le_of_ne hle (h he), fun h he => ne_of_lt (h he)⟩

lemma bothFaults_eq_nil_iff {measure : Measure} {min max : Option Bound} :
    bothFaults measure min max = [] ↔ ∀ low high, min = some low → max = some high →
      crossFaults measure low high = [] := by
  rcases min with _ | low <;> rcases max with _ | high <;> simp [bothFaults]

lemma boundsPart_faults_eq_nil_iff (h : AdmitsLegal rule admission legal) :
    (boundsPart rule admission find).faults = [] ↔
      BoundsLegal LeaveRoom rule.min rule.max legal find := by
  simp only [boundsPart, List.append_eq_nil_iff, sideFaults_eq_nil_iff h, bothFaults_eq_nil_iff,
    crossFaults_eq_nil_iff]
  constructor
  · rintro ⟨⟨hmin, hmax⟩, hordered⟩
    refine ⟨hmin, hmax, fun low high hlow hhigh => hordered low high ?_ ?_⟩
    · exact (soundBound_eq_some_iff h .min hmin low).mpr hlow
    · exact (soundBound_eq_some_iff h .max hmax high).mpr hhigh
  · rintro ⟨hmin, hmax, hordered⟩
    refine ⟨⟨hmin, hmax⟩, fun low high hlow hhigh => hordered low high ?_ ?_⟩
    · exact (soundBound_eq_some_iff h .min hmin low).mp hlow
    · exact (soundBound_eq_some_iff h .max hmax high).mp hhigh

end Bounds

section Forms

variable {engine : PatternEngine} {members checks : Members} {type : Primitive}

lemma admits_count {rule : BoundRule} (h : rule.counts = true) :
    AdmitsLegal rule anyBound IsCount := by
  refine ⟨fun side value limit => limitOf_count_iff h, fun value hcount => ?_, nofun⟩
  obtain ⟨n, rfl, -⟩ := hcount
  rfl

lemma admits_length (type : Primitive) :
    AdmitsLegal lengthRule (lengthAdmission type) fun value => type = .string ∧ IsCount value := by
  refine ⟨fun side value limit => limitOf_length_iff, fun value hcount => ?_,
    fun side value faults h => ?_⟩
  · obtain ⟨-, n, rfl, -⟩ := hcount
    rfl
  · unfold lengthAdmission at h
    split_ifs at h
    cases h
    exact List.cons_ne_nil _ _

lemma admits_value (type : Primitive) :
    AdmitsLegal (valueRule type) (valueAdmission type) (IsLimit type) := by
  refine ⟨fun side value limit => limitOf_value_iff, fun value hlimit => ?_,
    fun side value faults h => ?_⟩
  · cases hlimit with
    | float | integer => rfl
    | @timestamp s _ hvalue => exact (millisOf?_isSome s).trans hvalue
  · unfold valueAdmission at h
    split_ifs at h
    · cases h
      exact List.cons_ne_nil _ _
    · split at h
      · split at h <;> cases h
        exact List.cons_ne_nil _ _
      · cases h
        exact List.cons_ne_nil _ _
    · split at h
      · split at h <;> cases h
        assumption
      · cases h

lemma checkPart_faults_eq_nil_iff {key : String} {check : Json → Except SchemaFault Supplement}
    {find : Lookup} :
    (checkPart key check find).faults = [] ↔
      ∀ value, find key = some value → ∃ supplement, check value = .ok supplement := by
  unfold checkPart
  cases find key with
  | none => simp
  | some value =>
    rw [Option.map_some]
    cases hcheck : check value <;> simp [hcheck]

lemma patternCheck_ok_iff {value : Json} :
    (∃ supplement, patternCheck engine type value = .ok supplement) ↔
      type = .string ∧ IsPattern engine value := by
  unfold patternCheck IsPattern
  by_cases htype : type = .string
  · rw [if_neg (not_not.mpr htype), and_iff_right htype]
    cases value with
    | string text => cases hpattern : engine.compile text <;> simp [hpattern]
    | _ => simp
  · rw [if_pos htype]
    exact iff_of_false nofun fun h => htype h.1

lemma multipleCheck_ok_iff {value : Json} :
    (∃ supplement, multipleCheck type value = .ok supplement) ↔
      type.isInteger = true ∧ IsDivisor value := by
  unfold multipleCheck IsDivisor
  by_cases hinteger : type.isInteger = true
  · have hnumeric : type.isNumeric = true := by rw [Primitive.isNumeric, hinteger]; rfl
    rw [hnumeric, hinteger]
    cases value with
    | number n => by_cases hwhole : isWhole n.value <;> simp [hwhole]
    | _ => simp
  · have hfloat : type.isInteger = false := by simpa using hinteger
    rw [hfloat]
    cases type.isNumeric <;> simp

lemma surplusFaults_eq_nil_iff {keys : List String} :
    surplusFaults (without keys checks) = [] ↔ OnlyKeys checks keys := by
  unfold surplusFaults without OnlyKeys Members.keys
  rw [ite_eq_left_iff, imp_iff_not (List.cons_ne_nil _ _)]
  simp

lemma typePart_faults_eq_nil_iff {find : Lookup} :
    (typePart engine type find).faults = [] ↔
      BoundsLegal LeaveRoom ⟨"minLength", none⟩ ⟨"maxLength", none⟩
          (fun value => type = .string ∧ IsCount value) find ∧
        (∀ value, find "pattern" = some value → type = .string ∧ IsPattern engine value) ∧
        BoundsLegal LeaveRoom ⟨"minimum", some "exclusiveMinimum"⟩
          ⟨"maximum", some "exclusiveMaximum"⟩ (IsLimit type) find ∧
        ∀ value, find "multipleOf" = some value → type.isInteger = true ∧ IsDivisor value := by
  have hlength : (boundsPart lengthRule (lengthAdmission type) find).faults = [] ↔ _ :=
    boundsPart_faults_eq_nil_iff (admits_length type)
  have hvalue : (boundsPart (valueRule type) (valueAdmission type) find).faults = [] ↔ _ :=
    boundsPart_faults_eq_nil_iff (admits_value type)
  simp only [typePart, joined, List.append_eq_nil_iff, checkPart_faults_eq_nil_iff, hlength,
    hvalue, patternCheck_ok_iff, multipleCheck_ok_iff]
  rfl

lemma boundsLegal_imp {lower upper : BoundKeys} {legal other : Json → Prop} {find : Lookup}
    (h : BoundsLegal LeaveRoom lower upper legal find) (hi : ∀ value, legal value → other value) :
    BoundsLegal LeaveRoom lower upper other find :=
  ⟨⟨fun key hk value hv => hi value (h.min.values key hk value hv), h.min.once⟩,
    ⟨fun key hk value hv => hi value (h.max.values key hk value hv), h.max.once⟩, h.ordered⟩

lemma boundsLegal_absent {lower upper : BoundKeys} {legal : Json → Prop} {find : Lookup}
    (h : ∀ key ∈ sideKeys lower ++ sideKeys upper, find key = none) :
    BoundsLegal LeaveRoom lower upper legal find := by
  have hlower : ∀ key ∈ sideKeys lower, find key = none := fun key hk =>
    h key (List.mem_append_left _ hk)
  have hupper : ∀ key ∈ sideKeys upper, find key = none := fun key hk =>
    h key (List.mem_append_right _ hk)
  refine ⟨⟨fun key hk value hv => ?_, fun _ _ _ => hlower _ List.mem_cons_self⟩,
    ⟨fun key hk value hv => ?_, fun _ _ _ => hupper _ List.mem_cons_self⟩, fun low _ hlow => ?_⟩
  · rw [hlower key hk] at hv
    cases hv
  · rw [hupper key hk] at hv
    cases hv
  · cases hlow with
    | inclusive hvalue =>
      rw [hlower _ List.mem_cons_self] at hvalue
      cases hvalue
    | exclusive hkey hvalue =>
      rw [hlower _ (List.mem_cons_of_mem _ (by rw [hkey]; exact List.mem_cons_self))] at hvalue
      cases hvalue

lemma get?_of_onlyKeys {keys : List String} (h : OnlyKeys checks keys) {key : String}
    (hk : key ∉ keys) : checks.get? key = none :=
  get?_eq_none_iff.mpr fun hm => hk (h key hm)

lemma onlyKeys_mono {keys more : List String} (h : OnlyKeys checks keys) (hk : keys ⊆ more) :
    OnlyKeys checks more :=
  fun key hkey => hk (h key hkey)

lemma boundsLegal_of_onlyKeys {keys : List String} (h : OnlyKeys checks keys)
    {lower upper : BoundKeys} (hk : ∀ key ∈ sideKeys lower ++ sideKeys upper, key ∉ keys)
    {legal : Json → Prop} : BoundsLegal LeaveRoom lower upper legal checks.get? :=
  boundsLegal_absent fun key hkey => get?_of_onlyKeys h (hk key hkey)

lemma vacuous_of_onlyKeys {keys : List String} (h : OnlyKeys checks keys) {key : String}
    (hk : key ∉ keys) {p : Json → Prop} (value : Json) (hv : checks.get? key = some value) :
    p value := by
  rw [get?_of_onlyKeys h hk] at hv
  cases hv

lemma typed_keys (hpart : (typePart engine type checks.get?).faults = [])
    (hkeys : OnlyKeys checks ["minLength", "maxLength", "pattern", "minimum", "exclusiveMinimum",
      "maximum", "exclusiveMaximum", "multipleOf"]) {key : String}
    (hkey : key ∈ Members.keys checks) :
    type = .string ∧ key ∈ ["minLength", "maxLength", "pattern"] ∨
      type.isOrdered = true ∧
        key ∈ ["minimum", "exclusiveMinimum", "maximum", "exclusiveMaximum"] ∨
      type.isInteger = true ∧ key = "multipleOf" := by
  obtain ⟨hlength, hpattern, hvalue, hmultiple⟩ := typePart_faults_eq_nil_iff.mp hpart
  obtain ⟨value, hv⟩ := Option.isSome_iff_exists.mp (has_iff_mem_keys.mpr hkey)
  have hknown := hkeys key hkey
  simp only [List.mem_cons, List.not_mem_nil, or_false] at hknown
  rcases hknown with rfl | rfl | rfl | rfl | rfl | rfl | rfl | rfl
  · exact .inl ⟨(hlength.min.values _ (by decide) value hv).1, by decide⟩
  · exact .inl ⟨(hlength.max.values _ (by decide) value hv).1, by decide⟩
  · exact .inl ⟨(hpattern value hv).1, by decide⟩
  · exact .inr (.inl ⟨isLimit_ordered (hvalue.min.values _ (by decide) value hv), by decide⟩)
  · exact .inr (.inl ⟨isLimit_ordered (hvalue.min.values _ (by decide) value hv), by decide⟩)
  · exact .inr (.inl ⟨isLimit_ordered (hvalue.max.values _ (by decide) value hv), by decide⟩)
  · exact .inr (.inl ⟨isLimit_ordered (hvalue.max.values _ (by decide) value hv), by decide⟩)
  · exact .inr (.inr ⟨(hmultiple value hv).1, rfl⟩)

lemma typed_legal (htype : typeOf? members = some type)
    (hpart : (typePart engine type checks.get?).faults = [])
    (hkeys : OnlyKeys checks (knownKeys .type members)) :
    LegalChecks engine LeaveRoom members checks .type := by
  rw [knownKeys, htype, Option.elim_some] at hkeys
  have hadmitted := fun key (hkey : key ∈ Members.keys checks) => typed_keys hpart hkeys hkey
  obtain ⟨hlength, hpattern, hvalue, hmultiple⟩ := typePart_faults_eq_nil_iff.mp hpart
  by_cases hstring : type = .string
  · subst hstring
    refine .string htype (fun key hk => ?_) (boundsLegal_imp hlength fun _ h => h.2)
      fun value hv => (hpattern value hv).2
    rcases hadmitted key hk with ⟨-, h⟩ | ⟨h, -⟩ | ⟨h, -⟩
    · exact h
    · cases h
    · cases h
  by_cases hinteger : type.isInteger = true
  · refine .integer htype hinteger (fun key hk => ?_) hvalue fun value hv => (hmultiple value hv).2
    rcases hadmitted key hk with ⟨h, -⟩ | ⟨-, h⟩ | ⟨-, rfl⟩
    · exact absurd h hstring
    · exact List.mem_append_left ["multipleOf"] h
    · decide
  by_cases hordered : type.isOrdered = true
  · have hother : type ∈ [.float32, .float64, .timestamp] := by
      cases type <;> simp_all [Primitive.isOrdered, Primitive.isNumeric, Primitive.isInteger,
        Primitive.range?]
    refine .other htype hother (fun key hk => ?_) hvalue
    rcases hadmitted key hk with ⟨h, -⟩ | ⟨-, h⟩ | ⟨h, -⟩
    · exact absurd h hstring
    · exact h
    · exact absurd h hinteger
  · have hboolean : type = .boolean := by
      cases type <;> simp_all [Primitive.isOrdered, Primitive.isNumeric, Primitive.isInteger,
        Primitive.range?]
    refine .boolean (hboolean ▸ htype) fun key hk => ?_
    rcases hadmitted key hk with ⟨h, -⟩ | ⟨h, -⟩ | ⟨h, -⟩
    · exact absurd h hstring
    · exact absurd h hordered
    · exact absurd h hinteger

lemma typed_silent (htype : typeOf? members = some type)
    (h : LegalChecks engine LeaveRoom members checks .type) :
    (typePart engine type checks.get?).faults = [] ∧ OnlyKeys checks (knownKeys .type members) := by
  rw [knownKeys, htype, Option.elim_some, typePart_faults_eq_nil_iff]
  cases h with
  | none hform => exact absurd hform (by decide)
  | string hother hkeys hbounds hpattern =>
    cases htype.symm.trans hother
    refine ⟨⟨boundsLegal_imp hbounds fun _ h => ⟨rfl, h⟩, fun value hv => ⟨rfl, hpattern value hv⟩,
      boundsLegal_of_onlyKeys hkeys (by decide), vacuous_of_onlyKeys hkeys (by decide)⟩,
      onlyKeys_mono hkeys (by decide)⟩
  | integer hother hinteger hkeys hbounds hdivisor =>
    cases htype.symm.trans hother
    exact ⟨⟨boundsLegal_of_onlyKeys hkeys (by decide), vacuous_of_onlyKeys hkeys (by decide),
      hbounds, fun value hv => ⟨hinteger, hdivisor value hv⟩⟩, onlyKeys_mono hkeys (by decide)⟩
  | other hother _ hkeys hbounds =>
    cases htype.symm.trans hother
    exact ⟨⟨boundsLegal_of_onlyKeys hkeys (by decide), vacuous_of_onlyKeys hkeys (by decide),
      hbounds, vacuous_of_onlyKeys hkeys (by decide)⟩, onlyKeys_mono hkeys (by decide)⟩
  | boolean hother hkeys =>
    cases htype.symm.trans hother
    exact ⟨⟨boundsLegal_of_onlyKeys hkeys (by decide), vacuous_of_onlyKeys hkeys (by decide),
      boundsLegal_of_onlyKeys hkeys (by decide), vacuous_of_onlyKeys hkeys (by decide)⟩,
      onlyKeys_mono hkeys (by decide)⟩

lemma elements_faults_eq_nil_iff {find : Lookup} :
    (elementsPart find).faults = [] ↔
      BoundsLegal LeaveRoom ⟨"minElements", none⟩ ⟨"maxElements", none⟩ IsCount find := by
  rw [elementsPart, joined, List.append_nil]
  exact boundsPart_faults_eq_nil_iff (admits_count rfl)

theorem formPart_silent_iff {form : Form} (htyped : form = .type → (typeOf? members).isSome) :
    (formPart engine form members checks.get?).faults = [] ∧
        OnlyKeys checks (knownKeys form members) ↔
      LegalChecks engine LeaveRoom members checks form := by
  cases form with
  | type =>
    obtain ⟨type, htype⟩ := Option.isSome_iff_exists.mp (htyped rfl)
    rw [formPart, htype, Option.elim_some]
    exact ⟨fun h => typed_legal htype h.1 h.2, typed_silent htype⟩
  | elements =>
    rw [formPart, elements_faults_eq_nil_iff]
    refine ⟨fun h => .elements h.2 h.1, fun h => ?_⟩
    cases h with
    | none hform => exact absurd hform (by decide)
    | elements hkeys hbounds => exact ⟨hbounds, hkeys⟩
  | properties =>
    rw [formPart, boundsPart_faults_eq_nil_iff (admits_count rfl)]
    refine ⟨fun h => .properties h.2 h.1, fun h => ?_⟩
    cases h with
    | none hform => exact absurd hform (by decide)
    | properties hkeys hbounds => exact ⟨hbounds, hkeys⟩
  | values =>
    rw [formPart, boundsPart_faults_eq_nil_iff (admits_count rfl)]
    refine ⟨fun h => .values h.2 h.1, fun h => ?_⟩
    cases h with
    | none hform => exact absurd hform (by decide)
    | values hkeys hbounds => exact ⟨hbounds, hkeys⟩
  | empty | enum | discriminator | ref =>
    refine ⟨fun h => .none (by decide) h.2, fun h => ⟨rfl, ?_⟩⟩
    cases h with
    | none _ hkeys => exact hkeys

end Forms

end JsonTypeDefinition.Proofs
