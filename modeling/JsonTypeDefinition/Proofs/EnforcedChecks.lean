import JsonTypeDefinition.Proofs.AcceptedChecks
import JsonTypeDefinition.Proofs.ArenaInvariant
import JsonTypeDefinition.Proofs.CoreViolations
import JsonTypeDefinition.Proofs.ValueEquality

/-!
# Checks are enforced

`ChecksFind` says what a legal checks object finds wrong with a value, in terms of what its keys
hold. At every node of a document with checks, what extensions report is just that.
-/

namespace JsonTypeDefinition.Proofs
open Checks

/-- A measured number stands in a relation to the bound on a side that the bound rules out. -/
inductive Beyond (target : Rat) : Side → Bound → Relation → Prop where
  | below {limit : Binary64} (h : target < limit.toRat) : Beyond target .min ⟨limit, false⟩ .less
  | atMost {limit : Binary64} (h : target ≤ limit.toRat) :
      Beyond target .min ⟨limit, true⟩ .lessOrEqual
  | above {limit : Binary64} (h : limit.toRat < target) : Beyond target .max ⟨limit, false⟩ .greater
  | atLeast {limit : Binary64} (h : limit.toRat ≤ target) :
      Beyond target .max ⟨limit, true⟩ .greaterOrEqual

/-- A measured number is within the bounds, or beyond just one of them. -/
inductive BoundsFind (measure : Measure) (lower upper : BoundKeys) (find : Lookup)
    (target : Rat) : List Violation → Prop where
  | within (hmin : ∀ bound relation, Sets lower find bound → ¬ Beyond target .min bound relation)
      (hmax : ∀ bound relation, Sets upper find bound → ¬ Beyond target .max bound relation) :
      BoundsFind measure lower upper find target []
  | below {bound : Bound} {relation : Relation} (hset : Sets lower find bound)
      (hbeyond : Beyond target .min bound relation)
      (hmax : ∀ bound relation, Sets upper find bound → ¬ Beyond target .max bound relation) :
      BoundsFind measure lower upper find target [.outOfBound measure bound.limit relation]
  | above {bound : Bound} {relation : Relation} (hset : Sets upper find bound)
      (hbeyond : Beyond target .max bound relation)
      (hmin : ∀ bound relation, Sets lower find bound → ¬ Beyond target .min bound relation) :
      BoundsFind measure lower upper find target [.outOfBound measure bound.limit relation]

/-- A string matches the pattern, if there is one. -/
inductive PatternFinds (engine : PatternEngine) (find : Lookup) (s : String) :
    List Violation → Prop where
  | matching (h : ∀ text pattern, find "pattern" = some (.string text) →
      engine.compile text = .ok pattern → engine.isFoundIn pattern s = true) :
      PatternFinds engine find s []
  | mismatch {text : String} {pattern : engine.Compiled}
      (htext : find "pattern" = some (.string text)) (hpattern : engine.compile text = .ok pattern)
      (hno : engine.isFoundIn pattern s = false) :
      PatternFinds engine find s [.patternMismatch text]

/-- A number leaves no remainder, if there is a divisor. Division by zero leaves one. -/
inductive MultipleFinds (find : Lookup) (n : Number) : List Violation → Prop where
  | multiple (h : ∀ divisor, find "multipleOf" = some (.number divisor) →
      n.toBinary64.rem? divisor.toBinary64 = some 0) : MultipleFinds find n []
  | rest {divisor : Number} (hdivisor : find "multipleOf" = some (.number divisor))
      (hrest : n.toBinary64.rem? divisor.toBinary64 ≠ some 0) :
      MultipleFinds find n [.notMultipleOf divisor.toBinary64]

/-- No two items are equal, if that is asked for. -/
inductive UniqueFinds (find : Lookup) (items : List Json) : List Violation → Prop where
  | distinct (h : ∀ flag, find "uniqueElements" = some flag → flag.isTruthy = true →
      ∀ (i j : Nat) a b, i < j → items[i]? = some a → items[j]? = some b →
        Json.sameValue a b = false) : UniqueFinds find items []
  | repeated {flag a b : Json} {i j : Nat} (hflag : find "uniqueElements" = some flag)
      (htruthy : flag.isTruthy = true) (hij : i < j) (ha : items[i]? = some a)
      (hb : items[j]? = some b) (hsame : Json.sameValue a b = true) :
      UniqueFinds find items [.elementsNotUnique]

/-- What the checks of a schema object of a form find wrong with a value, in order. -/
inductive ChecksFind (engine : PatternEngine) (members checks : Members) :
    Form → Json → List Violation → Prop where
  | string {s : String} {lengths patterns : List Violation}
      (htype : typeOf? members = some .string)
      (hlength : BoundsFind .stringLength ⟨"minLength", none⟩ ⟨"maxLength", none⟩ checks.get?
        (Binary64.ofInt s.length).toRat lengths)
      (hpattern : PatternFinds engine checks.get? s patterns) :
      ChecksFind engine members checks .type (.string s) (lengths ++ patterns)
  | number {type : Primitive} {n : Number} {values multiples : List Violation}
      (htype : typeOf? members = some type) (hnumeric : type.isNumeric = true)
      (hvalue : BoundsFind .value ⟨"minimum", some "exclusiveMinimum"⟩
        ⟨"maximum", some "exclusiveMaximum"⟩ checks.get? n.value values)
      (hmultiple : MultipleFinds checks.get? n multiples) :
      ChecksFind engine members checks .type (.number n) (values ++ multiples)
  | timestamp {s : String} {millis : Binary64} {values : List Violation}
      (htype : typeOf? members = some .timestamp) (hmillis : Timestamp.millisOf? s = some millis)
      (hvalue : BoundsFind .value ⟨"minimum", some "exclusiveMinimum"⟩
        ⟨"maximum", some "exclusiveMaximum"⟩ checks.get? millis.toRat values) :
      ChecksFind engine members checks .type (.string s) values
  | boolean {b : Bool} (htype : typeOf? members = some .boolean) :
      ChecksFind engine members checks .type (.bool b) []
  | elements {items : List Json} {sizes repeats : List Violation}
      (hsize : BoundsFind .elements ⟨"minElements", none⟩ ⟨"maxElements", none⟩ checks.get?
        (Binary64.ofInt items.length).toRat sizes)
      (hunique : UniqueFinds checks.get? items repeats) :
      ChecksFind engine members checks .elements (.array items) (sizes ++ repeats)
  | properties {parts : Members} {sizes : List Violation}
      (hsize : BoundsFind .properties ⟨"minProperties", none⟩ ⟨"maxProperties", none⟩ checks.get?
        (Binary64.ofInt parts.length).toRat sizes) :
      ChecksFind engine members checks .properties (.object parts) sizes
  | values {parts : Members} {sizes : List Violation}
      (hsize : BoundsFind .values ⟨"minValues", none⟩ ⟨"maxValues", none⟩ checks.get?
        (Binary64.ofInt parts.length).toRat sizes) :
      ChecksFind engine members checks .values (.object parts) sizes
  | other {form : Form} {value : Json} (hform : form ∈ [.empty, .enum, .discriminator, .ref]) :
      ChecksFind engine members checks form value []

/-- What the supplements of a contribution find wrong with a value, in order. -/
def finds (part : Contribution) (value : Json) : List Violation :=
  part.supplements.flatMap fun supplement => supplement value

section Bounds

variable {rule : BoundRule} {admission : Admission} {legal : Json → Prop} {find : Lookup}
  {value : Json} {target : Binary64}

lemma beyond_iff {side : Side} {bound : Bound} {relation : Relation} :
    Beyond target.toRat side bound relation ↔
      relation = bound.violation side ∧ relation.holds target bound.limit = true := by
  obtain ⟨limit, exclusive⟩ := bound
  constructor
  · intro h
    cases h <;> simpa [Bound.violation, Relation.holds]
  · rintro ⟨rfl, h⟩
    cases side <;> cases exclusive <;>
      simp only [Bound.violation, Relation.holds, decide_eq_true_eq, if_true, Bool.false_eq_true,
        if_false] at h ⊢
    · exact .below h
    · exact .atMost h
    · exact .above h
    · exact .atLeast h

lemma boundSupplement_beyond (hmeasured : rule.measured value = some target) {side : Side}
    {bound : Bound} {relation : Relation} (h : Beyond target.toRat side bound relation) :
    boundSupplement rule side bound value = [.outOfBound rule.measure bound.limit relation] := by
  obtain ⟨rfl, hholds⟩ := beyond_iff.mp h
  simp [boundSupplement, hmeasured, hholds]

lemma boundSupplement_within (hmeasured : rule.measured value = some target) {side : Side}
    {bound : Bound} (h : ∀ relation, ¬ Beyond target.toRat side bound relation) :
    boundSupplement rule side bound value = [] := by
  have hholds : (bound.violation side).holds target bound.limit = false :=
    Bool.eq_false_iff.mpr fun hholds => h _ (beyond_iff.mpr ⟨rfl, hholds⟩)
  simp [boundSupplement, hmeasured, hholds]

lemma beyond_once {low high : Bound} {x : Rat} {relation other : Relation}
    (hordered : LeaveRoom low high) (hlow : Beyond x .min low relation) :
    ¬ Beyond x .max high other := by
  intro hhigh
  obtain ⟨hle, hlt⟩ := hordered
  cases hlow with
  | below h =>
    cases hhigh with
    | above h' => exact absurd (h'.trans h) (not_lt.mpr hle)
    | atLeast h' => exact absurd (h'.trans_lt h) (not_lt.mpr hle)
  | atMost h =>
    cases hhigh with
    | above h' => exact absurd (h'.trans_le h) (not_lt.mpr hle)
    | atLeast h' => exact absurd (h'.trans h) (not_le.mpr (hlt (.inl rfl)))

lemma boundsPart_finds (h : AdmitsLegal rule admission legal)
    (hlegal : BoundsLegal LeaveRoom rule.min rule.max legal find)
    (hmeasured : rule.measured value = some target) :
    BoundsFind rule.measure rule.min rule.max find target.toRat
      (finds (boundsPart rule admission find) value) := by
  have hmin := soundBound_eq_some_iff h .min hlegal.min
  have hmax := soundBound_eq_some_iff h .max hlegal.max
  have hsupplements : ∀ min max : Option Bound,
      (min.toList.map (boundSupplement rule .min) ++
          max.toList.map (boundSupplement rule .max)).flatMap (fun supplement => supplement value) =
      min.toList.flatMap (fun bound => boundSupplement rule .min bound value) ++
        max.toList.flatMap fun bound => boundSupplement rule .max bound value := by
    intro min max
    rw [List.flatMap_append, List.flatMap_map, List.flatMap_map]
  rw [finds, boundsPart, hsupplements]
  generalize soundBound rule admission .min find = min at hmin ⊢
  generalize soundBound rule admission .max find = max at hmax ⊢
  have hwithin : ∀ {side : Side} {found : Option Bound},
      (∀ bound relation, found = some bound → ¬ Beyond target.toRat side bound relation) →
        found.toList.flatMap (fun bound => boundSupplement rule side bound value) = [] := by
    intro side found hno
    cases found with
    | none => rfl
    | some bound =>
      have hbound := boundSupplement_within hmeasured fun relation => hno bound relation rfl
      rw [Option.toList_some, List.flatMap_singleton, hbound]
  by_cases hbelow : ∃ low relation, min = some low ∧ Beyond target.toRat .min low relation
  · obtain ⟨low, relation, rfl, hbeyond⟩ := hbelow
    have hset := (hmin low).mp rfl
    have hother : ∀ bound relation, max = some bound → ¬ Beyond target.toRat .max bound relation :=
      fun bound relation he =>
        beyond_once (hlegal.ordered low bound hset ((hmax bound).mp he)) hbeyond
    rw [hwithin hother, Option.toList_some, List.flatMap_singleton,
      boundSupplement_beyond hmeasured hbeyond, List.append_nil]
    exact .below hset hbeyond fun bound relation he => hother bound relation ((hmax bound).mpr he)
  have hno : ∀ bound relation, min = some bound → ¬ Beyond target.toRat .min bound relation :=
    fun bound relation he hbeyond => hbelow ⟨bound, relation, he, hbeyond⟩
  rw [hwithin hno, List.nil_append]
  by_cases habove : ∃ high relation, max = some high ∧ Beyond target.toRat .max high relation
  · obtain ⟨high, relation, rfl, hbeyond⟩ := habove
    rw [Option.toList_some, List.flatMap_singleton, boundSupplement_beyond hmeasured hbeyond]
    exact .above ((hmax high).mp rfl) hbeyond fun bound relation he =>
      hno bound relation ((hmin bound).mpr he)
  · have hnone : ∀ bound relation, max = some bound → ¬ Beyond target.toRat .max bound relation :=
      fun bound relation he hbeyond => habove ⟨bound, relation, he, hbeyond⟩
    rw [hwithin hnone]
    exact .within (fun bound relation he => hno bound relation ((hmin bound).mpr he))
      fun bound relation he => hnone bound relation ((hmax bound).mpr he)

lemma boundsPart_unmeasured (hmeasured : rule.measured value = none) :
    finds (boundsPart rule admission find) value = [] := by
  have hnone : ∀ side bound, boundSupplement rule side bound value = [] := by
    intro side bound
    rw [boundSupplement, hmeasured]
  simp [finds, boundsPart, List.flatMap_append, List.flatMap_map, hnone]

lemma sets_legal {keys : BoundKeys} (h : SideLegal keys legal find) {bound : Bound}
    (hset : Sets keys find bound) : ∃ value, legal value := by
  cases hset with
  | inclusive hvalue => exact ⟨_, h.values _ List.mem_cons_self _ hvalue⟩
  | exclusive hkey hvalue =>
    have hmem : _ ∈ sideKeys keys := List.mem_cons_of_mem _ (by rw [hkey]; exact List.mem_cons_self)
    exact ⟨_, h.values _ hmem _ hvalue⟩

lemma boundsPart_unset (h : AdmitsLegal rule admission legal)
    (hlegal : BoundsLegal LeaveRoom rule.min rule.max legal find) (hno : ∀ value, ¬ legal value) :
    finds (boundsPart rule admission find) value = [] := by
  have hnone : ∀ side, SideLegal (rule.keys side) legal find →
      soundBound rule admission side find = none := by
    intro side hside
    by_contra hsome
    obtain ⟨bound, hbound⟩ := Option.ne_none_iff_exists'.mp hsome
    have hset := (soundBound_eq_some_iff h side hside bound).mp hbound
    obtain ⟨other, hother⟩ := sets_legal hside hset
    exact hno other hother
  rw [finds, boundsPart, hnone .min hlegal.min, hnone .max hlegal.max]
  rfl

end Bounds

section Forms

variable {engine : PatternEngine} {members checks : Members} {type : Primitive} {find : Lookup}
  {value : Json}

lemma finds_joined (part other : Contribution) :
    finds (joined part other) value = finds part value ++ finds other value := by
  simp [finds, joined]

lemma finds_checkPart {key : String} {check : Json → Except SchemaFault Supplement} :
    finds (checkPart key check find) value =
      ((find key).bind fun asked => (check asked).toOption).elim [] fun supplement =>
        supplement value := by
  unfold checkPart finds
  cases find key with
  | none => rfl
  | some asked =>
    rw [Option.map_some, Option.bind_some]
    cases check asked with
    | ok supplement => exact List.flatMap_singleton ..
    | error fault => rfl

lemma patternCheck_ok {asked : Json} (h : IsPattern engine asked) : ∃ text pattern,
    asked = .string text ∧ engine.compile text = .ok pattern ∧
      patternCheck engine .string asked = .ok (patternSupplement engine text pattern) := by
  obtain ⟨text, pattern, rfl, hpattern⟩ := h
  exact ⟨text, pattern, rfl, hpattern, by simp [patternCheck, hpattern]⟩

lemma pattern_finds {s : String}
    (h : ∀ value, find "pattern" = some value → IsPattern engine value) :
    PatternFinds engine find s
      (finds (checkPart "pattern" (patternCheck engine .string) find) (.string s)) := by
  rw [finds_checkPart]
  cases hvalue : find "pattern" with
  | none => exact .matching fun text pattern he => nomatch hvalue.symm.trans he
  | some value =>
    obtain ⟨text, pattern, rfl, hpattern, hcheck⟩ := patternCheck_ok (h value hvalue)
    simp only [Option.bind_some, hcheck, Except.toOption, Option.elim_some, patternSupplement]
    by_cases hfound : engine.isFoundIn pattern s = true
    · rw [if_pos hfound]
      refine .matching fun other found htext hother => ?_
      cases hvalue.symm.trans htext
      cases hpattern.symm.trans hother
      exact hfound
    · rw [if_neg hfound]
      exact .mismatch hvalue hpattern (Bool.eq_false_iff.mpr hfound)

lemma pattern_unapplied (h : type ≠ .string ∨ value.string? = none) :
    finds (checkPart "pattern" (patternCheck engine type) find) value = [] := by
  rw [finds_checkPart]
  cases find "pattern" with
  | none => rfl
  | some asked =>
    rw [Option.bind_some]
    cases hcheck : patternCheck engine type asked with
    | error fault => rfl
    | ok supplement =>
      obtain ⟨rfl, hasked⟩ := patternCheck_ok_iff.mp ⟨supplement, hcheck⟩
      obtain ⟨text, pattern, -, -, hpattern⟩ := patternCheck_ok hasked
      cases hpattern.symm.trans hcheck
      cases value with
      | string s => exact absurd (h.resolve_left (not_not.mpr rfl)) (Option.some_ne_none s)
      | _ => rfl

lemma multipleCheck_ok {asked : Json} (hinteger : type.isInteger = true) (h : IsDivisor asked) :
    ∃ divisor, asked = .number divisor ∧
      multipleCheck type asked = .ok (multipleSupplement divisor.toBinary64) := by
  obtain ⟨divisor, rfl, hwhole⟩ := h
  have hnumeric : type.isNumeric = true := by rw [Primitive.isNumeric, hinteger]; rfl
  exact ⟨divisor, rfl, by simp [multipleCheck, hnumeric, hinteger, hwhole]⟩

lemma multiple_finds {n : Number}
    (h : ∀ value, find "multipleOf" = some value → type.isInteger = true ∧ IsDivisor value) :
    MultipleFinds find n
      (finds (checkPart "multipleOf" (multipleCheck type) find) (.number n)) := by
  rw [finds_checkPart]
  cases hvalue : find "multipleOf" with
  | none => exact .multiple fun divisor he => nomatch hvalue.symm.trans he
  | some value =>
    obtain ⟨hinteger, hdivisor⟩ := h value hvalue
    obtain ⟨divisor, rfl, hcheck⟩ := multipleCheck_ok hinteger hdivisor
    simp only [Option.bind_some, hcheck, Except.toOption, Option.elim_some, multipleSupplement]
    by_cases hrest : n.toBinary64.rem? divisor.toBinary64 = some 0
    · rw [if_pos hrest]
      refine .multiple fun other hother => ?_
      cases hvalue.symm.trans hother
      exact hrest
    · rw [if_neg hrest]
      exact .rest hvalue hrest

lemma multiple_unapplied (h : value.number? = none) :
    finds (checkPart "multipleOf" (multipleCheck type) find) value = [] := by
  rw [finds_checkPart]
  cases find "multipleOf" with
  | none => rfl
  | some asked =>
    rw [Option.bind_some]
    cases hcheck : multipleCheck type asked with
    | error fault => rfl
    | ok supplement =>
      obtain ⟨hinteger, hasked⟩ := multipleCheck_ok_iff.mp ⟨supplement, hcheck⟩
      obtain ⟨divisor, -, hdivisor⟩ := multipleCheck_ok hinteger hasked
      cases hdivisor.symm.trans hcheck
      cases value with
      | number n => exact absurd h (Option.some_ne_none n)
      | _ => rfl

lemma measured_value (n : Number) (htype : type ≠ .timestamp) :
    (valueRule type).measured (.number n) = some n.toBinary64 := by
  rw [valueRule]
  dsimp only
  rw [if_neg htype, numberValue?]

lemma measured_nothing (hstring : value.string? = none) (hnumber : value.number? = none) :
    lengthRule.measured value = none ∧ (valueRule type).measured value = none := by
  have htimestamp : timestampValue? value = none := by
    cases value with
    | string s => cases hstring
    | _ => rfl
  have hvalue : numberValue? value = none := by
    cases value with
    | number n => cases hnumber
    | _ => rfl
  refine ⟨?_, ?_⟩
  · cases value with
    | string s => cases hstring
    | _ => rfl
  · rw [valueRule]
    dsimp only
    split_ifs
    · exact htimestamp
    · exact hvalue

lemma typePart_finds_eq : finds (typePart engine type find) value =
    finds (boundsPart lengthRule (lengthAdmission type) find) value ++
      (finds (checkPart "pattern" (patternCheck engine type) find) value ++
        (finds (boundsPart (valueRule type) (valueAdmission type) find) value ++
          finds (checkPart "multipleOf" (multipleCheck type) find) value)) := by
  rw [typePart, finds_joined, finds_joined, finds_joined]

lemma typePart_finds (htype : typeOf? members = some type)
    (hpart : (typePart engine type checks.get?).faults = []) (hof : isOfType type value = true) :
    ChecksFind engine members checks .type value
      (finds (typePart engine type checks.get?) value) := by
  obtain ⟨hlength, hpattern, hvalue, hmultiple⟩ := typePart_faults_eq_nil_iff.mp hpart
  have hunlimited : type ≠ .string →
      finds (boundsPart lengthRule (lengthAdmission type) checks.get?) value = [] :=
    fun hno => boundsPart_unset (admits_length type) hlength fun _ h => hno h.1
  rw [typePart_finds_eq]
  cases value with
  | null | array | object => cases hof
  | bool b =>
    obtain ⟨hnolength, hnovalue⟩ : lengthRule.measured (.bool b) = none ∧ _ :=
      measured_nothing rfl rfl
    rw [boundsPart_unmeasured hnolength, boundsPart_unmeasured hnovalue,
      pattern_unapplied (.inr rfl), multiple_unapplied rfl]
    exact .boolean (by rw [htype, beq_iff_eq.mp hof])
  | number n =>
    have hnumeric : type.isNumeric = true := by
      unfold isOfType at hof
      cases type <;> first | rfl | cases hof
    have htimestamp : type ≠ .timestamp := by
      rintro rfl
      cases hnumeric
    have hstring : type ≠ .string := by
      rintro rfl
      cases hnumeric
    rw [hunlimited hstring, pattern_unapplied (.inr rfl), List.nil_append, List.nil_append]
    exact .number htype hnumeric
      (boundsPart_finds (admits_value type) hvalue (measured_value n htimestamp))
      (multiple_finds hmultiple)
  | string s =>
    rw [multiple_unapplied rfl, List.append_nil]
    by_cases hstring : type = .string
    · subst hstring
      have hnovalue : (valueRule .string).measured (.string s) = none := rfl
      rw [boundsPart_unmeasured hnovalue, List.append_nil]
      exact .string htype (boundsPart_finds (admits_length .string) hlength rfl)
        (pattern_finds fun value hv => (hpattern value hv).2)
    · have htimestamp : type = .timestamp ∧ Timestamp.isTimestamp s = true := by
        simpa [isOfType, hstring] using hof
      obtain ⟨rfl, hs⟩ := htimestamp
      rw [← millisOf?_isSome] at hs
      obtain ⟨millis, hmillis⟩ := Option.isSome_iff_exists.mp hs
      rw [hunlimited hstring, pattern_unapplied (.inl hstring), List.nil_append, List.nil_append]
      exact .timestamp htype hmillis (boundsPart_finds (admits_value .timestamp) hvalue hmillis)

end Forms

section Nodes

variable {engine : PatternEngine} {options : Options} {document : Json} {validator : Validator}
  {node : Node} {members : Members} {value : Json}

lemma supplementErrors_eq (node : Node) (place : Path) (value : Json) :
    supplementErrors node place value =
      (finds { supplements := node.supplements } value).map fun violation =>
        ⟨node.supplementPath, place, violation⟩ := by
  rw [supplementErrors, finds, List.map_flatMap]

end Nodes

end JsonTypeDefinition.Proofs
