import JsonTypeDefinition.Proofs.EnforcedChecks

/-!
# Extensions and the order of keys

The extensions of the library add the same supplements to schema objects with their keys in another
order, and fault either both or neither. The supplements do not look at the order of keys either.
-/

namespace JsonTypeDefinition.Proofs
open Checks

/-- A supplement finds the same in values that are equal up to the order of keys. -/
def Orderless (supplement : Supplement) : Prop :=
  ∀ a b, Reordered a b → supplement b = supplement a

/-- Two contributions fault both or neither, and attach the same supplements. -/
structure SameContribution (part other : Contribution) : Prop where
  silent : part.faults = [] ↔ other.faults = []
  supplements : other.supplements = part.supplements
  orderless : ∀ supplement ∈ part.supplements, Orderless supplement

/-- Two look-ups have results that are equal up to the order of keys. -/
def SameLookup (find other : Lookup) : Prop :=
  ∀ key, Option.Rel Reordered (find key) (other key)

section Bounds

variable {rule : BoundRule} {admission : Admission} {find other : Lookup}

def OrderlessAdmission (admission : Admission) : Prop :=
  ∀ side a b, Reordered a b → admission side b = admission side a

lemma limitOf_reordered (h : OrderlessAdmission admission) (side : Side) {a b : Json}
    (hab : Reordered a b) : limitOf rule admission side b = limitOf rule admission side a := by
  have hadmission := h side a b hab
  unfold limitOf
  rw [hadmission]
  cases hab <;> rfl

lemma boundIn_reordered (h : SameLookup find other) (keys : BoundKeys) :
    Option.Rel (fun bound reordered => Reordered bound.1 reordered.1 ∧ reordered.2 = bound.2)
      (boundIn keys find) (boundIn keys other) := by
  have hexclusive : Option.Rel Reordered (keys.exclusive.bind find)
      (keys.exclusive.bind other) := by
    cases keys.exclusive with
    | none => exact .none
    | some key => exact h key
  unfold boundIn
  generalize keys.exclusive.bind find = first at hexclusive ⊢
  generalize keys.exclusive.bind other = second at hexclusive ⊢
  cases hexclusive with
  | some hab => exact .some ⟨hab, rfl⟩
  | none =>
    have hinclusive := h keys.inclusive
    generalize find keys.inclusive = first at hinclusive ⊢
    generalize other keys.inclusive = second at hinclusive ⊢
    cases hinclusive with
    | none => exact .none
    | some hab => exact .some ⟨hab, rfl⟩

lemma twiceFaults_reordered (h : SameLookup find other) (side : Side) :
    twiceFaults rule side other = twiceFaults rule side find := by
  have hsome : ∀ key, (other key).isSome = (find key).isSome :=
    fun key => found_reordered Option.isSome (fun _ _ _ => rfl) (h key)
  unfold twiceFaults
  rw [hsome]
  cases (rule.keys side).exclusive with
  | none => rfl
  | some key => rw [Option.bind_some, Option.bind_some, hsome]

lemma side_reordered (rule : BoundRule) (hadmission : OrderlessAdmission admission)
    (h : SameLookup find other) (side : Side) :
    soundBound rule admission side other = soundBound rule admission side find ∧
      sideFaults rule admission side other = sideFaults rule admission side find := by
  have hbound := boundIn_reordered h (rule.keys side)
  unfold soundBound sideFaults
  rw [twiceFaults_reordered h]
  generalize boundIn (rule.keys side) find = first at hbound ⊢
  generalize boundIn (rule.keys side) other = second at hbound ⊢
  cases hbound with
  | none => exact ⟨rfl, rfl⟩
  | @some bound reordered hab =>
    obtain ⟨a, exclusive⟩ := bound
    obtain ⟨b, exclusive'⟩ := reordered
    obtain ⟨hab, rfl⟩ := hab
    have hlimit : limitOf rule admission side b = limitOf rule admission side a :=
      limitOf_reordered hadmission side hab
    simp only [Option.bind_some, Option.elim_some, limitFaults, hlimit, and_self]

lemma boundsPart_reordered (hadmission : OrderlessAdmission admission) (h : SameLookup find other) :
    boundsPart rule admission other = boundsPart rule admission find := by
  obtain ⟨hmin, hminFaults⟩ := side_reordered rule hadmission h .min
  obtain ⟨hmax, hmaxFaults⟩ := side_reordered rule hadmission h .max
  rw [boundsPart, boundsPart, hmin, hmax, hminFaults, hmaxFaults]

lemma boundSupplement_orderless (hmeasured : ∀ a b, Reordered a b →
    rule.measured b = rule.measured a) (side : Side) (bound : Bound) :
    Orderless (boundSupplement rule side bound) := by
  intro a b hab
  rw [boundSupplement, boundSupplement, hmeasured a b hab]

lemma boundsPart_orderless (hmeasured : ∀ a b, Reordered a b → rule.measured b = rule.measured a) :
    ∀ supplement ∈ (boundsPart rule admission find).supplements, Orderless supplement := by
  intro supplement hs
  rcases List.mem_append.mp hs with hs | hs
  · obtain ⟨bound, -, rfl⟩ := List.mem_map.mp hs
    exact boundSupplement_orderless hmeasured .min bound
  · obtain ⟨bound, -, rfl⟩ := List.mem_map.mp hs
    exact boundSupplement_orderless hmeasured .max bound

end Bounds

section Forms

variable {engine : PatternEngine} {members others : Members} {find other : Lookup}
  {type : Primitive}

lemma anyBound_orderless : OrderlessAdmission anyBound :=
  fun _ _ _ _ => rfl

lemma lengthAdmission_orderless (type : Primitive) : OrderlessAdmission (lengthAdmission type) :=
  fun _ _ _ _ => rfl

lemma valueAdmission_orderless (type : Primitive) : OrderlessAdmission (valueAdmission type) := by
  intro side a b hab
  cases hab <;> rfl

lemma patternCheck_reordered {a b : Json} (hab : Reordered a b) :
    patternCheck engine type b = patternCheck engine type a := by
  cases hab <;> rfl

lemma multipleCheck_reordered {a b : Json} (hab : Reordered a b) :
    multipleCheck type b = multipleCheck type a := by
  cases hab <;> rfl

lemma checkPart_reordered {key : String} {check : Json → Except SchemaFault Supplement}
    (hcheck : ∀ a b, Reordered a b → check b = check a) (h : SameLookup find other) :
    checkPart key check other = checkPart key check find := by
  have hasked : (other key).map check = (find key).map check :=
    found_reordered (Option.map check) (fun a b hab => congrArg some (hcheck a b hab)) (h key)
  rw [checkPart, checkPart, hasked]

lemma flag_reordered (h : SameLookup find other) (key : String) :
    (other key).any Json.isTruthy = (find key).any Json.isTruthy :=
  found_reordered (Option.any Json.isTruthy)
    (fun _ _ hab => (sameOutside_of_reordered hab).truthy) (h key)

lemma string_reordered (h : Reordered (.object members) (.object others)) (key : String) :
    (others.get? key).bind Json.string? = (members.get? key).bind Json.string? :=
  found_reordered (Option.bind · Json.string?)
    (fun _ _ hab => (sameOutside_of_reordered hab).string) (get?_reordered h key)

lemma typeOf?_reordered (h : Reordered (.object members) (.object others)) :
    typeOf? others = typeOf? members := by
  rw [typeOf?, typeOf?, string_reordered h]

lemma formPart_reordered (engine : PatternEngine)
    (h : Reordered (.object members) (.object others)) (hfind : SameLookup find other)
    (form : Form) :
    formPart engine form others other = formPart engine form members find := by
  cases form with
  | type =>
    rw [formPart, formPart, typeOf?_reordered h]
    cases typeOf? members with
    | none => rfl
    | some type =>
      simp only [Option.elim_some, typePart,
        boundsPart_reordered (lengthAdmission_orderless type) hfind,
        boundsPart_reordered (valueAdmission_orderless type) hfind,
        checkPart_reordered (fun a b => patternCheck_reordered) hfind,
        checkPart_reordered (fun a b => multipleCheck_reordered) hfind]
  | elements =>
    simp only [formPart, elementsPart, boundsPart_reordered anyBound_orderless hfind,
      flag_reordered hfind]
  | properties => exact boundsPart_reordered anyBound_orderless hfind
  | values => exact boundsPart_reordered anyBound_orderless hfind
  | _ => rfl

lemma uniqueSupplement_orderless : Orderless uniqueSupplement := by
  intro a b hab
  cases hab with
  | array hlength hitems =>
    rw [uniqueSupplement, uniqueSupplement, allDistinct_reordered (.array hlength hitems)]
  | _ => rfl

lemma memberCount_reordered {a b : Json} (hab : Reordered a b) :
    memberCount? b = memberCount? a := by
  cases hab with
  | object hnodup hkeys hvalues =>
    rw [memberCount?, memberCount?, length_reordered (.object hnodup hkeys hvalues)]
  | _ => rfl

lemma itemCount_reordered {a b : Json} (hab : Reordered a b) : itemCount? b = itemCount? a := by
  cases hab with
  | array hlength => rw [itemCount?, itemCount?, hlength]
  | _ => rfl

lemma checkPart_orderless {key : String} {check : Json → Except SchemaFault Supplement}
    (h : ∀ value supplement, check value = .ok supplement → Orderless supplement) :
    ∀ supplement ∈ (checkPart key check find).supplements, Orderless supplement := by
  unfold checkPart
  cases find key with
  | none => exact List.forall_mem_nil _
  | some value =>
    rw [Option.map_some]
    cases hcheck : check value with
    | error fault => exact List.forall_mem_nil _
    | ok supplement => exact List.forall_mem_singleton.mpr (h value supplement hcheck)

lemma scalar_orderless {supplement : Supplement}
    (h : ∀ a, a.array?.isSome ∨ a.object?.isSome → supplement a = []) : Orderless supplement := by
  intro a b hab
  cases hab with
  | array => rw [h _ (.inl rfl), h _ (.inl rfl)]
  | object => rw [h _ (.inr rfl), h _ (.inr rfl)]
  | _ => rfl

lemma patternCheck_orderless {value : Json} {supplement : Supplement}
    (h : patternCheck engine type value = .ok supplement) : Orderless supplement := by
  obtain ⟨rfl, hvalue⟩ := patternCheck_ok_iff.mp ⟨supplement, h⟩
  obtain ⟨text, pattern, -, -, hpattern⟩ := patternCheck_ok hvalue
  cases hpattern.symm.trans h
  refine scalar_orderless fun a ha => ?_
  cases a with
  | string s => rcases ha with ha | ha <;> cases ha
  | _ => rfl

lemma multipleCheck_orderless {value : Json} {supplement : Supplement}
    (h : multipleCheck type value = .ok supplement) : Orderless supplement := by
  obtain ⟨hinteger, hvalue⟩ := multipleCheck_ok_iff.mp ⟨supplement, h⟩
  obtain ⟨divisor, -, hdivisor⟩ := multipleCheck_ok hinteger hvalue
  cases hdivisor.symm.trans h
  refine scalar_orderless fun a ha => ?_
  cases a with
  | number n => rcases ha with ha | ha <;> cases ha
  | _ => rfl

lemma length_measured {a b : Json} (hab : Reordered a b) :
    lengthRule.measured b = lengthRule.measured a := by
  cases hab <;> rfl

lemma value_measured {a b : Json} (hab : Reordered a b) :
    (valueRule type).measured b = (valueRule type).measured a := by
  unfold valueRule
  dsimp only
  split_ifs <;> cases hab <;> rfl

lemma joined_orderless {part other : Contribution}
    (hpart : ∀ supplement ∈ part.supplements, Orderless supplement)
    (hother : ∀ supplement ∈ other.supplements, Orderless supplement) :
    ∀ supplement ∈ (joined part other).supplements, Orderless supplement :=
  fun supplement hs => (List.mem_append.mp hs).elim (hpart supplement) (hother supplement)

lemma formPart_orderless (form : Form) (members : Members) (find : Lookup) :
    ∀ supplement ∈ (formPart engine form members find).supplements, Orderless supplement := by
  cases form with
  | type =>
    rw [formPart]
    cases typeOf? members with
    | none => exact List.forall_mem_nil _
    | some type =>
      have hlength : ∀ supplement ∈ (boundsPart lengthRule (lengthAdmission type) find).supplements,
          Orderless supplement := boundsPart_orderless fun a b => length_measured
      have hvalue : ∀ supplement ∈ (boundsPart (valueRule type) (valueAdmission type)
          find).supplements, Orderless supplement := boundsPart_orderless fun a b => value_measured
      refine joined_orderless hlength (joined_orderless (checkPart_orderless ?_) ?_)
      · exact fun value supplement => patternCheck_orderless
      · refine joined_orderless hvalue (checkPart_orderless ?_)
        exact fun value supplement => multipleCheck_orderless
  | elements =>
    refine joined_orderless (boundsPart_orderless fun a b => itemCount_reordered) ?_
    dsimp only
    split_ifs
    · exact List.forall_mem_singleton.mpr uniqueSupplement_orderless
    · exact List.forall_mem_nil _
  | properties => exact boundsPart_orderless fun a b => memberCount_reordered
  | values => exact boundsPart_orderless fun a b => memberCount_reordered
  | _ => exact List.forall_mem_nil _

end Forms

section Hooks

variable {engine : PatternEngine} {members others : Members} {form : Form}

def OrderlessHook (hook : Hook) : Prop :=
  ∀ (members others : Members) path, Reordered (.object members) (.object others) →
    SameContribution (hook members path) (hook others path)

lemma sameContribution_self {part : Contribution}
    (h : ∀ supplement ∈ part.supplements, Orderless supplement) : SameContribution part part :=
  ⟨Iff.rfl, rfl, h⟩

lemma onlyKeys_reordered {checks other : Members}
    (h : Reordered (.object checks) (.object other)) (keys : List String) :
    OnlyKeys other keys ↔ OnlyKeys checks keys := by
  simp only [OnlyKeys, (keys_reordered h).2.2.mem_iff]

lemma knownKeys_reordered (h : Reordered (.object members) (.object others)) (form : Form) :
    knownKeys form others = knownKeys form members := by
  cases form with
  | type => rw [knownKeys, knownKeys, typeOf?_reordered h]
  | _ => rfl

lemma checks_reordered (h : Reordered (.object members) (.object others)) {checks other : Members}
    (hchecks : Reordered (.object checks) (.object other))
    (ha : members.get? Checks.key = some (.object checks))
    (hb : others.get? Checks.key = some (.object other)) (form : Form) (path : Path) :
    SameContribution (hook (readForm engine form) members path)
      (hook (readForm engine form) others path) := by
  have hpart := formPart_reordered engine h (get?_reordered hchecks) form
  rw [hook_reads engine form members checks path ha,
    hook_reads engine form others other path hb, hpart]
  refine ⟨?_, rfl, joined_orderless (formPart_orderless form members _) (List.forall_mem_nil _)⟩
  simp only [joined, List.append_eq_nil_iff, surplusFaults_eq_nil_iff, knownKeys_reordered h,
    onlyKeys_reordered hchecks]

lemma checksHook_orderless (form : Form) : OrderlessHook (hook (readForm engine form)) := by
  intro members others path h
  have hkey := get?_reordered h Checks.key
  have hsame : ∀ part, (∀ supplement ∈ part.supplements, Orderless supplement) →
      hook (readForm engine form) members path = part →
      hook (readForm engine form) others path = part →
      SameContribution (hook (readForm engine form) members path)
        (hook (readForm engine form) others path) :=
    fun part horderless ha hb => by
      rw [ha, hb]
      exact sameContribution_self horderless
  generalize ha : members.get? Checks.key = first at hkey
  generalize hb : others.get? Checks.key = second at hkey
  cases hkey with
  | none => exact hsame {} (List.forall_mem_nil _) (by rw [hook, ha]) (by rw [hook, hb])
  | some hvalue =>
    cases hvalue with
    | object hnodup hkeys hvalues =>
      exact checks_reordered h (.object hnodup hkeys hvalues) ha hb form path
    | _ =>
      exact hsame { faults := [.checksNotObject] } (List.forall_mem_nil _) (by rw [hook, ha])
        (by rw [hook, hb])

lemma leapSeconds_orderless : Orderless LeapSeconds.supplement := by
  intro a b hab
  cases hab <;> rfl

lemma leapSecondsHook_orderless : OrderlessHook LeapSeconds.hook := by
  intro members others path h
  have hhook : LeapSeconds.hook others path = LeapSeconds.hook members path := by
    rw [LeapSeconds.hook, LeapSeconds.hook, string_reordered h]
  rw [hhook]
  refine sameContribution_self ?_
  unfold LeapSeconds.hook
  split_ifs
  · exact List.forall_mem_singleton.mpr leapSeconds_orderless
  · exact List.forall_mem_nil _

lemma emptyMappingsHook_orderless : OrderlessHook EmptyMappings.hook := by
  intro members others path h
  have hhook : EmptyMappings.hook others path = EmptyMappings.hook members path := by
    have hkey := get?_reordered h "mapping"
    unfold EmptyMappings.hook
    generalize members.get? "mapping" = first at hkey ⊢
    generalize others.get? "mapping" = second at hkey ⊢
    cases hkey with
    | none => rfl
    | some hvalue =>
      cases hvalue with
      | @object entries more hnodup hkeys hvalues =>
        have hlength := length_reordered (.object hnodup hkeys hvalues)
        cases entries <;> cases more <;> first | rfl | cases hlength
      | _ => rfl
  rw [hhook]
  refine sameContribution_self ?_
  unfold EmptyMappings.hook
  split <;> exact List.forall_mem_nil _

lemma libraryHooks_orderless {extension : Extension} (he : extension ∈ libraryExtensions engine)
    {hook : Hook} (hh : (form, hook) ∈ extension.hooks) : OrderlessHook hook := by
  simp only [libraryExtensions, List.mem_cons, List.not_mem_nil, or_false] at he
  rcases he with rfl | rfl | rfl
  · simp only [EmptyMappings.extension, List.mem_singleton, Prod.mk.injEq] at hh
    rw [hh.2]
    exact emptyMappingsHook_orderless
  · simp only [LeapSeconds.extension, List.mem_singleton, Prod.mk.injEq] at hh
    rw [hh.2]
    exact leapSecondsHook_orderless
  · obtain ⟨other, -, ho⟩ := List.mem_map.mp hh
    cases ho
    exact checksHook_orderless form

theorem contribution_reordered {options : Options}
    (hlibrary : ∀ extension ∈ options.extensions, extension ∈ libraryExtensions engine)
    (h : Reordered (.object members) (.object others)) (form : Form) (path : Path) :
    SameContribution (options.contribution form members path)
      (options.contribution form others path) := by
  have hparts : ∀ hook ∈ options.hooksFor form,
      SameContribution (hook members path) (hook others path) := by
    intro hook hm
    obtain ⟨extension, hx, hh⟩ := mem_hooksFor hm
    exact libraryHooks_orderless (hlibrary extension hx) hh members others path h
  refine ⟨?_, ?_, fun supplement hs => ?_⟩
  · simp only [Options.contribution, List.flatMap_eq_nil_iff, List.forall_mem_map]
    exact forall₂_congr fun hook hm => (hparts hook hm).silent
  · simp only [Options.contribution, List.flatMap_map]
    exact List.flatMap_congr fun hook hm => (hparts hook hm).supplements
  · obtain ⟨part, hpart, hs⟩ := List.mem_flatMap.mp hs
    obtain ⟨hook, hm, rfl⟩ := List.mem_map.mp hpart
    exact (hparts hook hm).orderless supplement hs

end Hooks

end JsonTypeDefinition.Proofs
