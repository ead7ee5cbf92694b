import JsonTypeDefinition.Proofs.Grammar

/-!
# Which documents compile

Each check of a compilation is silent just where the grammar is kept to. Over all schemas this
makes `errorsOf` empty on well-formed schemas and on no others.
-/

open Relation

namespace JsonTypeDefinition.Proofs

section Keys

variable {position : Position} {form : Form} {members : Members}

lemma declaresProperty_eq_false_iff {name : String} :
    Compile.declaresProperty members name = false ↔
      ∀ key ∈ ["properties", "optionalProperties"], ∀ entries : Members,
        members.get? key = some (.object entries) → name ∉ Members.keys entries := by
  rw [Compile.declaresProperty, List.any_eq_false]
  refine forall₂_congr fun key _ => ?_
  split
  · rename_i properties hp
    rw [hp, has_iff_mem_keys]
    constructor
    · intro h entries he
      cases he
      exact h
    · exact fun h => h properties rfl
  · rename_i hno
    simp only [Bool.false_eq_true, not_false_eq_true, true_iff]
    exact fun entries he => absurd he (hno entries)

lemma flagFaults_eq_nil_iff {key : String} {fault : Json.Kind → SchemaFault} :
    Compile.flagFaults members key fault = [] ↔
      ∀ value, members.get? key = some value → ∃ b, value = .bool b := by
  unfold Compile.flagFaults
  cases members.get? key with
  | none => simp
  | some value => cases value <;> simp

lemma commonFaults_eq_nil_iff :
    Compile.commonFaults (KeyGroups.sortedFor form (Members.keys members) []) members = [] ↔
      (∀ key ∈ Members.keys members, (Form.ofKey? key).isSome ∨ KeyGroups.hasRole form key) ∧
        ∀ value, members.get? "nullable" = some value → ∃ b, value = .bool b := by
  rw [Compile.commonFaults, List.append_eq_nil_iff, flagFaults_eq_nil_iff]
  refine and_congr_left fun _ => ?_
  simp only [KeyGroups.sortedFor, ite_eq_left_iff, List.isEmpty_iff, List.filter_eq_nil_iff]
  simp [or_iff_not_imp_left]

lemma placeFaults_eq_nil_iff :
    Compile.placeFaults position (KeyGroups.sortedFor form (Members.keys members) []) members = [] ↔
      (∀ tag, position = .mapping tag → IsEntry tag form members) ∧
        ("definitions" ∈ Members.keys members → position = .root) := by
  cases position with
  | mapping tag =>
    have hentry : IsEntry tag form members ↔ form = .properties ∧
        (∀ name, tag = some name → Compile.declaresProperty members name = false) ∧
          "nullable" ∉ Members.keys members := by
      simp only [declaresProperty_eq_false_iff]
      exact ⟨fun h => ⟨h.properties, h.undeclared, h.nullable⟩, fun h => ⟨h.1, h.2.2, h.2.1⟩⟩
    simp only [Position.mapping.injEq, forall_eq', hentry, Compile.placeFaults,
      KeyGroups.sortedFor, List.append_eq_nil_iff]
    by_cases hform : form = .properties
    · cases tag <;> simp [hform]
    · simp [hform]
  | root => simp [Compile.placeFaults]
  | definition => simp [Compile.placeFaults, KeyGroups.sortedFor]
  | nested => simp [Compile.placeFaults, KeyGroups.sortedFor]

lemma keysFit_iff (h : HasForm (Members.keys members) form) :
    KeysFit position form members ↔
      Compile.placeFaults position (KeyGroups.sortedFor form (Members.keys members) []) members ++
        Compile.commonFaults (KeyGroups.sortedFor form (Members.keys members) []) members = [] := by
  rw [List.append_eq_nil_iff, placeFaults_eq_nil_iff, commonFaults_eq_nil_iff]
  constructor
  · intro hfit
    refine ⟨⟨hfit.entry, fun hk => ?_⟩, fun key hk => ?_, hfit.nullable⟩
    · rcases hfit.allowed _ hk with hm | hm | hm | ⟨-, hm⟩ | ⟨hm, -⟩ | ⟨hm, -⟩
      · cases form <;> simp [formKeys] at hm
      · exact absurd hm (by decide)
      · exact absurd hm (by decide)
      · exact hm
      · exact absurd hm (by decide)
      · exact absurd hm (by decide)
    · rcases hfit.allowed key hk with hm | rfl | rfl | ⟨rfl, -⟩ | ⟨rfl, rfl⟩ | ⟨rfl, rfl⟩
      · exact .inl (by rw [ofKey?_eq_some_iff.mpr hm]; rfl)
      all_goals exact .inr (by simp [KeyGroups.hasRole])
  · rintro ⟨⟨hentry, hroot⟩, hroles, hnullable⟩
    refine ⟨fun key hk => ?_, fun hne => ?_, hnullable, hentry⟩
    · rcases hroles key hk with hs | hrole
      · obtain ⟨other, ho⟩ := Option.isSome_iff_exists.mp hs
        rw [h.only key hk other ho] at ho
        exact .inl (ofKey?_eq_some_iff.mp ho)
      · simp only [KeyGroups.hasRole, Bool.or_eq_true, Bool.and_eq_true, beq_iff_eq] at hrole
        rcases hrole with (((hn | hm) | hd) | ha) | hm
        · exact .inr (.inl hn)
        · exact .inr (.inr (.inl hm))
        · exact .inr (.inr (.inr (.inl ⟨hd, hroot (hd ▸ hk)⟩)))
        · exact .inr (.inr (.inr (.inr (.inl ha))))
        · exact .inr (.inr (.inr (.inr (.inr hm))))
    · obtain ⟨key, hk, ho⟩ := h.some_key hne
      exact ⟨key, hk, ofKey?_eq_some_iff.mp ho⟩

end Keys

section Values

lemma typeFaults_eq_nil_iff {value : Json} :
    typeFaults value = [] ↔
      ∃ name, value = .string name ∧ name ∈ Primitive.all.map Primitive.name := by
  cases value with
  | string name =>
    have hname : (Primitive.ofName? name).isSome ↔ name ∈ Primitive.all.map Primitive.name := by
      simp [Primitive.ofName?, List.mem_map]
    simp only [typeFaults, Json.string.injEq, exists_eq_left', ← hname]
    cases Primitive.ofName? name <;> simp
  | _ => simp [typeFaults]

lemma repeatedFrom_eq_nil_iff (variants earlier : List String) :
    Compile.repeatedVariants.go (earlier.map .string) (variants.map .string) = [] ↔
      variants.Nodup ∧ ∀ variant ∈ variants, variant ∉ earlier := by
  induction variants generalizing earlier with
  | nil => simp [Compile.repeatedVariants.go]
  | cons variant rest ih =>
    have hany : ((earlier.map Json.string).any fun other =>
        Compile.sameVariant other (.string variant)) = true ↔ variant ∈ earlier := by
      simp [List.any_map, Compile.sameVariant, Json.sameValue, Function.comp_def]
    have hrest := ih (variant :: earlier)
    rw [List.map_cons] at hrest
    simp only [List.map_cons, Compile.repeatedVariants.go, hany]
    by_cases hm : variant ∈ earlier
    · simp [hm]
    · rw [if_neg hm, hrest]
      simp only [List.nodup_cons, List.mem_cons, not_or, forall_eq_or_imp]
      grind

lemma all_strings_iff {variants : List Json} :
    (variants.any fun variant => variant.string?.isNone) = false ↔
      ∃ strings : List String, variants = strings.map .string := by
  induction variants with
  | nil => exact iff_of_true rfl ⟨[], rfl⟩
  | cons variant rest ih =>
    rw [List.any_cons, Bool.or_eq_false_iff, ih]
    constructor
    · rintro ⟨hv, strings, rfl⟩
      cases variant with
      | string s => exact ⟨s :: strings, rfl⟩
      | _ => cases hv
    · rintro ⟨strings, hs⟩
      cases strings with
      | nil => cases hs
      | cons s strings =>
        cases hs
        exact ⟨rfl, strings, rfl⟩

lemma enumFaults_eq_nil_iff {value : Json} :
    enumFaults value = [] ↔
      ∃ variants : List String, value = .array (variants.map .string) ∧ variants ≠ [] ∧
        variants.Nodup := by
  have hrepeated : ∀ strings : List String,
      Compile.repeatedVariants (strings.map .string) = [] ↔ strings.Nodup := by
    intro strings
    have h := repeatedFrom_eq_nil_iff strings []
    simpa [Compile.repeatedVariants] using h
  unfold enumFaults
  split
  · simp
  · rename_i variants hne
    rw [List.append_eq_nil_iff]
    constructor
    · rintro ⟨hany, hmatch⟩
      have hall : (variants.any fun variant => variant.string?.isNone) = false := by
        by_contra hsome
        rw [if_pos (by simpa using hsome)] at hany
        cases hany
      obtain ⟨strings, rfl⟩ := all_strings_iff.mp hall
      refine ⟨strings, rfl, ?_, (hrepeated strings).mp ?_⟩
      · rintro rfl
        exact hne rfl
      · split at hmatch
        · assumption
        · cases hmatch
    · rintro ⟨strings, he, -, hnodup⟩
      cases he
      rw [all_strings_iff.mpr ⟨strings, rfl⟩, (hrepeated strings).mpr hnodup]
      exact ⟨rfl, rfl⟩
  · rename_i hnil hno
    simp only [List.cons_ne_nil, false_iff, not_exists, not_and]
    exact fun strings he => absurd he (hno _)

lemma refFaults_eq_nil_iff {names : List String} {value : Json} :
    refFaults names value = [] ↔ ∃ name, value = .string name ∧ name ∈ names := by
  cases value <;> simp [refFaults]

lemma sectionFaults_eq_nil_iff {fault : Json.Kind → SchemaFault} {found : Option Json} :
    sectionFaults fault found = [] ↔ IsSection found (entriesIn found) := by
  unfold sectionFaults IsSection entriesIn
  rcases found with _ | value
  · simp
  · cases value <;> simp

lemma isSection_entriesIn {found : Option Json} {entries : Members}
    (h : IsSection found entries) : entries = entriesIn found := by
  rcases h with rfl | ⟨rfl, rfl⟩ <;> rfl

lemma sharedFaults_eq_nil_iff {required optional : List String} :
    sharedFaults required optional = [] ↔ List.Disjoint required optional := by
  have hfilter : optional.filter required.contains = [] ↔ List.Disjoint required optional := by
    rw [List.filter_eq_nil_iff, List.disjoint_right]
    simp
  unfold sharedFaults
  rw [← hfilter]
  split
  · simp_all
  · simp_all

lemma discriminatorFaults_eq_nil_iff {members : Members} :
    Compile.discriminatorFaults members = [] ↔
      ∃ tag, members.get? "discriminator" = some (.string tag) := by
  have hfield : ∀ tag, Compile.field members "discriminator" = .string tag ↔
      members.get? "discriminator" = some (.string tag) := fun tag => field_eq_iff (by simp)
  unfold Compile.discriminatorFaults
  simp only [← hfield]
  split
  · rename_i tag htag
    exact iff_of_true rfl ⟨tag, htag⟩
  · rename_i hno
    exact iff_of_false (List.cons_ne_nil _ _) fun ⟨tag, htag⟩ => hno tag htag

lemma mappingFaults_eq_nil_iff {found : Option Json} :
    mappingFaults found = [] ↔ ∃ entries, found = some (.object entries) := by
  unfold mappingFaults
  rcases found with _ | value
  · simp
  · cases value <;> simp

end Values

section Levels

variable {names : List String} {members : Members}

/-- What the induction assumes of the values below a schema object. -/
def AcceptedBelow (names : List String) (members : Members) : Prop :=
  ∀ value, sizeOf value < sizeOf (Json.object members) → distinctKeys value → ∀ position path,
    errorsOf ⟨{}, names⟩ position path value = [] ↔ WellFormed names position value

lemma errorsOfSub_eq_nil_iff (h : AcceptedBelow names members)
    (hd : distinctKeys (.object members)) (path : Path) (key : String) :
    errorsOfSub ⟨{}, names⟩ path (members.get? key) = [] ↔
      ∃ value, members.get? key = some value ∧ WellFormed names .nested value := by
  cases hv : members.get? key with
  | none => simp [errorsOfSub]
  | some value =>
    have hvalue := h value (sizeOf_member_lt (get?_mem hv)) (distinctKeys_get? hd hv) .nested path
    simp only [Option.some.injEq, exists_eq_left', ← hvalue]
    rfl

lemma errorsOfEntries_eq_nil_iff (h : AcceptedBelow names members)
    (hd : distinctKeys (.object members)) (position : Position) (path : Path) (key : String) :
    errorsOfEntries ⟨{}, names⟩ position path (entriesIn (members.get? key)) = [] ↔
      ∀ name value, (name, value) ∈ entriesIn (members.get? key) →
        WellFormed names position value := by
  have hentry : ∀ name value, (name, value) ∈ entriesIn (members.get? key) →
      (errorsOf ⟨{}, names⟩ position (path ++ [name]) value = [] ↔
        WellFormed names position value) := by
    intro name value hm
    refine h value (sizeOf_entry_lt hm) ?_ position _
    cases hf : members.get? key with
    | none => simp [hf, entriesIn] at hm
    | some found =>
      rw [hf] at hm
      cases found with
      | object entries => exact (distinctKeys_object (distinctKeys_get? hd hf)).2 name value hm
      | _ => simp [entriesIn] at hm
  simp only [errorsOfEntries, List.flatMap_eq_nil_iff, Prod.forall]
  exact forall₃_congr hentry

lemma formErrors_eq_nil_iff (h : AcceptedBelow names members)
    (hd : distinctKeys (.object members)) (path : Path) (form : Form) :
    formErrors ⟨{}, names⟩ path members form = [] ↔ FormFits names members form := by
  have hfield : ∀ {key : String} {value : Json}, value ≠ .null →
      (Compile.field members key = value ↔ members.get? key = some value) :=
    fun hne => field_eq_iff hne
  cases form with
  | empty => exact iff_of_true rfl .empty
  | type =>
    rw [formErrors, List.map_eq_nil_iff, typeFaults_eq_nil_iff]
    constructor
    · rintro ⟨name, hv, hn⟩
      exact .type ((hfield (by simp)).mp hv) hn
    · intro hfits
      cases hfits with
      | type hv hn => exact ⟨_, (hfield (by simp)).mpr hv, hn⟩
  | enum =>
    rw [formErrors, List.map_eq_nil_iff, enumFaults_eq_nil_iff]
    constructor
    · rintro ⟨variants, hv, hs, hn⟩
      exact .enum ((hfield (by simp)).mp hv) hs hn
    · intro hfits
      cases hfits with
      | enum hv hs hn => exact ⟨_, (hfield (by simp)).mpr hv, hs, hn⟩
  | elements =>
    rw [formErrors, errorsOfSub_eq_nil_iff h hd]
    constructor
    · rintro ⟨value, hv, hsub⟩
      exact .elements hv hsub
    · intro hfits
      cases hfits with
      | elements hv hsub => exact ⟨_, hv, hsub⟩
  | values =>
    rw [formErrors, errorsOfSub_eq_nil_iff h hd]
    constructor
    · rintro ⟨value, hv, hsub⟩
      exact .values hv hsub
    · intro hfits
      cases hfits with
      | values hv hsub => exact ⟨_, hv, hsub⟩
  | ref =>
    rw [formErrors, List.map_eq_nil_iff, refFaults_eq_nil_iff]
    constructor
    · rintro ⟨name, hv, hn⟩
      exact .ref ((hfield (by simp)).mp hv) hn
    · intro hfits
      cases hfits with
      | ref hv hn => exact ⟨_, (hfield (by simp)).mpr hv, hn⟩
  | properties =>
    simp only [formErrors, List.append_eq_nil_iff, List.map_eq_nil_iff,
      errorsOfEntries_eq_nil_iff h hd, sectionFaults_eq_nil_iff, sharedFaults_eq_nil_iff,
      Compile.additionalFaults, flagFaults_eq_nil_iff]
    constructor
    · rintro ⟨hr, hsr, ho, ⟨hso, hdis⟩, ha⟩
      exact .properties hsr hso hdis hr ho ha
    · intro hfits
      cases hfits with
      | properties hsr hso hdis hr ho ha =>
        have her := isSection_entriesIn hsr
        have heo := isSection_entriesIn hso
        subst her heo
        exact ⟨hr, hsr, ho, ⟨hso, hdis⟩, ha⟩
  | discriminator =>
    simp only [formErrors, List.append_eq_nil_iff, List.map_eq_nil_iff,
      errorsOfEntries_eq_nil_iff h hd, discriminatorFaults_eq_nil_iff, mappingFaults_eq_nil_iff]
    constructor
    · rintro ⟨⟨tag, ht⟩, hs, entries, he⟩
      rw [he, (hfield (by simp)).mpr ht] at hs
      exact .discriminator ht he hs
    · intro hfits
      cases hfits with
      | discriminator ht he hs =>
        rw [he, (hfield (by simp)).mpr ht]
        exact ⟨⟨_, ht⟩, hs, _, rfl⟩

lemma objectErrors_eq_nil_iff (h : AcceptedBelow names members)
    (hd : distinctKeys (.object members)) (position : Position) (path : Path) :
    objectErrors ⟨{}, names⟩ position path members = [] ↔
      WellFormed names position (.object members) := by
  have hnodup := (distinctKeys_object hd).1
  have hhooks : ∀ form, hookErrors ⟨{}, names⟩ path members form = [] := by
    intro form
    unfold hookErrors
    split <;> rfl
  unfold objectErrors
  constructor
  · intro herrors
    split at herrors
    · cases herrors
    · rename_i keys hkeys
      obtain ⟨hform, hsorted⟩ := hasForm_of_ofKeys hkeys
      simp only [List.append_eq_nil_iff, List.map_eq_nil_iff] at herrors
      obtain ⟨hplace, hfits, -⟩ := herrors
      rw [hsorted] at hplace
      exact .object ((keysFit_iff hform).mpr (List.append_eq_nil_iff.mpr hplace))
        ((formErrors_eq_nil_iff h hd path keys.form).mp hfits)
  · intro hwell
    cases hwell with
    | @object _ form _ hkeys hfits =>
      have hform := hasForm_of_keysFit hkeys
      have hdeclared : (⟨{}, names⟩ : Scope).options.declared = [] := rfl
      rw [hdeclared, ofKeys_of_hasForm hnodup hform]
      simp only [List.append_eq_nil_iff, List.map_eq_nil_iff]
      refine ⟨List.append_eq_nil_iff.mp ((keysFit_iff hform).mp hkeys), ?_, hhooks form⟩
      exact (formErrors_eq_nil_iff h hd path form).mpr hfits

end Levels

/-- Without extensions, a schema has no errors if and only if it is well-formed. -/
theorem errorsOf_eq_nil_iff (names : List String) (value : Json) (hd : distinctKeys value) :
    ∀ (position : Position) (path : Path),
      errorsOf ⟨{}, names⟩ position path value = [] ↔ WellFormed names position value := by
  induction value using value_induction with
  | step value ih =>
    intro position path
    by_cases ho : ∃ members, value = .object members
    · obtain ⟨members, rfl⟩ := ho
      rw [errorsOf_object]
      exact objectErrors_eq_nil_iff ih hd position path
    · rw [errorsOf_notObject fun members he => ho ⟨members, he⟩]
      refine iff_of_false (List.cons_ne_nil _ _) fun hwell => ?_
      cases hwell with
      | object => exact ho ⟨_, rfl⟩

lemma find_eq_nil_iff {scope : Scope} {entries : Members} (hd : distinctKeys (.object entries)) :
    Cycle.find (edgesOf scope entries) = [] ↔ ∀ name, ¬ TransGen (RefersTo entries) name name := by
  have hlists := find_lists_cycles (edgesOf scope entries)
  rw [step_edgesOf hd] at hlists
  constructor
  · intro hnone name hname
    obtain ⟨names, hn, -⟩ := (hlists.onCycle name).mp hname
    rw [hnone] at hn
    cases hn
  · intro hacyclic
    refine List.eq_nil_iff_forall_not_mem.mpr fun names hn => ?_
    obtain ⟨name, hname⟩ := List.exists_mem_of_ne_nil names (hlists.circuit names hn).nonempty
    exact hacyclic name ((hlists.onCycle name).mpr ⟨names, hn, hname⟩)

lemma definitionErrors_eq_nil_iff {document : Json} (hd : distinctKeys document) :
    definitionErrors (scopeOf {} document) (Compile.definitions? document) = [] ↔
      ∀ found, Compile.definitions? document = some found → ∃ entries : Members,
        found = .object entries ∧
          (∀ name value, (name, value) ∈ entries →
            WellFormed (Compile.definitionNames document) .definition value) ∧
          ∀ name, ¬ TransGen (RefersTo entries) name name := by
  cases hf : Compile.definitions? document with
  | none => simp [definitionErrors]
  | some found =>
    simp only [Option.some.injEq, forall_eq']
    cases found with
    | object entries =>
      have hde : distinctKeys (.object entries) := distinctKeys_definitions hd hf
      simp only [definitionErrors, List.append_eq_nil_iff, List.map_eq_nil_iff,
        find_eq_nil_iff hde, errorsOfEntries, List.flatMap_eq_nil_iff, Prod.forall,
        Json.object.injEq, exists_eq_left']
      refine and_congr_left fun _ => forall₃_congr fun name value hm => ?_
      exact errorsOf_eq_nil_iff _ value ((distinctKeys_object hde).2 name value hm) _ _
    | _ => simp [definitionErrors]

/-- Without extensions, the documents that compile are the well-formed ones. -/
theorem compile_ok_iff_wellFormed {document : Json} (hd : distinctKeys document) :
    (∃ validator, compile {} document = .ok validator) ↔ WellFormedDocument document := by
  rw [compile_ok_iff, documentErrors, List.append_eq_nil_iff, definitionErrors_eq_nil_iff hd,
    scopeOf, errorsOf_eq_nil_iff _ document hd]
  exact ⟨fun h => ⟨h.2, h.1⟩, fun h => ⟨h.definitions, h.root⟩⟩

/-- A document with every form, and definitions that lead in a circle through a list only. -/
def figuresDocument : Json :=
  .object
    [("definitions", .object
      [("name", .object [("type", .string "string"), ("nullable", .bool true)]),
        ("list", .object [("elements", .object [("ref", .string "alias")])]),
        ("alias", .object [("ref", .string "list"), ("metadata", .object [])])]),
      ("discriminator", .string "kind"),
      ("mapping", .object
        [("circle", .object [("properties", .object
          [("radius", .object [("type", .string "uint8")])])]),
          ("path", .object [("optionalProperties", .object
            [("points", .object [("ref", .string "alias")]),
              ("join", .object [("enum", .array [.string "round", .string "sharp"])]),
              ("extra", .object [("values", .object [])])]),
            ("additionalProperties", .bool true)])])]

theorem figuresDocument_wellFormed :
    distinctKeys figuresDocument ∧ WellFormedDocument figuresDocument :=
  ⟨by decide, (compile_ok_iff_wellFormed (by decide)).mp (compiles_of_isOk (by decide +kernel))⟩

end JsonTypeDefinition.Proofs
