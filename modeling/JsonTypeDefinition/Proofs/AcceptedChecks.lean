import JsonTypeDefinition.Proofs.Acceptance
import JsonTypeDefinition.Proofs.CoreErrors
import JsonTypeDefinition.Proofs.LegalChecks
import JsonTypeDefinition.Proofs.NodeOrErrors

/-!
# Documents with checks

With the extension for value checks just those documents compile whose checks are legal and that
compile without any extension once these are taken out.
-/

namespace JsonTypeDefinition.Proofs
open Checks

section Hooks

variable {scope : Scope} {members : Members} {error : SchemaError}

lemma core_of_schema {faults : List SchemaFault} (h : AllFrom .schema faults) {path : Path}
    (he : error ∈ faults.map (SchemaError.mk path)) : isCore error = true := by
  rw [← core_schema h] at he
  exact (List.mem_filter.mp he).2

lemma formErrors_below {path : Path} {form : Form}
    (h : error ∈ formErrors scope path members form) :
    isCore error = true ∨ ∃ sub ∈ formSites path members form, error ∈ siteErrors scope sub := by
  have hsub : ∀ key, error ∈ errorsOfSub scope (path ++ [key]) (members.get? key) →
      isCore error = true ∨ ∃ sub ∈ (members.get? key).toList.map fun value =>
        (⟨.nested, path ++ [key], value⟩ : Site), error ∈ siteErrors scope sub := by
    intro key he
    cases hf : members.get? key with
    | none =>
      rw [hf] at he
      have he' : error ∈ [SchemaFault.notObject .null].map (SchemaError.mk (path ++ [key])) := he
      exact .inl (core_of_schema (allFrom_singleton rfl) he')
    | some value =>
      rw [hf] at he
      exact .inr ⟨_, List.mem_singleton_self _, he⟩
  cases form with
  | empty => cases h
  | type => exact .inl (core_of_schema (typeFaults_schema _) h)
  | enum => exact .inl (core_of_schema (enumFaults_schema _) h)
  | ref => exact .inl (core_of_schema (refFaults_schema _ _) h)
  | elements => exact hsub _ h
  | values => exact hsub _ h
  | properties =>
    simp only [formErrors, errorsOfEntries_eq, List.mem_append, List.mem_flatMap] at h
    rcases h with ⟨sub, hm, h⟩ | h | ⟨sub, hm, h⟩ | h | h
    · exact .inr ⟨sub, List.mem_append_left _ hm, h⟩
    · exact .inl (core_of_schema (sectionFaults_schema (fun _ => rfl) _) h)
    · exact .inr ⟨sub, List.mem_append_right _ hm, h⟩
    · exact .inl (core_of_schema (allFrom_append (sectionFaults_schema (fun _ => rfl) _)
        (aboutKeys_schema (sharedFaults_keys _ _))) h)
    · exact .inl (core_of_schema (flagFaults_schema (fun _ => rfl) members _) h)
  | discriminator =>
    simp only [formErrors, errorsOfEntries_eq, List.mem_append, List.mem_flatMap] at h
    rcases h with h | ⟨sub, hm, h⟩ | h
    · exact .inl (core_of_schema (aboutKeys_schema (discriminatorFaults_keys members)) h)
    · exact .inr ⟨sub, hm, h⟩
    · exact .inl (core_of_schema (aboutKeys_schema (mappingFaults_keys _)) h)

/-- A hook reports an error on the schema object of a site. -/
def Hooked (scope : Scope) (error : SchemaError) (site : Site) : Prop :=
  ∃ members form, site.schema = .object members ∧ form? members = some form ∧
    error ∈ hookErrors scope site.path members form

lemma siteErrors_hooked {site : Site} (h : error ∈ siteErrors scope site) :
    isCore error = true ∨ ∃ inner ∈ sites site, Hooked scope error inner := by
  induction site using site_induction with
  | step site ih =>
    rw [siteErrors] at h
    by_cases ho : ∃ members, site.schema = .object members
    · obtain ⟨members, hs⟩ := ho
      rw [hs, errorsOf_object, objectErrors] at h
      cases hkeys : KeyGroups.ofKeys (Members.keys members) scope.options.declared with
      | ambiguous keys =>
        rw [hkeys] at h
        have he : error ∈ [SchemaFault.ambiguousForm keys].map (SchemaError.mk site.path) := h
        exact .inl (core_of_schema (allFrom_singleton rfl) he)
      | ofForm keys =>
        have hform := form?_of_ofKeys hkeys
        simp only [hkeys, List.mem_append] at h
        rcases h with h | h | h
        · exact .inl (core_of_schema (aboutKeys_schema (levelFaults_keys _ keys members)) h)
        · rcases formErrors_below h with hcore | ⟨sub, hsub, h⟩
          · exact .inl hcore
          have hbelow : sub ∈ site.below := by
            rw [Site.below, hs]
            dsimp only
            rwa [hform, Option.elim_some]
          rcases ih sub hbelow h with hcore | ⟨inner, hinner, h⟩
          · exact .inl hcore
          · refine .inr ⟨inner, ?_, h⟩
            rw [sites_eq]
            exact List.mem_append_left _ (List.mem_flatMap.mpr ⟨sub, hbelow, hinner⟩)
        · exact .inr ⟨site, mem_sites_self site, members, keys.form, hs, hform, h⟩
    · rw [errorsOf_notObject fun members he => ho ⟨members, he⟩] at h
      have he : error ∈ [SchemaFault.notObject site.schema.kind].map (SchemaError.mk site.path) := h
      exact .inl (core_of_schema (allFrom_singleton rfl) he)

lemma documentErrors_hooked {options : Options} {document : Json}
    (h : error ∈ documentErrors options document) :
    isCore error = true ∨
      ∃ site ∈ documentSites document, Hooked (scopeOf options document) error site := by
  rw [documentErrors, List.mem_append] at h
  rcases h with h | h
  · unfold definitionErrors at h
    cases hfound : Compile.definitions? document with
    | none =>
      rw [hfound] at h
      cases h
    | some value =>
      rw [hfound] at h
      cases value with
      | object entries =>
        rcases List.mem_append.mp h with h | h
        · have hentries := errorsOfEntries_eq (scopeOf options document) .definition
            ["definitions"] (some (.object entries))
          rw [← hfound] at hentries
          rw [← entriesIn.eq_1 entries, ← hfound, hentries] at h
          obtain ⟨entry, hentry, h⟩ := List.mem_flatMap.mp h
          rcases siteErrors_hooked h with hcore | ⟨inner, hinner, h⟩
          · exact .inl hcore
          · refine .inr ⟨inner, List.mem_append_left _ ?_, h⟩
            exact List.mem_flatMap.mpr ⟨entry, hentry, hinner⟩
        · rw [← circularErrors_core] at h
          exact .inl (List.mem_filter.mp h).2
      | _ =>
        have he : error ∈ [SchemaFault.definitionsNotObject _].map (SchemaError.mk []) := h
        exact .inl (core_of_schema (allFrom_singleton rfl) he)
  · have hroot : error ∈ siteErrors (scopeOf options document) ⟨.root, [], document⟩ := h
    rcases siteErrors_hooked hroot with hcore | ⟨inner, hinner, h⟩
    · exact .inl hcore
    · exact .inr ⟨inner, List.mem_append_right _ hinner, h⟩

lemma documentErrors_eq_nil_iff (options : Options) (document : Json) :
    documentErrors options document = [] ↔ (documentErrors options document).filter isCore = [] ∧
      ∀ site ∈ documentSites document, ∀ members form, site.schema = .object members →
        form? members = some form →
          (options.contribution form members (form.path site.path)).faults = [] := by
  constructor
  · intro h
    exact ⟨by rw [h]; rfl, (nothing_reported h).hooks⟩
  · rintro ⟨hcore, hhooks⟩
    apply List.eq_nil_iff_forall_not_mem.mpr
    intro error he
    rcases documentErrors_hooked he with h | ⟨site, hsite, members, form, hs, hform, h⟩
    · exact List.filter_eq_nil_iff.mp hcore error he h
    · unfold hookErrors at h
      split_ifs at h
      · cases h
      · obtain ⟨fault, hf, -⟩ := List.mem_map.mp h
        have hnone := hhooks site hsite members form hs hform
        rw [scopeOf, hnone] at hf
        cases hf

lemma typeOf?_of_core {options : Options} {document : Json}
    (h : (documentErrors options document).filter isCore = []) {site : Site}
    (hsite : site ∈ documentSites document) {members : Members} (hs : site.schema = .object members)
    (hform : form? members = some .type) : (typeOf? members).isSome := by
  obtain ⟨keys, hkeys, htype⟩ := ofKeys_of_form? hform (scopeOf options document).options.declared
  have hinside := documentSites_inside options hsite
  rw [compileErrors_eq, siteErrors, hs, errorsOf_object, objectErrors, hkeys] at hinside
  dsimp only at hinside
  rw [htype, formErrors] at hinside
  have hsublist : List.Sublist
      ((typeFaults (Compile.field members "type")).map (SchemaError.mk (site.path ++ ["type"])))
      (documentErrors options document) := by
    refine List.Sublist.trans ?_ hinside.sublist
    exact (List.sublist_append_left _ _).trans (List.sublist_append_right _ _)
  have hnone := hsublist.filter isCore
  rw [h, core_schema (typeFaults_schema _), List.sublist_nil, List.map_eq_nil_iff,
    typeFaults_eq_nil_iff] at hnone
  obtain ⟨name, hname, hmem⟩ := hnone
  rw [field_eq_iff (by simp)] at hname
  rw [typeOf?, hname, Option.bind_some, Json.string?, Option.bind_some]
  simpa [Primitive.ofName?, List.mem_map] using hmem

end Hooks

def withChecks (engine : PatternEngine) : Options :=
  .ofExtensions [Checks.extensionWith engine]

section Checks

variable {engine : PatternEngine}

lemma library_withChecks :
    ∀ extension ∈ (withChecks engine).extensions, extension ∈ libraryExtensions engine := by
  simp [withChecks, Options.ofExtensions, Options.withExtension, libraryExtensions]

lemma contribution_checks (form : Form) (members : Members) (path : Path) :
    (withChecks engine).contribution form members path =
      hook (readForm engine form) members path := by
  have hhooks : (withChecks engine).hooksFor form = [hook (readForm engine form)] := by
    cases form <;> rfl
  rw [Options.contribution, hhooks]
  simp

/-- The checks that a schema object of a form has, if any, are legal. -/
def ChecksAreLegal (engine : PatternEngine) (fits : Bound → Bound → Prop) (members : Members)
    (form : Form) : Prop :=
  ∀ value, members.get? Checks.key = some value →
    ∃ checks, value = .object checks ∧ LegalChecks engine fits members checks form

lemma checks_silent_iff {members : Members} {form : Form} (path : Path)
    (htyped : form = .type → (typeOf? members).isSome) :
    ((withChecks engine).contribution form members path).faults = [] ↔
      ChecksAreLegal engine LeaveRoom members form := by
  rw [contribution_checks, ChecksAreLegal]
  cases hvalue : members.get? Checks.key with
  | none => simp [hook, hvalue]
  | some value =>
    simp only [Option.some.injEq, forall_eq']
    by_cases hobject : ∃ checks, value = .object checks
    · obtain ⟨checks, rfl⟩ := hobject
      rw [hook_reads engine form members checks path hvalue, joined, List.append_eq_nil_iff,
        surplusFaults_eq_nil_iff, formPart_silent_iff htyped]
      simp
    · have hreported :
          hook (readForm engine form) members path = { faults := [.checksNotObject] } := by
        unfold hook
        rw [hvalue]
        cases value with
        | object checks => exact absurd ⟨checks, rfl⟩ hobject
        | _ => rfl
      rw [hreported]
      refine iff_of_false (List.cons_ne_nil _ _) ?_
      rintro ⟨checks, he, -⟩
      exact hobject ⟨checks, he⟩

/-- With checks a document compiles if and only if all its checks are legal and it compiles without
them and without the extension. -/
theorem compiles_iff_checks_legal (engine : PatternEngine) (document : Json) :
    (∃ validator, compile (withChecks engine) document = .ok validator) ↔
      (∃ validator, compile {} (strip (fun key => key == Checks.key) true document) =
        .ok validator) ∧
      ∀ site ∈ documentSites document, ∀ members form, site.schema = .object members →
        form? members = some form → ChecksAreLegal engine LeaveRoom members form := by
  have hplain : strip (fun key => key == Checks.key) true document =
      withoutDeclared (withChecks engine) true document := by
    rw [← plainDocument_eq library_withChecks]
    rfl
  rw [compile_ok_iff, compile_ok_iff, hplain,
    documentErrors_core (keepApart_library library_withChecks), documentErrors_eq_nil_iff]
  refine and_congr_right fun hcore => ?_
  refine forall₂_congr fun site hsite => forall₂_congr fun members form => ?_
  refine forall₂_congr fun hs hform => checks_silent_iff _ fun htype => ?_
  exact typeOf?_of_core hcore hsite hs (htype ▸ hform)

end Checks

/-- No integer is greater than five and not greater than five. -/
def narrowChecks : Members :=
  [("exclusiveMinimum", .number (.int 5)), ("maximum", .number (.int 5))]

def narrowDocument : Json :=
  .object [("type", .string "int8"), ("x:checks", .object narrowChecks)]

lemma narrowChecks_legal {engine : PatternEngine} {members : Members}
    (htype : typeOf? members = some .int8) :
    LegalChecks engine Ordered members narrowChecks .type := by
  have hlimit : IsLimit .int8 (.number (.int 5)) :=
    .integer rfl (by decide +kernel) (by decide +kernel) (by decide +kernel)
  have hsides : ∀ keys, ∀ key ∈ sideKeys keys, ∀ value, narrowChecks.get? key = some value →
      IsLimit .int8 value := by
    intro keys key _ value hvalue
    have hmem := get?_mem hvalue
    simp only [narrowChecks, List.mem_cons, Prod.mk.injEq, List.not_mem_nil, or_false] at hmem
    rcases hmem with ⟨-, rfl⟩ | ⟨-, rfl⟩ <;> exact hlimit
  have hfive : ∀ keys bound, Sets keys narrowChecks.get? bound →
      bound.limit = (Number.int 5).toBinary64 := by
    intro keys bound hbound
    have hvalues : ∀ key value limit, narrowChecks.get? key = some value →
        limit? value = some limit → limit = (Number.int 5).toBinary64 := by
      intro key value limit hvalue hstands
      have hmem := get?_mem hvalue
      simp only [narrowChecks, List.mem_cons, Prod.mk.injEq, List.not_mem_nil, or_false] at hmem
      rcases hmem with ⟨-, rfl⟩ | ⟨-, rfl⟩ <;> exact (Option.some.inj hstands).symm
    cases hbound with
    | inclusive hvalue hstands => exact hvalues _ _ _ hvalue hstands
    | exclusive _ hvalue hstands => exact hvalues _ _ _ hvalue hstands
  have hkeys : OnlyKeys narrowChecks
      ["minimum", "exclusiveMinimum", "maximum", "exclusiveMaximum", "multipleOf"] := by
    simp [OnlyKeys, narrowChecks, Members.keys]
  refine .integer htype rfl hkeys ⟨⟨hsides _, ?_⟩, ⟨hsides _, ?_⟩, ?_⟩ (by rintro _ ⟨⟩)
  · rintro key hkey hset
    rfl
  · rintro key hkey hset
    cases hkey
    cases hset
  · intro low high hlow hhigh
    rw [Ordered, hfive _ low hlow, hfive _ high hhigh]

/-- It is not enough that the minimum is not greater than the maximum: equal bounds are refused
where one of them is exclusive. -/
theorem narrowDocument_refused :
    ¬ ((∃ validator, compile (withChecks literalEngine) narrowDocument = .ok validator) ↔
      (∃ validator, compile {} (strip (fun key => key == Checks.key) true narrowDocument) =
        .ok validator) ∧
      ∀ site ∈ documentSites narrowDocument, ∀ members form, site.schema = .object members →
        form? members = some form → ChecksAreLegal literalEngine Ordered members form) := by
  intro hiff
  have hrefused : (compile (withChecks literalEngine) narrowDocument).isOk = false := by
    decide +kernel
  have hplain : (compile {} (strip (fun key => key == Checks.key) true narrowDocument)).isOk := by
    decide +kernel
  have hsites : documentSites narrowDocument = [⟨.root, [], narrowDocument⟩] := by
    rw [documentSites, sites_eq]
    rfl
  have hlegal : ∀ site ∈ documentSites narrowDocument, ∀ members form,
      site.schema = .object members → form? members = some form →
        ChecksAreLegal literalEngine Ordered members form := by
    intro site hsite members form hschema hform value hvalue
    rw [hsites, List.mem_singleton] at hsite
    rw [hsite] at hschema
    cases hschema
    cases hform
    cases hvalue
    exact ⟨narrowChecks, rfl, narrowChecks_legal (by decide +kernel)⟩
  obtain ⟨validator, h⟩ := hiff.mpr ⟨compiles_of_isOk hplain, hlegal⟩
  rw [h] at hrefused
  cases hrefused

end JsonTypeDefinition.Proofs
