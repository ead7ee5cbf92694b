import JsonTypeDefinition.Proofs.Arena
import JsonTypeDefinition.Proofs.DeclaredKeys
import JsonTypeDefinition.Proofs.ErrorBlocks

/-!
# Schema errors under extensions

Extensions that keep apart do not touch the errors of the core: what a compilation reports without
the errors of extensions is what it reports without the declared keys and without extensions.
-/

namespace JsonTypeDefinition.Proofs

/-- The scope of the same definitions without extensions. -/
def plainScope (scope : Scope) : Scope :=
  ⟨{}, scope.definitions⟩

lemma declared_plain (scope : Scope) : (plainScope scope).options.declared = [] :=
  rfl

/-- Whether an error is none of an extension. -/
def isCore (error : SchemaError) : Bool :=
  !isExtensionCode error.fault.code

section Filtering

variable {faults : List SchemaFault}

lemma core_kept (h : ∀ fault ∈ faults, originOf fault ≠ .extension) (path : Path) :
    (faults.map (SchemaError.mk path)).filter isCore = faults.map (SchemaError.mk path) := by
  refine List.filter_eq_self.mpr (List.forall_mem_map.mpr fun fault hf => ?_)
  rw [isCore, isExtensionCode_fault, decide_eq_false (h fault hf)]
  rfl

lemma core_schema (h : AllFrom .schema faults) (path : Path) :
    (faults.map (SchemaError.mk path)).filter isCore = faults.map (SchemaError.mk path) :=
  core_kept (fun fault hf he => nomatch (h fault hf).symm.trans he) path

lemma core_single {fault : SchemaFault} (h : originOf fault = .schema) (path : Path) :
    [SchemaError.mk path fault].filter isCore = [SchemaError.mk path fault] :=
  core_schema (allFrom_singleton h) path

lemma core_dropped (h : AllFrom .extension faults) (path : Path) :
    (faults.map (SchemaError.mk path)).filter isCore = [] := by
  refine List.filter_eq_nil_iff.mpr (List.forall_mem_map.mpr fun fault hf => ?_)
  rw [isCore, isExtensionCode_fault, decide_eq_true (h fault hf)]
  exact Bool.false_ne_true

end Filtering

section Levels

variable {scope : Scope} {members : Members} {form : Form} {root : Bool}

def CoreBelow (scope : Scope) (members : Members) : Prop :=
  ∀ value, sizeOf value < sizeOf (Json.object members) → ∀ root position path,
    errorsOf (plainScope scope) position path (withoutDeclared scope.options root value) =
      (errorsOf scope position path value).filter isCore

lemma errorsOfSub_core (hbelow : CoreBelow scope members) (path : Path) (key : String) :
    errorsOfSub (plainScope scope) path
        ((members.get? key).map (withoutDeclared scope.options false)) =
      (errorsOfSub scope path (members.get? key)).filter isCore := by
  cases hfound : members.get? key with
  | none => exact (core_single rfl path).symm
  | some value => exact hbelow value (sizeOf_member_lt (get?_mem hfound)) false .nested path

lemma errorsOfEntries_core {entries : Members}
    (h : ∀ name value, (name, value) ∈ entries → ∀ position path,
      errorsOf (plainScope scope) position path (withoutDeclared scope.options false value) =
        (errorsOf scope position path value).filter isCore) (position : Position) (path : Path) :
    errorsOfEntries (plainScope scope) position path
        (stripEntries (isDeclared scope.options) entries) =
      (errorsOfEntries scope position path entries).filter isCore := by
  rw [errorsOfEntries, errorsOfEntries, stripEntries_eq, List.flatMap_map, List.filter_flatMap]
  exact List.flatMap_congr fun entry hentry => h entry.1 entry.2 hentry position _

lemma sectionErrors_core (hbelow : CoreBelow scope members) (position : Position) (path : Path)
    (key : String) :
    errorsOfEntries (plainScope scope) position path
        (stripEntries (isDeclared scope.options) (entriesIn (members.get? key))) =
      (errorsOfEntries scope position path (entriesIn (members.get? key))).filter isCore :=
  errorsOfEntries_core (fun _ value hentry => hbelow value (sizeOf_entry_lt hentry) false)
    position path

lemma propertiesErrors_core (h : KeepApart scope.options) (hbelow : CoreBelow scope members)
    (hform : form? members = some .properties) (path : Path) :
    formErrors (plainScope scope) path (plainMembers scope.options root members) .properties =
      (formErrors scope path members .properties).filter isCore := by
  have hfaults : ∀ key fault, formContent .properties key = .schemas →
      sectionFaults fault ((plainMembers scope.options root members).get? key) =
        sectionFaults fault (members.get? key) := by
    intro key fault hcontent
    rw [get?_content h hform hcontent (by decide)]
    rcases members.get? key with _ | value
    · rfl
    · cases value <;> rfl
  simp only [formErrors, List.filter_append, hfaults _ _ content_properties,
    hfaults _ _ content_optional,
    entries_plain h hform content_properties,
    entries_plain h hform content_optional, keys_stripEntries,
    sectionErrors_core hbelow, Compile.additionalFaults,
    flagFaults_flat h (by decide : "additionalProperties" ∈ flatKeys)]
  rw [core_schema (sectionFaults_schema (fun _ => rfl) _),
    core_schema (allFrom_append (sectionFaults_schema (fun _ => rfl) _)
      (aboutKeys_schema (sharedFaults_keys _ _))),
    core_schema (flagFaults_schema (fun _ => rfl) _ _)]

lemma discriminatorErrors_core (h : KeepApart scope.options) (hbelow : CoreBelow scope members)
    (hform : form? members = some .discriminator) (path : Path) :
    formErrors (plainScope scope) path (plainMembers scope.options root members) .discriminator =
      (formErrors scope path members .discriminator).filter isCore := by
  have htag : "discriminator" ∈ flatKeys := by decide
  have htagFaults : Compile.discriminatorFaults (plainMembers scope.options root members) =
      Compile.discriminatorFaults members := by
    rw [Compile.discriminatorFaults, Compile.discriminatorFaults, field_flat h htag]
  have hfaults : mappingFaults ((plainMembers scope.options root members).get? "mapping") =
      mappingFaults (members.get? "mapping") := by
    rw [get?_content h hform content_mapping (by decide)]
    rcases members.get? "mapping" with _ | value
    · rfl
    · cases value <;> rfl
  simp only [formErrors, List.filter_append, htagFaults, hfaults, field_flat h htag,
    entries_plain h hform content_mapping, sectionErrors_core hbelow]
  rw [core_schema (aboutKeys_schema (discriminatorFaults_keys members)),
    core_schema (aboutKeys_schema (mappingFaults_keys _))]

lemma formErrors_core (h : KeepApart scope.options) (hbelow : CoreBelow scope members)
    (hform : form? members = some form) (path : Path) :
    formErrors (plainScope scope) path (plainMembers scope.options root members) form =
      (formErrors scope path members form).filter isCore := by
  cases form with
  | empty => rfl
  | type =>
    rw [formErrors, formErrors, field_flat h (by decide), core_schema (typeFaults_schema _)]
  | enum =>
    rw [formErrors, formErrors, field_flat h (by decide), core_schema (enumFaults_schema _)]
  | ref =>
    rw [formErrors, formErrors, field_flat h (by decide), core_schema (refFaults_schema _ _)]
    rfl
  | elements =>
    rw [formErrors, formErrors, get?_content h hform content_elements (by decide)]
    exact errorsOfSub_core hbelow _ _
  | values =>
    rw [formErrors, formErrors, get?_content h hform content_values (by decide)]
    exact errorsOfSub_core hbelow _ _
  | properties => exact propertiesErrors_core h hbelow hform path
  | discriminator => exact discriminatorErrors_core h hbelow hform path

lemma hookErrors_plain (scope : Scope) (path : Path) (members : Members) (form : Form) :
    hookErrors (plainScope scope) path members form = [] := by
  unfold hookErrors
  split <;> rfl

lemma hookErrors_core (h : KeepApart scope.options) (path : Path) (members : Members)
    (form : Form) : (hookErrors scope path members form).filter isCore = [] := by
  unfold hookErrors
  split
  · rfl
  · exact core_dropped (h.own form members _).faults _

lemma objectErrors_core (h : KeepApart scope.options) (hbelow : CoreBelow scope members)
    (position : Position) (path : Path) :
    objectErrors (plainScope scope) position path (plainMembers scope.options root members) =
      (objectErrors scope position path members).filter isCore := by
  unfold objectErrors
  have hsorted := ofKeys_plain h root members
  rw [declared_plain, hsorted]
  cases hkeys : KeyGroups.ofKeys (Members.keys members) scope.options.declared with
  | ambiguous keys =>
    exact (core_single rfl path).symm
  | ofForm keys =>
    have hform := form?_of_ofKeys hkeys
    simp only [List.filter_append, placeFaults_plain h hform, commonFaults_plain h,
      formErrors_core h hbelow hform, hookErrors_plain, hookErrors_core h]
    rw [core_schema (aboutKeys_schema (levelFaults_keys position keys members))]

end Levels

theorem errorsOf_core {scope : Scope} (h : KeepApart scope.options) (value : Json) :
    ∀ root position path,
      errorsOf (plainScope scope) position path (withoutDeclared scope.options root value) =
        (errorsOf scope position path value).filter isCore := by
  induction value using value_induction with
  | step value ih =>
    intro root position path
    by_cases ho : ∃ members, value = .object members
    · obtain ⟨members, rfl⟩ := ho
      rw [withoutDeclared_object, errorsOf_object, errorsOf_object]
      exact objectErrors_core h ih position path
    · have hno : ∀ members, value ≠ .object members := fun members he => ho ⟨members, he⟩
      rw [withoutDeclared, strip_notObject hno, errorsOf_notObject hno, errorsOf_notObject hno]
      exact (core_single rfl path).symm

section Documents

variable {options : Options}

lemma definitionNames_plain (h : KeepApart options) (document : Json) :
    Compile.definitionNames (withoutDeclared options true document) =
      Compile.definitionNames document := by
  rw [Compile.definitionNames, Compile.definitionNames, definitions?_plain h]
  rcases Compile.definitions? document with _ | value
  · rfl
  · cases value with
    | object entries => exact keys_stripEntries entries
    | _ => rfl

lemma scopeOf_plain (h : KeepApart options) (document : Json) :
    scopeOf {} (withoutDeclared options true document) = plainScope (scopeOf options document) := by
  rw [scopeOf, definitionNames_plain h]
  rfl

lemma reference?_plain {scope : Scope} (h : KeepApart scope.options) (root : Bool) (value : Json) :
    reference? (plainScope scope) (withoutDeclared scope.options root value) =
      reference? scope value := by
  cases value with
  | object members =>
    have hsorted := ofKeys_plain h root members
    have hfield : Compile.field (plainMembers scope.options root members) "ref" =
        Compile.field members "ref" := field_flat h (by decide)
    rw [withoutDeclared_object, reference?, reference?, declared_plain, hsorted, hfield]
  | _ => rfl

lemma edgesOf_plain {scope : Scope} (h : KeepApart scope.options) (entries : Members) :
    edgesOf (plainScope scope) (stripEntries (isDeclared scope.options) entries) =
      edgesOf scope entries := by
  rw [edgesOf, edgesOf, stripEntries_eq, List.flatMap_map]
  refine List.flatMap_congr fun entry _ => ?_
  dsimp only
  rw [← reference?_plain h false entry.2]

lemma circularErrors_core (cycles : List (List String)) :
    (cycles.map circularError).filter isCore = cycles.map circularError := by
  have hcycles : ∀ fault ∈ cycles.map SchemaFault.definitionsCircular,
      originOf fault ≠ .extension := by
    rw [List.forall_mem_map]
    exact fun _ _ => by simp [originOf]
  have hkept := core_kept hcycles []
  rwa [List.map_map] at hkept

lemma definitionErrors_core {scope : Scope} (h : KeepApart scope.options) (found : Option Json) :
    definitionErrors (plainScope scope) (found.map (stripNamed (isDeclared scope.options))) =
      (definitionErrors scope found).filter isCore := by
  rcases found with _ | value
  · rfl
  · cases value with
    | object entries =>
      have hentries : errorsOfEntries (plainScope scope) .definition ["definitions"]
          (stripEntries (isDeclared scope.options) entries) =
            (errorsOfEntries scope .definition ["definitions"] entries).filter isCore :=
        errorsOfEntries_core (fun _ value _ => errorsOf_core h value false) _ _
      simp only [Option.map_some, stripNamed, definitionErrors, List.filter_append,
        circularErrors_core, hentries, edgesOf_plain h]
    | _ => exact (core_single rfl []).symm

theorem documentErrors_core (h : KeepApart options) (document : Json) :
    documentErrors {} (withoutDeclared options true document) =
      (documentErrors options document).filter isCore := by
  have hscope : KeepApart (scopeOf options document).options := h
  have hdefinitions := definitionErrors_core hscope (Compile.definitions? document)
  have hroot := errorsOf_core hscope document true .root []
  rw [documentErrors, documentErrors, List.filter_append, scopeOf_plain h, definitions?_plain h,
    ← hroot, ← hdefinitions]
  rfl

end Documents

section Library

variable {engine : PatternEngine} {options : Options}

def checksEnabled (options : Options) : Bool :=
  options.extensions.any fun extension => extension.name == Checks.extensionName

/-- A document as it is to be compiled without extensions: if the extension for value checks is
enabled, without the checks of its schema objects. -/
def plainDocument (options : Options) (document : Json) : Json :=
  if checksEnabled options then strip (fun key => key == Checks.key) true document else document

lemma mem_declared_library {extension : Extension} (he : extension ∈ libraryExtensions engine)
    (key : String) : key ∈ extension.declared ↔
      extension.name = Checks.extensionName ∧ key = Checks.key := by
  simp only [libraryExtensions, List.mem_cons, List.not_mem_nil, or_false] at he
  rcases he with rfl | rfl | rfl
  · simp [EmptyMappings.extension, Checks.extensionName]
  · simp [LeapSeconds.extension, Checks.extensionName]
  · simp [Checks.extensionWith]

lemma isDeclared_library (hlibrary : ∀ extension ∈ options.extensions,
    extension ∈ libraryExtensions engine) (key : String) :
    isDeclared options key = (checksEnabled options && key == Checks.key) := by
  rw [Bool.eq_iff_iff, isDeclared, List.contains_iff_mem, Options.declared, List.mem_flatMap,
    Bool.and_eq_true, checksEnabled, List.any_eq_true]
  simp only [beq_iff_eq]
  constructor
  · rintro ⟨extension, he, hkey⟩
    obtain ⟨hname, hkey⟩ := (mem_declared_library (hlibrary extension he) key).mp hkey
    exact ⟨⟨extension, he, hname⟩, hkey⟩
  · rintro ⟨⟨extension, he, hname⟩, hkey⟩
    exact ⟨extension, he, (mem_declared_library (hlibrary extension he) key).mpr ⟨hname, hkey⟩⟩

lemma keepApart_library (hlibrary : ∀ extension ∈ options.extensions,
    extension ∈ libraryExtensions engine) : KeepApart options := by
  refine ⟨fun key hkey => ?_, contribution_own hlibrary⟩
  have hdeclared := isDeclared_library hlibrary key
  rw [isDeclared, List.contains_iff_mem.mpr hkey] at hdeclared
  rw [beq_iff_eq.mp (Bool.and_eq_true_iff.mp hdeclared.symm).2]
  decide

lemma plainDocument_eq (hlibrary : ∀ extension ∈ options.extensions,
    extension ∈ libraryExtensions engine) (document : Json) :
    plainDocument options document = withoutDeclared options true document := by
  rw [plainDocument, withoutDeclared, funext (isDeclared_library hlibrary)]
  cases checksEnabled options with
  | true => rfl
  | false => exact (strip_nothing document true).symm

/-- What the extensions of a compilation do to the errors of the core: nothing. -/
structure CoreErrorsKept (options : Options) (document : Json) : Prop where
  /-- Those that are left are, in order, those of the plain document. -/
  core : (compileErrors options document).filter isCore =
    compileErrors {} (plainDocument options document)
  accepts : (∃ validator, compile options document = .ok validator) →
    ∃ validator, compile {} (plainDocument options document) = .ok validator
  /-- Where the checks of schema objects are not enabled, each is reported as an unknown key. -/
  unrecognized : checksEnabled options = false → ∀ position path members form,
    ⟨position, path, .object members⟩ ∈ documentSites document → form? members = some form →
      members.has Checks.key = true →
        ∃ keys, Checks.key ∈ keys ∧
          ⟨path, .unrecognizedKeys form keys⟩ ∈ compileErrors options document

lemma undeclared_reported (document : Json) {position : Position} {path : Path}
    {members : Members} {form : Form} {key : String}
    (hsite : ⟨position, path, .object members⟩ ∈ documentSites document)
    (hform : form? members = some form) (hunused : isUsed key = false)
    (hdeclared : isDeclared options key = false) (hkey : members.has key = true) :
    ∃ keys, key ∈ keys ∧ ⟨path, .unrecognizedKeys form keys⟩ ∈ compileErrors options document := by
  obtain ⟨keys, hkeys, rfl⟩ := ofKeys_of_form? hform options.declared
  have hmem : key ∈ keys.unrecognized := by
    rw [(hasForm_of_ofKeys hkeys).2, KeyGroups.sortedFor, List.mem_filter,
      unused_ofKey? hunused, unused_hasRole hunused, ← isDeclared, hdeclared]
    exact ⟨has_iff_mem_keys.mp hkey, rfl⟩
  refine ⟨keys.unrecognized, hmem, (documentSites_inside options hsite).subset ?_⟩
  have hnone : keys.unrecognized.isEmpty = false := by
    rw [List.isEmpty_eq_false_iff]
    exact List.ne_nil_of_mem hmem
  have hsorted : KeyGroups.ofKeys (Members.keys members)
      (scopeOf options document).options.declared = .ofForm keys := hkeys
  rw [siteErrors, errorsOf_object, objectErrors, hsorted]
  dsimp only
  refine List.mem_append_left _ (List.mem_map_of_mem (List.mem_append_right _ ?_))
  rw [Compile.commonFaults, hnone]
  exact List.mem_append_left _ (List.mem_singleton_self _)

/-- The library's extensions leave the errors of the core as they are. -/
theorem compileErrors_keep_core (hlibrary : ∀ extension ∈ options.extensions,
    extension ∈ libraryExtensions engine) (document : Json) : CoreErrorsKept options document := by
  have hcore : documentErrors {} (plainDocument options document) =
      (documentErrors options document).filter isCore := by
    rw [plainDocument_eq hlibrary]
    exact documentErrors_core (keepApart_library hlibrary) document
  refine ⟨?_, fun hok => ?_, fun hdisabled position path members form hsite hform hkey => ?_⟩
  · rw [compileErrors_eq, compileErrors_eq, hcore]
  · rw [compile_ok_iff, hcore, (compile_ok_iff options document).mp hok]
    rfl
  · have hdeclared : isDeclared options Checks.key = false := by
      rw [isDeclared_library hlibrary, hdisabled]
      rfl
    exact undeclared_reported document hsite hform (by decide) hdeclared hkey

/-- A document with errors of its own and of two extensions, with the key of checks also as the name
of a definition and of a property. -/
def mixedDocument : Json :=
  .object
    [("definitions", .object
      [("x:checks", .object
        [("type", .string "string"), ("x:checks", .object [("minLength", .number (.int (-1)))])]),
        ("loop", .object [("ref", .string "loop"), ("x:checks", .null)])]),
      ("properties", .object
        [("x:checks", .object
          [("type", .string "string"), ("nullable", .null),
            ("x:checks", .object [("pattern", .bool true)])]),
          ("choice", .object
            [("discriminator", .string "kind"), ("mapping", .object []), ("x:checks", .object [])]),
          ("list", .object
            [("elements", .object [("type", .string "integer"), ("x:checks", .object [])])])]),
      ("color", .null),
      ("x:checks", .object [("minProperties", .number (.int 1))])]

theorem mixedDocument_keeps_core :
    CoreErrorsKept literalLibrary mixedDocument ∧
      (compileErrors literalLibrary mixedDocument).map
          (fun error => (error.path, error.fault.code)) =
        [(["definitions", "x:checks", "type"],
            "EXTENSION:X_CHECKS:BOUND:NEGATIVE_OR_NON_INTEGER_BOUND_NOT_ALLOWED"),
          (["definitions", "loop", "ref"], "EXTENSION:X_CHECKS:X_OBJECT:NOT_OBJECT"),
          ([], "DEFINITIONS:NOOP_CIRCULAR_REFERENCES_DETECTED"),
          ([], "COMMON_SCHEMA:UNRECOGNIZED_KEYS"),
          (["properties", "x:checks"], "COMMON_SCHEMA:NON_BOOLEAN_NULLABLE_VALUE"),
          (["properties", "x:checks", "type"],
            "EXTENSION:X_CHECKS:TYPE_FORM:NON_STRING_PATTERN"),
          (["properties", "choice", "discriminator"],
            "EXTENSION:DISALLOW_EMPTY_MAPPINGS:DISCRIMINATOR_FORM:EMPTY_MAPPING"),
          (["properties", "list", "elements", "type"], "TYPE_FORM:UNKNOWN_TYPE")] ∧
      (compileErrors {} (plainDocument literalLibrary mixedDocument)).map
          (fun error => (error.path, error.fault.code)) =
        [([], "DEFINITIONS:NOOP_CIRCULAR_REFERENCES_DETECTED"),
          ([], "COMMON_SCHEMA:UNRECOGNIZED_KEYS"),
          (["properties", "x:checks"], "COMMON_SCHEMA:NON_BOOLEAN_NULLABLE_VALUE"),
          (["properties", "list", "elements", "type"], "TYPE_FORM:UNKNOWN_TYPE")] :=
  ⟨compileErrors_keep_core library_literal mixedDocument, by decide +kernel, by decide +kernel⟩

end Library

end JsonTypeDefinition.Proofs
