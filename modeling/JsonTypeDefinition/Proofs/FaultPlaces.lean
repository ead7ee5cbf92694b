import JsonTypeDefinition.Proofs.LibraryFaults
import JsonTypeDefinition.Proofs.Places

/-!
# Places of schema errors

Whatever a document is, the path of each error of its compilation leads from the root to a value in
it. An error that is reported where a value is of a wrong kind tells the kind of the value there. In
the induction over a document, a schema is a value with a path that leads to it, and an error of its
form stands at a key whose look-up the fault comes from.
-/

namespace JsonTypeDefinition.Proofs

/-- The kind of value that a fault reports, if it is reported where that value stands. -/
def reportedKind? : SchemaFault → Option Json.Kind
  | .notObject actual | .typeNotString actual | .enumNotArray actual | .propertiesNotObject actual
  | .optionalPropertiesNotObject actual | .additionalPropertiesNotBoolean actual
  | .refNotString actual => some actual
  | _ => none

/-- The codes of the faults that are reported where a value of a wrong kind stands. -/
def kindCodes : List String :=
  ["SCHEMA_FORM:NOT_OBJECT", "TYPE_FORM:NON_STRING_TYPE", "ENUM_FORM:NON_ARRAY_ENUM",
    "PROPERTIES_FORM:NON_OBJECT_PROPERTIES", "PROPERTIES_FORM:NON_OBJECT_OPTIONAL_PROPERTIES",
    "PROPERTIES_FORM:NON_BOOLEAN_ADDITIONAL_PROPERTIES", "REF_FORM:NON_STRING_REF"]

/-- A fault may be reported at a value: if it reports the kind of what is there, then that one. -/
def Fits (value : Json) (fault : SchemaFault) : Prop :=
  ∀ kind, reportedKind? fault = some kind → value.kind = kind

/-- An error points at a value of a document. If it is about the kind of that value, the kind is
the one detail it gives. -/
def PointsAt (document : Json) (error : SchemaError) : Prop :=
  ∃ found, resolve document error.path = some found ∧
    (error.fault.code ∈ kindCodes →
      ∃ key, error.fault.fields = [SchemaFault.kindField key found.kind])

section Fitting

variable {document value : Json} {fault : SchemaFault} {faults : List SchemaFault} {path : Path}
  {error : SchemaError}

lemma reportedKind?_of_code (h : fault.code ∈ kindCodes) :
    ∃ kind key, reportedKind? fault = some kind ∧
      fault.fields = [SchemaFault.kindField key kind] := by
  cases fault <;> first
    | exact ⟨_, _, rfl, rfl⟩
    | simp [SchemaFault.code, kindCodes] at h

lemma reportedKind?_eq_none (h : isAboutKeys fault = true ∨ originOf fault = .extension) :
    reportedKind? fault = none := by
  cases fault <;> first | rfl | simp [isAboutKeys, originOf] at h

lemma fits_none (h : reportedKind? fault = none) : Fits value fault := by
  intro kind hkind
  cases h.symm.trans hkind

lemma fits_aboutKeys (h : AboutKeys faults) : ∀ fault ∈ faults, Fits value fault :=
  fun fault hm => fits_none (reportedKind?_eq_none (.inl (h fault hm)))

lemma fits_extension (h : AllFrom .extension faults) : ∀ fault ∈ faults, Fits value fault :=
  fun fault hm => fits_none (reportedKind?_eq_none (.inr (h fault hm)))

lemma fits_kind (h : reportedKind? fault = some value.kind) : Fits value fault :=
  fun _ hkind => Option.some.inj (h.symm.trans hkind)

lemma points_at (hleads : Leads document path value) (hf : ∀ fault ∈ faults, Fits value fault)
    (he : error ∈ faults.map (SchemaError.mk path)) : PointsAt document error := by
  obtain ⟨fault, hm, rfl⟩ := List.mem_map.mp he
  refine ⟨value, hleads.resolves, fun hcode => ?_⟩
  obtain ⟨kind, key, hkind, hfields⟩ := reportedKind?_of_code hcode
  exact ⟨key, hf fault hm kind hkind ▸ hfields⟩

lemma points_one (hleads : Leads document path value) (hf : Fits value fault) :
    PointsAt document ⟨path, fault⟩ :=
  points_at hleads (List.forall_mem_singleton.mpr hf) (List.mem_singleton_self _)

lemma typeFaults_fit (value : Json) : ∀ fault ∈ typeFaults value, Fits value fault := by
  cases value with
  | string name =>
    exact forall_mem_ite (List.forall_mem_singleton.mpr (fits_none rfl)) (List.forall_mem_nil _)
  | _ => exact List.forall_mem_singleton.mpr (fits_kind rfl)

lemma enumFaults_fit (value : Json) : ∀ fault ∈ enumFaults value, Fits value fault := by
  unfold enumFaults
  split
  · exact List.forall_mem_singleton.mpr (fits_none rfl)
  · refine List.forall_mem_append.mpr
      ⟨forall_mem_ite (List.forall_mem_singleton.mpr (fits_none rfl)) (List.forall_mem_nil _), ?_⟩
    split
    · exact List.forall_mem_nil _
    · exact List.forall_mem_singleton.mpr (fits_none rfl)
  · exact List.forall_mem_singleton.mpr (fits_kind rfl)

lemma refFaults_fit (definitions : List String) (value : Json) :
    ∀ fault ∈ refFaults definitions value, Fits value fault := by
  cases value with
  | string name =>
    exact forall_mem_ite (List.forall_mem_nil _) (List.forall_mem_singleton.mpr (fits_none rfl))
  | _ => exact List.forall_mem_singleton.mpr (fits_kind rfl)

lemma sectionFaults_fit {fault : Json.Kind → SchemaFault}
    (hf : ∀ kind, reportedKind? (fault kind) = some kind) (value : Json) :
    ∀ found ∈ sectionFaults fault (some value), Fits value found := by
  cases value with
  | object entries => exact List.forall_mem_nil _
  | _ => exact List.forall_mem_singleton.mpr (fits_kind (hf _))

/-- What is reported at the optional properties. Some may be required as well, but none if there are
no optional ones. -/
def optionalFaults (required : List String) (optional : Option Json) : List SchemaFault :=
  sectionFaults .optionalPropertiesNotObject optional ++
    sharedFaults required (Members.keys (entriesIn optional))

lemma optionalFaults_fit (required : List String) (value : Json) :
    ∀ found ∈ optionalFaults required (some value), Fits value found :=
  List.forall_mem_append.mpr
    ⟨sectionFaults_fit (fun _ => rfl) value, fits_aboutKeys (sharedFaults_keys _ _)⟩

end Fitting

section Levels

variable {engine : PatternEngine} {document : Json} {scope : Scope} {path : Path}
  {members : Members} {form : Form} {error : SchemaError}

def PointBelow (scope : Scope) (document : Json) (members : Members) : Prop :=
  ∀ value, sizeOf value < sizeOf (Json.object members) → ∀ position path,
    Leads document path value → ∀ error ∈ errorsOf scope position path value,
      PointsAt document error

lemma points_entries (h : PointBelow scope document members)
    (hleads : Leads document path (.object members)) {key : String} {position : Position}
    (he : error ∈ errorsOfEntries scope position (path ++ [key])
      (entriesIn (members.get? key))) : PointsAt document error := by
  obtain ⟨⟨name, value⟩, hm, he⟩ := List.mem_flatMap.mp he
  exact h value (sizeOf_entry_lt hm) position _ (leads_entry hleads hm) error he

lemma points_found (hleads : Leads document path (.object members)) {key : String}
    (faults : Option Json → List SchemaFault) (hnone : faults none = [])
    (hsome : ∀ value, ∀ fault ∈ faults (some value), Fits value fault)
    (he : error ∈ (faults (members.get? key)).map (SchemaError.mk (path ++ [key]))) :
    PointsAt document error := by
  cases hv : members.get? key with
  | none =>
    rw [hv, hnone] at he
    cases he
  | some value =>
    rw [hv] at he
    exact points_at (leads_key hleads hv) (hsome value) he

lemma leads_keyword (hleads : Leads document path (.object members))
    (hform : HasForm (Members.keys members) form) {key : String}
    (hkey : form.keyword? = some key) :
    ∃ value, members.get? key = some value ∧ Leads document (path ++ [key]) value := by
  obtain ⟨value, hv⟩ := mem_keys_iff.mp (keyword_mem hform hkey)
  exact ⟨value, hv, leads_key hleads hv⟩

lemma points_field (hleads : Leads document path (.object members))
    (hform : HasForm (Members.keys members) form) {key : String}
    (hkey : form.keyword? = some key) {faults : Json → List SchemaFault}
    (hfits : ∀ value, ∀ fault ∈ faults value, Fits value fault)
    (he : error ∈ (faults (Compile.field members key)).map (SchemaError.mk (path ++ [key]))) :
    PointsAt document error := by
  obtain ⟨value, hv, hbelow⟩ := leads_keyword hleads hform hkey
  rw [Compile.field, hv, Option.getD_some] at he
  exact points_at hbelow (hfits value) he

lemma points_sub (h : PointBelow scope document members)
    (hleads : Leads document path (.object members))
    (hform : HasForm (Members.keys members) form) {key : String}
    (hkey : form.keyword? = some key)
    (he : error ∈ errorsOfSub scope (path ++ [key]) (members.get? key)) :
    PointsAt document error := by
  obtain ⟨value, hv, hbelow⟩ := leads_keyword hleads hform hkey
  rw [hv] at he
  exact h value (sizeOf_member_lt (get?_mem hv)) .nested _ hbelow error he

lemma points_additional (hleads : Leads document path (.object members))
    (he : error ∈ (Compile.additionalFaults members).map
      (SchemaError.mk (path ++ ["additionalProperties"]))) : PointsAt document error := by
  unfold Compile.additionalFaults Compile.flagFaults at he
  split at he
  · cases he
  · cases he
  · rename_i value _ hv
    exact points_at (leads_key hleads hv) (List.forall_mem_singleton.mpr (fits_kind rfl)) he

lemma points_form (h : PointBelow scope document members)
    (hleads : Leads document path (.object members))
    (hform : HasForm (Members.keys members) form)
    (he : error ∈ formErrors scope path members form) : PointsAt document error := by
  cases form with
  | empty => cases he
  | type => exact points_field hleads hform rfl typeFaults_fit he
  | enum => exact points_field hleads hform rfl enumFaults_fit he
  | elements => exact points_sub h hleads hform rfl he
  | values => exact points_sub h hleads hform rfl he
  | ref => exact points_field hleads hform rfl (refFaults_fit scope.definitions) he
  | properties =>
    simp only [formErrors, List.mem_append] at he
    rcases he with he | he | he | he | he
    · exact points_entries h hleads he
    · exact points_found hleads _ rfl (sectionFaults_fit fun _ => rfl) he
    · exact points_entries h hleads he
    · exact points_found hleads (optionalFaults _) rfl (optionalFaults_fit _) he
    · exact points_additional hleads he
  | discriminator =>
    simp only [formErrors, List.mem_append] at he
    rcases he with he | he | he
    · exact points_at hleads (fits_aboutKeys (discriminatorFaults_keys members)) he
    · exact points_entries h hleads he
    · exact points_at hleads (fits_aboutKeys (mappingFaults_keys _)) he

/-- Hooks report at the key of a form, or at the object if the form has no one key. -/
lemma points_hook
    (hlibrary : ∀ extension ∈ scope.options.extensions, extension ∈ libraryExtensions engine)
    (hleads : Leads document path (.object members))
    (hform : HasForm (Members.keys members) form)
    (he : error ∈ hookErrors scope path members form) : PointsAt document error := by
  have hplace : ∃ value, Leads document (form.path path) value := by
    rw [Form.path]
    cases hkey : form.keyword? with
    | none => exact ⟨_, by rwa [Option.toList_none, List.append_nil]⟩
    | some key =>
      obtain ⟨value, -, hbelow⟩ := leads_keyword hleads hform hkey
      exact ⟨value, hbelow⟩
  obtain ⟨value, hvalue⟩ := hplace
  unfold hookErrors at he
  split at he
  · cases he
  · exact points_at hvalue (fits_extension (contribution_own hlibrary form members _).faults) he

lemma points_object
    (hlibrary : ∀ extension ∈ scope.options.extensions, extension ∈ libraryExtensions engine)
    (h : PointBelow scope document members) (hleads : Leads document path (.object members))
    (position : Position) (he : error ∈ objectErrors scope position path members) :
    PointsAt document error := by
  unfold objectErrors at he
  cases hkeys : KeyGroups.ofKeys (Members.keys members) scope.options.declared with
  | ambiguous keys =>
    rw [hkeys] at he
    cases List.mem_singleton.mp he
    exact points_one hleads (fits_none rfl)
  | ofForm keys =>
    have hform := (hasForm_of_ofKeys hkeys).1
    simp only [hkeys, List.mem_append] at he
    rcases he with he | he | he
    · exact points_at hleads (fits_aboutKeys (levelFaults_keys position keys members)) he
    · exact points_form h hleads hform he
    · exact points_hook hlibrary hleads hform he

theorem errorsOf_point
    (hlibrary : ∀ extension ∈ scope.options.extensions, extension ∈ libraryExtensions engine)
    (value : Json) : ∀ (position : Position) (path : Path), Leads document path value →
      ∀ error ∈ errorsOf scope position path value, PointsAt document error := by
  induction value using value_induction with
  | step value ih =>
    intro position path hleads error he
    by_cases ho : ∃ members, value = .object members
    · obtain ⟨members, rfl⟩ := ho
      rw [errorsOf_object] at he
      exact points_object hlibrary ih hleads position he
    · rw [errorsOf_notObject fun members he => ho ⟨members, he⟩] at he
      cases List.mem_singleton.mp he
      exact points_one hleads (fits_kind rfl)

end Levels

section Documents

variable {engine : PatternEngine} {options : Options} {document : Json} {error : SchemaError}

lemma definitionErrors_point
    (hlibrary : ∀ extension ∈ options.extensions, extension ∈ libraryExtensions engine)
    (hd : distinctKeys document = true)
    (he : error ∈ definitionErrors (scopeOf options document) (Compile.definitions? document)) :
    PointsAt document error := by
  have hroot := leads_root hd
  cases hfound : Compile.definitions? document with
  | none =>
    rw [hfound] at he
    cases he
  | some value =>
    obtain ⟨members, rfl, hv⟩ : ∃ members, document = .object members ∧
        Members.get? members "definitions" = some value := by
      cases document with
      | object members => exact ⟨members, rfl, hfound⟩
      | _ => cases hfound
    rw [hfound] at he
    cases value with
    | object entries =>
      rcases List.mem_append.mp he with he | he
      · have hentries : entriesIn (Members.get? members "definitions") = entries := by
          rw [hv, entriesIn]
        rw [← hentries] at he
        obtain ⟨⟨name, value⟩, hm, he⟩ := List.mem_flatMap.mp he
        exact errorsOf_point hlibrary value _ _ (leads_entry hroot hm) error he
      · obtain ⟨names, -, rfl⟩ := List.mem_map.mp he
        exact points_one hroot (fits_none rfl)
    | _ =>
      cases List.mem_singleton.mp he
      exact points_one hroot (fits_none rfl)

/-- With any of the library's extensions, every error of a compilation points at a value of the
document, and one about the kind of that value reports its kind. -/
theorem compileErrors_point
    (hlibrary : ∀ extension ∈ options.extensions, extension ∈ libraryExtensions engine)
    (hd : distinctKeys document = true) :
    ∀ error ∈ compileErrors options document, PointsAt document error := by
  intro error he
  rw [compileErrors_eq, documentErrors] at he
  rcases List.mem_append.mp he with he | he
  · exact definitionErrors_point hlibrary hd he
  · exact errorsOf_point hlibrary document _ _ (leads_root hd) error he

end Documents

/-- Something is wrong with each of these schemas, and with what the extension for value checks is
told of the root. -/
def brokenDocument : Json :=
  .object
    [("definitions", .object [("loop", .object [("ref", .string "loop")]), ("odd", .array [])]),
      ("properties", .object
        [("code", .object [("type", .number (.int 3))]),
          ("list", .object [("elements", .object [("enum", .object [])])])]),
      ("optionalProperties", .object [("list", .object [("ref", .null)])]),
      ("additionalProperties", .number (.int 1)),
      ("x:checks", .object [("minProperties", .string "two")])]

def brokenPlaces : List (Path × Option Json.Kind) :=
  [(["definitions", "odd"], some .array),
    ([], none),
    (["properties", "code", "type"], some .number),
    (["properties", "list", "elements", "enum"], some .object),
    (["optionalProperties", "list", "ref"], some .null),
    (["optionalProperties"], none),
    (["additionalProperties"], some .number),
    ([], none)]

/-- The cycle, the shared name and the bound are no errors about a kind. -/
theorem brokenDocument_points :
    (∀ extension ∈ literalLibrary.extensions, extension ∈ libraryExtensions literalEngine) ∧
    distinctKeys brokenDocument = true ∧
    (∀ error ∈ compileErrors literalLibrary brokenDocument, PointsAt brokenDocument error) ∧
    (compileErrors literalLibrary brokenDocument).map
      (fun error => (error.path, reportedKind? error.fault)) = brokenPlaces := by
  have hd : distinctKeys brokenDocument = true := by decide
  exact ⟨library_literal, hd, compileErrors_point library_literal hd, by decide +kernel⟩

end JsonTypeDefinition.Proofs
