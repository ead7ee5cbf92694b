import JsonTypeDefinition.Proofs.DefinitionEdges
import JsonTypeDefinition.Proofs.Origins

/-!
# The errors of a document

A compilation returns the errors of the definitions, then the cycles between them, then the errors
of the root schema. An error of a schema stands at or below the path of that schema.
-/

namespace JsonTypeDefinition.Proofs

/-- The errors that a compilation returns, none if it returns a validator. -/
def compileErrors (options : Options) (document : Json) : List SchemaError :=
  match compile options document with
  | .ok _ => []
  | .error errors => errors.toList

def scopeOf (options : Options) (document : Json) : Scope :=
  ⟨options, Compile.definitionNames document⟩

def circularError (names : List String) : SchemaError :=
  ⟨[], .definitionsCircular names⟩

/-- The errors of the definitions of a document and of the edges between them. -/
def definitionErrors (scope : Scope) : Option Json → List SchemaError
  | some (.object entries) =>
    errorsOfEntries scope .definition ["definitions"] entries ++
      (Cycle.find (edgesOf scope entries)).map circularError
  | some other => [⟨[], .definitionsNotObject other.kind⟩]
  | none => []

/-- The errors of a document, in the order of the walk. -/
def documentErrors (options : Options) (document : Json) : List SchemaError :=
  definitionErrors (scopeOf options document) (Compile.definitions? document) ++
    errorsOf (scopeOf options document) .root [] document

lemma scopeOf_eq {options : Options} {document : Json} {entries : Members}
    (h : Compile.definitions? document = some (.object entries)) :
    scopeOf options document = ⟨options, Members.keys entries⟩ := by
  rw [scopeOf, Compile.definitionNames, h]

lemma lists_definitions (options : Options) {document value : Json}
    (h : Compile.definitions? document = some value) :
    Lists (Compile.definitions options value)
      (definitionErrors (scopeOf options document) (some value)) fun _ => True := by
  cases value with
  | object entries =>
    rw [scopeOf_eq h]
    refine lists_bind (definitionBodies_lists _ entries) fun made hm => ?_
    rw [← hm]
    have hr := lists_report [] ((Cycle.find made.2).map SchemaFault.definitionsCircular)
    rw [List.map_map] at hr
    exact lists_map hr fun _ _ => trivial
  | _ => exact lists_map (lists_report [] _) fun _ _ => trivial

lemma lists_document (options : Options) (document : Json) :
    Lists (Compile.document options document) (documentErrors options document)
      fun _ => True := by
  have hroot : ∀ slots : List (Option NodeId),
      Lists (Compile.schema (scopeOf options document) .root [] document >>= fun id =>
        pure (slots, id)) (errorsOf (scopeOf options document) .root [] document)
        fun _ => True :=
    fun slots => lists_map (schema_lists _ document .root []) fun _ _ => trivial
  unfold Compile.document documentErrors
  cases h : Compile.definitions? document with
  | none => exact lists_bind (p := fun _ => True) (lists_pure trivial) fun slots _ => hroot slots
  | some value => exact lists_bind (lists_definitions options h) fun slots _ => hroot slots

theorem compileErrors_eq (options : Options) (document : Json) :
    compileErrors options document = documentErrors options document := by
  have he : ((Compile.document options document).run {}).2.errors.toList =
      documentErrors options document := by
    rw [(lists_document options document {}).1]
    simp
  rw [← he]
  unfold compileErrors compile
  generalize ((Compile.document options document).run {}) = run at he ⊢
  obtain ⟨⟨slots, id⟩, builder⟩ := run
  dsimp only at he ⊢
  split
  · rename_i hok
    split at hok
    · split_ifs at hok with hempty
      simp_all
    · cases hok
  · rename_i herror
    split at herror
    · split_ifs at herror
      cases herror
      rfl
    · cases herror
      rfl

def isCircular : SchemaFault → Bool
  | .definitionsCircular _ => true
  | _ => false

lemma isCircular_eq (fault : SchemaFault) :
    isCircular fault = decide (originOf fault = .cycles) := by
  cases fault <;> rfl

def Uncircular (faults : List SchemaFault) : Prop :=
  ∀ fault ∈ faults, isCircular fault = false

/-- An error that the schema at `path` can have: it is there or below, never at definitions, and
it is no cycle unless a hook says so. -/
structure Belongs (options : Options) (path : Path) (error : SchemaError) : Prop where
  below : ∃ rest, error.path = path ++ rest ∧ rest.head? ≠ some "definitions"
  hooked : isCircular error.fault →
    ∃ form members path, error.fault ∈ (options.contribution form members path).faults

section Belonging

variable {scope : Scope} {options : Options} {path : Path} {error : SchemaError}

lemma belongs_at {faults : List SchemaFault} (hf : AllFrom .schema faults)
    {rest : Path} (hr : rest.head? ≠ some "definitions")
    (h : error ∈ faults.map (SchemaError.mk (path ++ rest))) : Belongs options path error := by
  obtain ⟨fault, hm, rfl⟩ := List.mem_map.mp h
  refine ⟨⟨rest, rfl, hr⟩, fun hc => ?_⟩
  rw [isCircular_eq, hf fault hm] at hc
  cases hc

lemma belongs_here {faults : List SchemaFault} (hf : AllFrom .schema faults)
    (h : error ∈ faults.map (SchemaError.mk path)) : Belongs options path error := by
  have h' : error ∈ faults.map (SchemaError.mk (path ++ [])) := by rwa [List.append_nil]
  exact belongs_at hf (by simp) h'

lemma belongs_below {key : String} {more : Path} (hk : key ≠ "definitions")
    (h : Belongs options (path ++ key :: more) error) : Belongs options path error := by
  obtain ⟨⟨rest, hp, -⟩, hooked⟩ := h
  exact ⟨⟨key :: (more ++ rest), by simp [hp], by simpa using hk⟩, hooked⟩

def BelongBelow (scope : Scope) (members : Members) : Prop :=
  ∀ value, sizeOf value < sizeOf (Json.object members) → ∀ position path,
    ∀ error ∈ errorsOf scope position path value, Belongs scope.options path error

lemma belongs_entries {members : Members} (h : BelongBelow scope members) {key place : String}
    (hk : place ≠ "definitions") {position : Position}
    (he : error ∈ errorsOfEntries scope position (path ++ [place])
      (entriesIn (members.get? key))) : Belongs scope.options path error := by
  obtain ⟨⟨name, value⟩, hm, he⟩ := List.mem_flatMap.mp he
  have hb := h value (sizeOf_entry_lt hm) position _ error he
  rw [List.append_assoc] at hb
  exact belongs_below hk hb

lemma belongs_sub {members : Members} (h : BelongBelow scope members) {key place : String}
    (hk : place ≠ "definitions")
    (he : error ∈ errorsOfSub scope (path ++ [place]) (members.get? key)) :
    Belongs scope.options path error := by
  cases hf : members.get? key with
  | none =>
    rw [hf] at he
    have he' : error ∈ [SchemaFault.notObject .null].map (SchemaError.mk (path ++ [place])) := he
    exact belongs_at (allFrom_singleton rfl) (by simpa using hk) he'
  | some value =>
    rw [hf] at he
    exact belongs_below hk (h value (sizeOf_member_lt (get?_mem hf)) .nested _ error he)

lemma belongs_form {members : Members} (h : BelongBelow scope members) (form : Form)
    (he : error ∈ formErrors scope path members form) : Belongs scope.options path error := by
  cases form with
  | empty => cases he
  | type => exact belongs_at (typeFaults_schema _) (by simp) he
  | enum => exact belongs_at (enumFaults_schema _) (by simp) he
  | elements => exact belongs_sub h (by simp) he
  | values => exact belongs_sub h (by simp) he
  | ref => exact belongs_at (refFaults_schema _ _) (by simp) he
  | properties =>
    simp only [formErrors, List.mem_append] at he
    rcases he with he | he | he | he | he
    · exact belongs_entries h (by simp) he
    · exact belongs_at (sectionFaults_schema (fun _ => rfl) _) (by simp) he
    · exact belongs_entries h (by simp) he
    · exact belongs_at (allFrom_append (sectionFaults_schema (fun _ => rfl) _)
        (aboutKeys_schema (sharedFaults_keys _ _))) (by simp) he
    · exact belongs_at (flagFaults_schema (fun _ => rfl) members _) (by simp) he
  | discriminator =>
    simp only [formErrors, List.mem_append] at he
    rcases he with he | he | he
    · exact belongs_here (aboutKeys_schema (discriminatorFaults_keys members)) he
    · exact belongs_entries h (by simp) he
    · exact belongs_here (aboutKeys_schema (mappingFaults_keys _)) he

lemma belongs_hook {members : Members} {form : Form}
    (he : error ∈ hookErrors scope path members form) : Belongs scope.options path error := by
  unfold hookErrors at he
  split at he
  · cases he
  · obtain ⟨fault, hm, rfl⟩ := List.mem_map.mp he
    refine ⟨⟨form.keyword?.toList, rfl, ?_⟩, fun _ => ⟨form, members, form.path path, hm⟩⟩
    cases form <;> simp [Form.keyword?]

lemma belongs_object {members : Members} (h : BelongBelow scope members) (position : Position)
    (he : error ∈ objectErrors scope position path members) : Belongs scope.options path error := by
  unfold objectErrors at he
  cases hk : KeyGroups.ofKeys (Members.keys members) scope.options.declared with
  | ambiguous keys =>
    rw [hk] at he
    have he' : error ∈ [SchemaFault.ambiguousForm keys].map (SchemaError.mk path) := he
    exact belongs_here (allFrom_singleton rfl) he'
  | ofForm keys =>
    simp only [hk, List.mem_append] at he
    rcases he with he | he | he
    · exact belongs_here (aboutKeys_schema (levelFaults_keys position keys members)) he
    · exact belongs_form h keys.form he
    · exact belongs_hook he

theorem errorsOf_belong (scope : Scope) (value : Json) : ∀ (position : Position) (path : Path),
    ∀ error ∈ errorsOf scope position path value, Belongs scope.options path error := by
  induction value using value_induction with
  | step value ih =>
    intro position path error he
    by_cases ho : ∃ members, value = .object members
    · obtain ⟨members, rfl⟩ := ho
      rw [errorsOf_object] at he
      exact belongs_object ih position he
    · rw [errorsOf_notObject fun members he => ho ⟨members, he⟩] at he
      have he' : error ∈ [SchemaFault.notObject value.kind].map (SchemaError.mk path) := he
      exact belongs_here (allFrom_singleton rfl) he'

end Belonging

end JsonTypeDefinition.Proofs
