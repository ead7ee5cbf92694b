import JsonTypeDefinition.Proofs.SchemaErrors

/-!
# Who finds an error

Some faults are found on a schema object, some between the definitions, and some by an extension.
`originOf` sorts them, `ofExtension` does so for violations, and both agree with the codes: those of
extensions start in a way of their own.
-/

namespace JsonTypeDefinition.Proofs

/-- What finds a fault. -/
inductive Origin where
  | schema
  | cycles
  | extension
  deriving DecidableEq

def originOf : SchemaFault → Origin
  | .definitionsCircular _ => .cycles
  | .mappingEmpty | .checksNotObject | .checksSurplus _ | .lengthOnOtherType _
  | .patternOnOtherType _ | .patternNotString _ | .patternInvalid _ | .boundOnUnorderedType _ _
  | .timestampBoundNotString _ _ | .timestampBoundMalformed _ | .integerBoundNotWhole _
  | .integerBoundOutOfRange _ _ | .multipleOfOnOtherType | .multipleOfOnFloat
  | .multipleOfNotNumber | .multipleOfNotWhole | .boundsCross _ | .boundsExcludeAll _
  | .boundGivenTwice _ _ | .boundNotNumber _ _ _ | .boundNotCount _ _ => .extension
  | _ => .schema

/-- Whether an extension finds violations of a kind. -/
def ofExtension : Violation → Bool
  | .leapSecond | .patternMismatch _ | .notMultipleOf _ | .elementsNotUnique
  | .outOfBound _ _ _ => true
  | _ => false

def isExtensionCode (code : String) : Bool :=
  code.startsWith "EXTENSION:"

section Codes

/-- Said of characters, so that a literal need not be decoded to see how it starts. -/
lemma isExtensionCode_ofList (chars : List Char) : isExtensionCode (String.ofList chars) =
    ['E', 'X', 'T', 'E', 'N', 'S', 'I', 'O', 'N', ':'].isPrefixOf chars := by
  rw [Bool.eq_iff_iff, isExtensionCode, String.startsWith_string_iff, List.isPrefixOf_iff_prefix,
    String.toList_ofList, String.toList_ofList]

lemma isExtensionCode_fault (fault : SchemaFault) :
    isExtensionCode fault.code = decide (originOf fault = .extension) := by
  cases fault <;> exact (isExtensionCode_ofList _).trans rfl

lemma isExtensionCode_violation (violation : Violation) :
    isExtensionCode violation.code = ofExtension violation := by
  cases violation <;> exact (isExtensionCode_ofList _).trans rfl

end Codes

def AllFrom (origin : Origin) (faults : List SchemaFault) : Prop :=
  ∀ fault ∈ faults, originOf fault = origin

lemma forall_mem_ite {α : Type} {p : Prop} [Decidable p] {q : α → Prop} {items others : List α}
    (h : ∀ item ∈ items, q item) (ho : ∀ item ∈ others, q item) :
    ∀ item ∈ if p then items else others, q item := by
  split_ifs
  · exact h
  · exact ho

section Faults

variable {origin : Origin} {faults others : List SchemaFault}

lemma allFrom_nil : AllFrom origin [] :=
  fun _ h => nomatch h

lemma allFrom_singleton {fault : SchemaFault} (h : originOf fault = origin) :
    AllFrom origin [fault] :=
  List.forall_mem_singleton.mpr h

lemma allFrom_append (h : AllFrom origin faults) (ho : AllFrom origin others) :
    AllFrom origin (faults ++ others) :=
  List.forall_mem_append.mpr ⟨h, ho⟩

lemma allFrom_ite {p : Prop} [Decidable p] (h : AllFrom origin faults)
    (ho : AllFrom origin others) : AllFrom origin (if p then faults else others) :=
  forall_mem_ite h ho

lemma typeFaults_schema (value : Json) : AllFrom .schema (typeFaults value) := by
  cases value with
  | string name => exact allFrom_ite (allFrom_singleton rfl) allFrom_nil
  | _ => exact allFrom_singleton rfl

lemma enumFaults_schema (value : Json) : AllFrom .schema (enumFaults value) := by
  unfold enumFaults
  split
  · exact allFrom_singleton rfl
  · refine allFrom_append (allFrom_ite (allFrom_singleton rfl) allFrom_nil) ?_
    split
    · exact allFrom_nil
    · exact allFrom_singleton rfl
  · exact allFrom_singleton rfl

lemma refFaults_schema (definitions : List String) (value : Json) :
    AllFrom .schema (refFaults definitions value) := by
  cases value with
  | string name => exact allFrom_ite allFrom_nil (allFrom_singleton rfl)
  | _ => exact allFrom_singleton rfl

lemma sectionFaults_schema {fault : Json.Kind → SchemaFault}
    (hf : ∀ kind, originOf (fault kind) = .schema) (found : Option Json) :
    AllFrom .schema (sectionFaults fault found) := by
  unfold sectionFaults
  split
  · exact allFrom_nil
  · exact allFrom_singleton (hf _)
  · exact allFrom_nil

lemma forall_flagFaults {p : SchemaFault → Prop} {fault : Json.Kind → SchemaFault}
    (h : ∀ kind, p (fault kind)) (members : Members) (key : String) :
    ∀ found ∈ Compile.flagFaults members key fault, p found := by
  unfold Compile.flagFaults
  split
  · exact List.forall_mem_nil _
  · exact List.forall_mem_nil _
  · exact List.forall_mem_singleton.mpr (h _)

lemma flagFaults_schema {fault : Json.Kind → SchemaFault}
    (hf : ∀ kind, originOf (fault kind) = .schema) (members : Members) (key : String) :
    AllFrom .schema (Compile.flagFaults members key fault) :=
  forall_flagFaults hf members key

end Faults

/-- Whether a fault on a schema object is about its keys: about which there are, or about what
stands at one of them while the object is where it is reported. -/
def isAboutKeys : SchemaFault → Bool
  | .ambiguousForm _ | .mappingOfOtherForm _ | .mappingNullable | .mappingDeclaresTag _
  | .rootOnlyKeys _ | .unrecognizedKeys _ _ | .nullableNotBoolean _ | .propertiesOverlap _
  | .discriminatorNotString _ | .mappingMissing | .mappingNotObject _ => true
  | _ => false

def AboutKeys (faults : List SchemaFault) : Prop :=
  ∀ fault ∈ faults, isAboutKeys fault = true

section Keys

lemma aboutKeys_nil : AboutKeys [] :=
  List.forall_mem_nil _

lemma aboutKeys_singleton {fault : SchemaFault} (h : isAboutKeys fault = true) :
    AboutKeys [fault] :=
  List.forall_mem_singleton.mpr h

lemma aboutKeys_schema {faults : List SchemaFault} (h : AboutKeys faults) :
    AllFrom .schema faults := by
  intro fault hm
  have hkeys := h fault hm
  cases fault <;> first | rfl | cases hkeys

lemma sharedFaults_keys (required optional : List String) :
    AboutKeys (sharedFaults required optional) := by
  unfold sharedFaults
  split
  · exact aboutKeys_nil
  · exact aboutKeys_singleton rfl

lemma mappingFaults_keys (found : Option Json) : AboutKeys (mappingFaults found) := by
  unfold mappingFaults
  split
  · exact aboutKeys_nil
  · exact aboutKeys_singleton rfl
  · exact aboutKeys_singleton rfl

lemma discriminatorFaults_keys (members : Members) :
    AboutKeys (Compile.discriminatorFaults members) := by
  unfold Compile.discriminatorFaults
  split
  · exact aboutKeys_nil
  · exact aboutKeys_singleton rfl

lemma commonFaults_keys (keys : FormKeys) (members : Members) :
    AboutKeys (Compile.commonFaults keys members) := by
  refine List.forall_mem_append.mpr
    ⟨forall_mem_ite aboutKeys_nil (aboutKeys_singleton rfl), ?_⟩
  exact forall_flagFaults (p := fun fault => isAboutKeys fault = true) (fun _ => rfl) members
    "nullable"

lemma placeFaults_keys (position : Position) (keys : FormKeys) (members : Members) :
    AboutKeys (Compile.placeFaults position keys members) := by
  refine List.forall_mem_append.mpr
    ⟨?_, forall_mem_ite (aboutKeys_singleton rfl) aboutKeys_nil⟩
  cases position with
  | mapping tag =>
    refine List.forall_mem_append.mpr
      ⟨?_, forall_mem_ite (aboutKeys_singleton rfl) aboutKeys_nil⟩
    refine forall_mem_ite ?_ (aboutKeys_singleton rfl)
    cases tag with
    | none => exact aboutKeys_nil
    | some tag => exact forall_mem_ite (aboutKeys_singleton rfl) aboutKeys_nil
  | _ => exact aboutKeys_nil

lemma levelFaults_keys (position : Position) (keys : FormKeys) (members : Members) :
    AboutKeys (Compile.placeFaults position keys members ++ Compile.commonFaults keys members) :=
  List.forall_mem_append.mpr
    ⟨placeFaults_keys position keys members, commonFaults_keys keys members⟩

end Keys

end JsonTypeDefinition.Proofs
