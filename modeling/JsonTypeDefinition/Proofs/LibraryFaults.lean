import JsonTypeDefinition.Checks.Rules
import JsonTypeDefinition.Extension.EmptyMappings
import JsonTypeDefinition.Extension.LeapSeconds
import JsonTypeDefinition.Proofs.DocumentErrors

/-!
# What the library's extensions add

All that the extensions which come with the library report, in a schema or in a value, are errors
of their own. In particular none of them reports a cycle of definitions.
-/

namespace JsonTypeDefinition.Proofs
open Checks

/-- A supplement only finds violations that are an extension's. -/
def IsOwn (supplement : Supplement) : Prop :=
  ∀ value, ∀ violation ∈ supplement value, ofExtension violation = true

structure AllOwn (faults : List SchemaFault) (supplements : List Supplement) : Prop where
  faults : AllFrom .extension faults
  supplements : ∀ supplement ∈ supplements, IsOwn supplement

lemma allOwn_nil : AllOwn [] [] :=
  ⟨allFrom_nil, fun _ h => nomatch h⟩

/-- `reader` adds nothing but an extension's own. -/
def ReadsOwn {α : Type} (reader : Reader α) : Prop :=
  ∀ progress, AllOwn progress.faults progress.supplements →
    AllOwn (reader.run progress).2.faults (reader.run progress).2.supplements

section Rules

variable {α β : Type}

lemma reads_pure (a : α) : ReadsOwn (pure a) :=
  fun _ h => h

lemma reads_bind {reader : Reader α} {next : α → Reader β} (hr : ReadsOwn reader)
    (hn : ∀ a, ReadsOwn (next a)) : ReadsOwn (reader >>= next) :=
  fun progress h => hn _ _ (hr progress h)

lemma reads_take (key : String) : ReadsOwn (Reader.take? key) :=
  fun _ h => h

lemma reads_attach {supplement : Supplement} (hs : IsOwn supplement) :
    ReadsOwn (Reader.attach supplement) :=
  fun _ h => ⟨h.faults, List.forall_mem_append.mpr ⟨h.supplements, List.forall_mem_singleton.mpr hs⟩⟩

lemma reads_report {faults : List SchemaFault} (hf : AllFrom .extension faults) :
    ReadsOwn (Reader.report faults) :=
  fun _ h => ⟨allFrom_append h.faults hf, h.supplements⟩

end Rules

def AdmitsOwn (admission : Admission) : Prop :=
  ∀ side value faults, admission side value = .error faults → AllFrom .extension faults

lemma limitOf_own {rule : BoundRule} {admission : Admission}
    (ha : AdmitsOwn admission) {side : Side} {value : Json} {faults : List SchemaFault}
    (h : limitOf rule admission side value = .error faults) : AllFrom .extension faults := by
  unfold limitOf at h
  cases hadmitted : admission side value with
  | error found =>
    rw [hadmitted] at h
    cases h
    exact ha side value faults hadmitted
  | ok admitted =>
    rw [hadmitted] at h
    have hcount : ∀ limit : Binary64,
        (if rule.counts && !isCount limit then
            throw [SchemaFault.boundNotCount rule.measure side]
          else pure limit : Except (List SchemaFault) Binary64) = .error faults →
        AllFrom .extension faults := by
      intro limit h
      split_ifs at h
      · cases h
        exact allFrom_singleton rfl
      · cases h
    cases admitted with
    | some limit => exact hcount limit h
    | none =>
      cases value with
      | number n => exact hcount n.toBinary64 h
      | _ =>
        cases h
        exact allFrom_singleton rfl

lemma reads_takeBound (rule : BoundRule) (side : Side) :
    ReadsOwn (takeBound? rule side) := by
  unfold takeBound?
  refine reads_bind (reads_take _) fun inclusive => ?_
  cases (rule.keys side).exclusive with
  | none => cases inclusive <;> exact reads_pure _
  | some key =>
    refine reads_bind (reads_take _) fun exclusive => ?_
    cases inclusive with
    | none => cases exclusive <;> exact reads_pure _
    | some value =>
      cases exclusive with
      | none => exact reads_pure _
      | some other =>
        exact reads_bind (reads_report (allFrom_singleton rfl)) fun _ => reads_pure _

lemma reads_bound (rule : BoundRule) {admission : Admission} (ha : AdmitsOwn admission)
    (side : Side) : ReadsOwn (readBound rule admission side) := by
  unfold readBound
  refine reads_bind (reads_takeBound rule side) fun found => ?_
  cases found with
  | none => exact reads_pure _
  | some found =>
    obtain ⟨value, exclusive⟩ := found
    dsimp only
    split
    · exact reads_pure _
    · rename_i faults hl
      exact reads_bind (reads_report (limitOf_own ha hl)) fun _ => reads_pure _

lemma crossFaults_own (measure : Measure) (min max : Bound) :
    AllFrom .extension (crossFaults measure min max) := by
  refine allFrom_ite (allFrom_singleton rfl) ?_
  exact allFrom_ite (allFrom_singleton rfl) allFrom_nil

lemma boundSupplement_own (rule : BoundRule) (side : Side) (bound : Bound) :
    IsOwn (boundSupplement rule side bound) := by
  intro value
  unfold boundSupplement
  split
  · exact List.forall_mem_nil _
  · exact forall_mem_ite (List.forall_mem_singleton.mpr rfl) (List.forall_mem_nil _)

lemma reads_attachBound (rule : BoundRule) (side : Side) (bound : Option Bound) :
    ReadsOwn (bound.forM fun bound => Reader.attach (boundSupplement rule side bound)) := by
  cases bound with
  | none => exact reads_pure _
  | some bound => exact reads_attach (boundSupplement_own rule side bound)

lemma reads_bounds (rule : BoundRule) {admission : Admission} (ha : AdmitsOwn admission) :
    ReadsOwn (readBounds rule admission) := by
  unfold readBounds
  refine reads_bind (reads_bound rule ha .min) fun min => ?_
  refine reads_bind (reads_bound rule ha .max) fun max => ?_
  have hattach : ReadsOwn (do
      min.forM fun bound => Reader.attach (boundSupplement rule .min bound)
      max.forM fun bound => Reader.attach (boundSupplement rule .max bound)) :=
    reads_bind (reads_attachBound rule .min min) fun _ => reads_attachBound rule .max max
  cases min with
  | none => exact hattach
  | some min =>
    cases max with
    | none => exact hattach
    | some max =>
      exact reads_bind (reads_report (crossFaults_own _ min max)) fun _ => hattach

lemma anyBound_own : AdmitsOwn anyBound :=
  fun _ _ _ h => nomatch h

lemma lengthAdmission_own (type : Primitive) :
    AdmitsOwn (lengthAdmission type) := by
  intro side value faults h
  unfold lengthAdmission at h
  split_ifs at h
  cases h
  exact allFrom_singleton rfl

lemma integerBoundFaults_own (type : Primitive) (side : Side) (value : Rat) :
    AllFrom .extension (integerBoundFaults type side value) := by
  unfold integerBoundFaults
  split
  · exact allFrom_nil
  · exact allFrom_append (allFrom_ite allFrom_nil (allFrom_singleton rfl))
      (allFrom_ite (allFrom_singleton rfl) allFrom_nil)

lemma valueAdmission_own (type : Primitive) : AdmitsOwn (valueAdmission type) := by
  intro side value faults h
  unfold valueAdmission at h
  split_ifs at h
  · cases h
    exact allFrom_singleton rfl
  · split at h
    · split at h
      · cases h
      · cases h
        exact allFrom_singleton rfl
    · cases h
      exact allFrom_singleton rfl
  · split at h
    · have hf := integerBoundFaults_own type side (Number.value ‹Number›)
      split at h
      · cases h
      · cases h
        exact hf
    · cases h

def ChecksOwn (check : Json → Except SchemaFault Supplement) : Prop :=
  ∀ value, match check value with
    | .ok supplement => IsOwn supplement
    | .error fault => originOf fault = .extension

lemma reads_check (key : String) {check : Json → Except SchemaFault Supplement}
    (hc : ChecksOwn check) : ReadsOwn (readCheck key check) := by
  unfold readCheck
  refine reads_bind (reads_take key) fun found => ?_
  cases found with
  | none => exact reads_pure _
  | some value =>
    have hvalue := hc value
    dsimp only
    split
    · rename_i supplement he
      rw [he] at hvalue
      exact reads_attach hvalue
    · rename_i fault he
      rw [he] at hvalue
      exact reads_report (allFrom_singleton hvalue)

lemma patternSupplement_own (engine : PatternEngine) (text : String)
    (pattern : engine.Compiled) : IsOwn (patternSupplement engine text pattern) := by
  intro value
  cases value with
  | string s => exact forall_mem_ite (List.forall_mem_nil _) (List.forall_mem_singleton.mpr rfl)
  | _ => exact List.forall_mem_nil _

lemma patternCheck_own (engine : PatternEngine) (type : Primitive) :
    ChecksOwn (patternCheck engine type) := by
  intro value
  unfold patternCheck
  split_ifs
  · rfl
  · cases value with
    | string text =>
      dsimp only
      cases engine.compile text with
      | ok pattern => exact patternSupplement_own engine text pattern
      | error message => rfl
    | _ => rfl

lemma multipleSupplement_own (divisor : Binary64) : IsOwn (multipleSupplement divisor) := by
  intro value
  cases value with
  | number n => exact forall_mem_ite (List.forall_mem_nil _) (List.forall_mem_singleton.mpr rfl)
  | _ => exact List.forall_mem_nil _

lemma multipleCheck_own (type : Primitive) : ChecksOwn (multipleCheck type) := by
  intro value
  unfold multipleCheck
  split_ifs
  · rfl
  · rfl
  · cases value with
    | number n =>
      dsimp only
      split_ifs
      · exact multipleSupplement_own n.toBinary64
      · rfl
    | _ => rfl

lemma uniqueSupplement_own : IsOwn uniqueSupplement := by
  intro value
  cases value with
  | array items => exact forall_mem_ite (List.forall_mem_nil _) (List.forall_mem_singleton.mpr rfl)
  | _ => exact List.forall_mem_nil _

lemma reads_type (engine : PatternEngine) (members : Members) :
    ReadsOwn (readType engine members) := by
  unfold readType
  split
  · exact reads_pure _
  · refine reads_bind (reads_bounds _ (lengthAdmission_own _)) fun _ => ?_
    refine reads_bind (reads_check _ (patternCheck_own engine _)) fun _ => ?_
    refine reads_bind (reads_bounds _ (valueAdmission_own _)) fun _ => ?_
    exact reads_check _ (multipleCheck_own _)

lemma reads_elements : ReadsOwn readElements := by
  unfold readElements
  refine reads_bind (reads_bounds _ anyBound_own) fun _ => ?_
  refine reads_bind (reads_take _) fun found => ?_
  split
  · exact reads_attach uniqueSupplement_own
  · exact reads_pure _

lemma reads_form (engine : PatternEngine) (form : Form) (members : Members) :
    ReadsOwn (readForm engine form members) := by
  cases form with
  | type => exact reads_type engine members
  | elements => exact reads_elements
  | properties => exact reads_bounds _ anyBound_own
  | values => exact reads_bounds _ anyBound_own
  | _ => exact reads_pure _

def HooksOwn (hook : Hook) : Prop :=
  ∀ members path, AllOwn (hook members path).faults (hook members path).supplements

lemma checksHook_own (engine : PatternEngine) (form : Form) :
    HooksOwn (Checks.hook (readForm engine form)) := by
  intro members path
  unfold Checks.hook
  split
  · exact allOwn_nil
  · rename_i checks hchecks
    have hread := reads_form engine form members { remaining := checks } allOwn_nil
    have hsurplus : ∀ remaining, AllFrom .extension (surplusFaults remaining) := fun remaining =>
      allFrom_ite allFrom_nil (allFrom_singleton rfl)
    exact ⟨allFrom_append hread.faults (hsurplus _), hread.supplements⟩
  · exact ⟨allFrom_singleton rfl, List.forall_mem_nil _⟩

lemma emptyMappingsHook_own : HooksOwn EmptyMappings.hook := by
  intro members path
  unfold EmptyMappings.hook
  split
  · exact ⟨allFrom_singleton rfl, List.forall_mem_nil _⟩
  · exact allOwn_nil

lemma leapSecondsHook_own : HooksOwn LeapSeconds.hook := by
  intro members path
  have hsupplement : IsOwn LeapSeconds.supplement := by
    intro value
    cases value with
    | string s => exact forall_mem_ite (List.forall_mem_singleton.mpr rfl) (List.forall_mem_nil _)
    | _ => exact List.forall_mem_nil _
  unfold LeapSeconds.hook
  split_ifs
  · exact ⟨allFrom_nil, List.forall_mem_singleton.mpr hsupplement⟩
  · exact allOwn_nil

/-- The extensions that come with the library, with patterns of an engine. -/
def libraryExtensions (engine : PatternEngine) : List Extension :=
  [EmptyMappings.extension, LeapSeconds.extension, Checks.extensionWith engine]

/-- The engine of literal patterns: letters and digits stand for themselves. -/
def literalEngine : PatternEngine where
  Compiled := List Char
  compile text :=
    if text.toList.all Char.isAlphanum then .ok text.toList
    else .error "not a literal"
  isFoundIn pattern s := s.toList.tails.any fun rest => pattern.isPrefixOf rest

/-- With all extensions of the library, and literal patterns. -/
def literalLibrary : Options where
  extensions := libraryExtensions literalEngine

lemma library_literal :
    ∀ extension ∈ literalLibrary.extensions, extension ∈ libraryExtensions literalEngine :=
  fun _ he => he

variable {engine : PatternEngine}

lemma libraryHooks_own {extension : Extension} (he : extension ∈ libraryExtensions engine)
    {form : Form} {hook : Hook} (hh : (form, hook) ∈ extension.hooks) : HooksOwn hook := by
  simp only [libraryExtensions, List.mem_cons, List.not_mem_nil, or_false] at he
  rcases he with rfl | rfl | rfl
  · simp only [EmptyMappings.extension, List.mem_singleton, Prod.mk.injEq] at hh
    rw [hh.2]
    exact emptyMappingsHook_own
  · simp only [LeapSeconds.extension, List.mem_singleton, Prod.mk.injEq] at hh
    rw [hh.2]
    exact leapSecondsHook_own
  · obtain ⟨other, -, ho⟩ := List.mem_map.mp hh
    cases ho
    exact checksHook_own engine form

lemma mem_hooksFor {options : Options} {form : Form} {hook : Hook}
    (h : hook ∈ options.hooksFor form) :
    ∃ extension ∈ options.extensions, (form, hook) ∈ extension.hooks := by
  obtain ⟨⟨hooked, other⟩, hm, he⟩ := List.mem_filterMap.mp h
  obtain ⟨extension, hx, hm⟩ := List.mem_flatMap.mp hm
  dsimp only at he
  split_ifs at he with hform
  cases he
  exact ⟨extension, hx, hform ▸ hm⟩

theorem contribution_own {options : Options}
    (h : ∀ extension ∈ options.extensions, extension ∈ libraryExtensions engine) (form : Form)
    (members : Members) (path : Path) :
    AllOwn (options.contribution form members path).faults
      (options.contribution form members path).supplements := by
  have hparts : ∀ part ∈ (options.hooksFor form).map fun hook => hook members path,
      AllOwn part.faults part.supplements := by
    refine List.forall_mem_map.mpr fun hook hh => ?_
    obtain ⟨extension, hx, hm⟩ := mem_hooksFor hh
    exact libraryHooks_own (h extension hx) hm members path
  constructor
  · intro fault hf
    obtain ⟨part, hp, hfault⟩ := List.mem_flatMap.mp hf
    exact (hparts part hp).faults fault hfault
  · intro supplement hs
    obtain ⟨part, hp, hsupplement⟩ := List.mem_flatMap.mp hs
    exact (hparts part hp).supplements supplement hsupplement

theorem contribution_uncircular {options : Options}
    (h : ∀ extension ∈ options.extensions, extension ∈ libraryExtensions engine) (form : Form)
    (members : Members) (path : Path) :
    Uncircular (options.contribution form members path).faults := by
  intro fault hf
  rw [isCircular_eq, (contribution_own h form members path).faults fault hf]
  rfl

end JsonTypeDefinition.Proofs
