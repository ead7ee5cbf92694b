import JsonTypeDefinition.Proofs.SchemaErrors

/-!
# The edges between definitions

The note of what a definition refers to is one field that the whole walk over the definition could
write. Only the definition's own schema object does: after compiling it the note says what
`reference?` reads off the object, and `definitionBodies_lists` gathers `edgesOf` from the notes.
-/

namespace JsonTypeDefinition.Proofs

/-- What a schema refers to if it is an object of the ref form. -/
def reference? (scope : Scope) : Json → Option String
  | .object members =>
    match KeyGroups.ofKeys (Members.keys members) scope.options.declared with
    | .ofForm keys => if keys.form = .ref then (Compile.field members "ref").string? else none
    | .ambiguous _ => none
  | _ => none

/-- The edges of the definitions that are references themselves. -/
def edgesOf (scope : Scope) (entries : Members) : Cycle.Edges :=
  entries.flatMap fun (name, value) =>
    ((reference? scope value).map fun target => (name, target)).toList

lemma lookup_edgesOf_cons (scope : Scope) (source name : String) (value : Json)
    (rest : List (String × Json)) :
    (edgesOf scope ((source, value) :: rest)).lookup name =
      (if source = name then reference? scope value else none).or
        ((edgesOf scope rest).lookup name) := by
  have hcons : edgesOf scope ((source, value) :: rest) =
      ((reference? scope value).map fun target => (source, target)).toList ++
        edgesOf scope rest := rfl
  rw [hcons, List.lookup_append]
  congr 1
  cases reference? scope value with
  | none => exact (ite_self _).symm
  | some target =>
    rw [Option.map_some, Option.toList_some, List.lookup_cons]
    by_cases he : source = name
    · rw [if_pos he, he, beq_self_eq_true]
    · rw [if_neg he, beq_false_of_ne (Ne.symm he)]
      rfl

/-- `build` leaves the note of a reference as it is, or notes `target`. -/
def Notes {α : Type} (build : Build α) (target : Option String) : Prop :=
  ∀ b, (build.run b).2.reference = target.or b.reference

section Rules

variable {α β : Type} {target : Option String}

lemma notes_pure (a : α) : Notes (pure a) none :=
  fun _ => rfl

lemma notes_after {build : Build α} {next : α → Build β} (hb : Notes build none)
    (hn : ∀ a, Notes (next a) target) : Notes (build >>= next) target := by
  intro b
  have hrun : (build >>= next).run b = (next (build.run b).1).run (build.run b).2 := rfl
  rw [hrun, hn, hb b, Option.none_or]

lemma notes_before {build : Build α} {next : α → Build β} (hb : Notes build target)
    (hn : ∀ a, Notes (next a) none) : Notes (build >>= next) target := by
  intro b
  have hrun : (build >>= next).run b = (next (build.run b).1).run (build.run b).2 := rfl
  rw [hrun, hn, hb b, Option.none_or]

lemma notes_report (path : Path) (faults : List SchemaFault) :
    Notes (Build.report path faults) none :=
  fun _ => rfl

lemma notes_report_then (path : Path) (faults : List SchemaFault) (a : α) :
    Notes (Build.report path faults >>= fun _ => pure a) none :=
  notes_after (notes_report path faults) fun _ => notes_pure a

lemma notes_add (node : Node) : Notes (Build.add node) none := by
  intro b
  rw [run_add]
  split <;> rfl

lemma notes_noteReference (position : Position) (name : String) :
    Notes (Build.noteReference position name)
      (if position = .definition then some name else none) := by
  intro b
  rw [run_noteReference]
  dsimp only
  split <;> rfl

end Rules

/-- What the schema of a position notes: a definition what it refers to, any other nothing. -/
def noteOf (scope : Scope) (position : Position) (value : Json) : Option String :=
  if position = .definition then reference? scope value else none

section Levels

variable {scope : Scope} {members : Members}

lemma notes_finish (form : Form) (path : Path) (draft : Draft) :
    Notes (Compile.finish scope form path members draft) none := by
  cases draft with
  | abandoned => exact notes_pure _
  | faulty => exact notes_report_then _ _ _
  | ready shape => exact notes_after (notes_report _ _) fun _ => notes_add _

lemma notes_typeDraft (path : Path) : Notes (Compile.typeDraft path members) none := by
  unfold Compile.typeDraft
  split
  · split
    · exact notes_pure _
    · exact notes_report_then _ _ _
  · exact notes_report_then _ _ _

lemma notes_enumDraft (path : Path) : Notes (Compile.enumDraft path members) none := by
  unfold Compile.enumDraft
  split
  · exact notes_report_then _ _ _
  · refine notes_after (notes_report _ _) fun _ => ?_
    split
    · exact notes_pure _
    · exact notes_report_then _ _ _
  · exact notes_report_then _ _ _

lemma notes_refDraft (position : Position) (path : Path) :
    Notes (Compile.refDraft scope position path members)
      (if position = .definition then (Compile.field members "ref").string? else none) := by
  unfold Compile.refDraft
  cases Compile.field members "ref" with
  | string name =>
    refine notes_after (notes_report _ _) fun _ => ?_
    exact notes_before (notes_noteReference position name) fun _ => notes_pure _
  | _ =>
    simp only [Json.string?, ite_self]
    exact notes_report_then _ _ _

lemma notes_discriminatorDraft (path : Path) (tag : Option String) (mapping : Section) :
    Notes (Compile.discriminatorDraft path tag mapping) none := by
  unfold Compile.discriminatorDraft
  split
  · exact notes_report_then _ _ _
  · exact notes_report_then _ _ _
  · exact notes_pure _

def SilentBelow (scope : Scope) (members : Members) : Prop :=
  ∀ value, sizeOf value < sizeOf (Json.object members) → ∀ position path,
    position ≠ .definition → Notes (Compile.schema scope position path value) none

lemma notes_schemas {position : Position} (hp : position ≠ .definition) {entries : Members}
    (h : ∀ name value, (name, value) ∈ entries → ∀ position path, position ≠ .definition →
      Notes (Compile.schema scope position path value) none) (path : Path) :
    Notes (Compile.schemas scope position path entries) none := by
  induction entries with
  | nil => exact notes_pure _
  | cons entry rest ih =>
    obtain ⟨name, value⟩ := entry
    have ih' := ih fun name value hm => h name value (List.mem_cons_of_mem _ hm)
    refine notes_after (h name value List.mem_cons_self position _ hp) fun sub => ?_
    exact notes_after ih' fun subs => notes_pure _

lemma notes_buildSub (h : SilentBelow scope members) (path : Path) (key : String) :
    Notes (buildSub scope path (members.get? key)) none := by
  cases hf : members.get? key with
  | none => exact notes_report_then _ _ _
  | some value => exact h value (sizeOf_member_lt (get?_mem hf)) .nested path (by simp)

lemma notes_buildSection (h : SilentBelow scope members) {position : Position}
    (hp : position ≠ .definition) (path : Path) (key : String) :
    Notes (buildSection scope position path (members.get? key)) none := by
  have he : ∀ name value, (name, value) ∈ entriesIn (members.get? key) → ∀ position path,
      position ≠ .definition → Notes (Compile.schema scope position path value) none :=
    fun name value hm => h value (sizeOf_entry_lt hm)
  unfold buildSection
  split
  · exact notes_pure _
  · rename_i entries hf
    rw [hf] at he
    exact notes_after (notes_schemas hp he path) fun _ => notes_pure _
  · exact notes_pure _

lemma notes_formDraft (h : SilentBelow scope members) (position : Position) (path : Path)
    {form : Form} (hf : form ≠ .ref) : Notes (formDraft scope position path members form) none := by
  cases form with
  | ref => exact absurd rfl hf
  | empty => exact notes_pure _
  | type => exact notes_typeDraft _
  | enum => exact notes_enumDraft _
  | elements => exact notes_after (notes_buildSub h _ _) fun _ => notes_pure _
  | values => exact notes_after (notes_buildSub h _ _) fun _ => notes_pure _
  | properties =>
    refine notes_after (notes_buildSection h (by simp) _ _) fun required => ?_
    refine notes_after (notes_report _ _) fun _ => ?_
    refine notes_after (notes_buildSection h (by simp) _ _) fun optional => ?_
    exact notes_after (notes_report _ _) fun _ => notes_report_then _ _ _
  | discriminator =>
    refine notes_after (notes_report _ _) fun _ => ?_
    refine notes_after (notes_buildSection h (by simp) _ _) fun mapping => ?_
    exact notes_discriminatorDraft _ _ _

lemma notes_object (h : SilentBelow scope members) (position : Position) (path : Path) :
    Notes (Compile.schema scope position path (.object members))
      (noteOf scope position (.object members)) := by
  rw [schema_object, noteOf, reference?]
  cases KeyGroups.ofKeys (Members.keys members) scope.options.declared with
  | ambiguous keys =>
    simp only [ite_self]
    exact notes_report_then _ _ _
  | ofForm keys =>
    refine notes_after (notes_report _ _) fun _ => ?_
    refine notes_before ?_ fun draft => notes_finish _ _ _
    by_cases hr : keys.form = .ref
    · simp only [hr, if_true]
      exact notes_refDraft position _
    · simp only [hr, if_false, ite_self]
      exact notes_formDraft h position path hr

end Levels

lemma notes_schema (scope : Scope) (value : Json) : ∀ (position : Position) (path : Path),
    Notes (Compile.schema scope position path value) (noteOf scope position value) := by
  induction value using value_induction with
  | step value ih =>
    intro position path
    by_cases ho : ∃ members, value = .object members
    · obtain ⟨members, rfl⟩ := ho
      refine notes_object (fun part hpart position path hp => ?_) position path
      have hn := ih part hpart position path
      rwa [noteOf, if_neg hp] at hn
    · have hno : ∀ members, value ≠ .object members := fun members he => ho ⟨members, he⟩
      have hr : noteOf scope position value = none := by
        rw [noteOf, reference?, ite_self]
        exact hno
      rw [schema_notObject hno, hr]
      exact notes_report_then _ _ _

lemma definition_lists (scope : Scope) (name : String) (value : Json) :
    Lists (Compile.definition scope name value)
      (errorsOf scope .definition ["definitions", name] value)
      fun made => made.2 = reference? scope value := by
  intro b
  refine ⟨(schema_lists scope value .definition ["definitions", name] _).1, ?_⟩
  have hn := notes_schema scope value .definition ["definitions", name]
    { b with reference := none }
  rw [Option.or_none, noteOf, if_pos rfl] at hn
  exact hn

theorem definitionBodies_lists (scope : Scope) (entries : Members) :
    Lists (Compile.definitionBodies scope entries)
      (errorsOfEntries scope .definition ["definitions"] entries)
      fun made => made.2 = edgesOf scope entries := by
  induction entries with
  | nil => exact lists_pure rfl
  | cons entry rest ih =>
    obtain ⟨name, value⟩ := entry
    refine lists_bind (definition_lists scope name value) fun made hm => ?_
    refine lists_map ih fun others ho => ?_
    dsimp only
    rw [hm, ho]
    rfl

end JsonTypeDefinition.Proofs
