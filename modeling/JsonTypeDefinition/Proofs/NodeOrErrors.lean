import JsonTypeDefinition.Proofs.Arena
import JsonTypeDefinition.Proofs.ErrorBlocks

/-!
# A node or errors

Compiling a schema gives a node if there are no errors at its end, and else none. So a document is
never refused without an error, and never accepted with one.
-/

namespace JsonTypeDefinition.Proofs

/-- Where `build` gives a node, there are no errors, and the node is the last one. -/
def LastMade (build : Build (Option NodeId)) : Prop :=
  ∀ b id, (build.run b).1 = some id →
    (build.run b).2.errors = #[] ∧ id + 1 = (build.run b).2.nodes.size

section Rules

lemma lastMade_none : LastMade (pure none) :=
  fun _ _ h => nomatch h

lemma lastMade_bind {α : Type} {build : Build α} {next : α → Build (Option NodeId)}
    (h : ∀ a, LastMade (next a)) : LastMade (build >>= next) :=
  fun b => h (build.run b).1 (build.run b).2

lemma lastMade_add (node : Node) : LastMade (Build.add node) := by
  intro b id h
  rw [run_add] at h ⊢
  split at h
  · rename_i hempty
    cases h
    rw [if_pos hempty]
    exact ⟨by simpa using hempty, (Array.size_push _).symm⟩
  · cases h

lemma lastMade_finish (scope : Scope) (form : Form) (path : Path) (members : Members)
    (draft : Draft) : LastMade (Compile.finish scope form path members draft) := by
  cases draft with
  | abandoned => exact lastMade_none
  | faulty => exact lastMade_bind fun _ => lastMade_none
  | ready shape => exact lastMade_bind fun _ => lastMade_add _

/-- Whether a schema has a node is decided at its end, by all errors up to there. -/
lemma lastMade_schema (scope : Scope) (position : Position) (path : Path) (value : Json) :
    LastMade (Compile.schema scope position path value) := by
  by_cases ho : ∃ members, value = .object members
  · obtain ⟨members, rfl⟩ := ho
    rw [schema_object]
    cases KeyGroups.ofKeys (Members.keys members) scope.options.declared with
    | ambiguous keys => exact lastMade_bind fun _ => lastMade_none
    | ofForm keys =>
      exact lastMade_bind fun _ => lastMade_bind fun _ => lastMade_finish scope keys.form path _ _
  · rw [schema_notObject fun members he => ho ⟨members, he⟩]
    exact lastMade_bind fun _ => lastMade_none

end Rules

lemma schema_isSome_iff (scope : Scope) (position : Position) (path : Path) (value : Json)
    (b : Builder) :
    ((Compile.schema scope position path value).run b).1.isSome ↔
      ((Compile.schema scope position path value).run b).2.errors = #[] := by
  constructor
  · intro h
    obtain ⟨id, hid⟩ := Option.isSome_iff_exists.mp h
    exact (lastMade_schema scope position path value b id hid).1
  · intro h
    obtain ⟨-, -, hmade⟩ := schema_makes scope value position path b h
    obtain ⟨id, hid, -⟩ := hmade _ (extends_refl _)
    rw [hid]
    rfl

lemma abandons_reports {members : Members} {form : Form} (h : abandons members form = true)
    (scope : Scope) (path : Path) : formErrors scope path members form ≠ [] := by
  cases form with
  | empty | type | elements | properties | values => cases h
  | enum =>
    simp only [abandons, formErrors, ne_eq, List.map_eq_nil_iff] at h ⊢
    unfold enumFaults
    split at h
    · rename_i variants hvariants
      rw [hvariants]
      cases variants with
      | nil => simp
      | cons variant rest =>
        cases hr : Compile.repeatedVariants (variant :: rest) with
        | nil => simp [hr] at h
        | cons repeated more => simp [hr]
    · split <;> simp_all
  | discriminator =>
    simp only [abandons, formErrors, ne_eq, List.append_eq_nil_iff, List.map_eq_nil_iff] at h ⊢
    rintro ⟨-, -, hmapping⟩
    obtain ⟨entries, he⟩ : ∃ entries, members.get? "mapping" = some (.object entries) := by
      unfold mappingFaults at hmapping
      split at hmapping
      · exact ⟨_, by assumption⟩
      · cases hmapping
      · cases hmapping
    simp [he, Json.object?] at h
  | ref =>
    simp only [abandons, formErrors, ne_eq, List.map_eq_nil_iff] at h ⊢
    cases hf : Compile.field members "ref" with
    | string name => simp [hf, Json.string?] at h
    | _ => simp [refFaults]

section Documents

variable {options : Options} {document : Json}

/-- The walk over a whole document: the nodes of the definitions and of the root, if these have one,
and what was gathered. -/
def walked (options : Options) (document : Json) :
    (List (Option NodeId) × Option NodeId) × Builder :=
  (Compile.document options document).run {}

lemma walked_errors (options : Options) (document : Json) :
    (walked options document).2.errors.toList = documentErrors options document := by
  rw [walked, (lists_document options document {}).1]
  simp

lemma walked_errors_eq_empty_iff (options : Options) (document : Json) :
    (walked options document).2.errors = #[] ↔ documentErrors options document = [] := by
  rw [← walked_errors, Array.toList_eq_nil_iff]

lemma compile_error_eq {errors : Array SchemaError}
    (h : compile options document = .error errors) :
    errors = (walked options document).2.errors := by
  have he : compileErrors options document = errors.toList := by rw [compileErrors, h]
  rw [compileErrors_eq, ← walked_errors] at he
  exact Array.toList_inj.mp he.symm

/-- Nothing is reported on a document: not by what a schema is checked for, not by the search for
cycles, not by a hook. -/
structure NothingReported (options : Options) (document : Json) : Prop where
  errors : (walked options document).2.errors = #[]
  schemas : ∀ site ∈ documentSites document, siteErrors (scopeOf options document) site = []
  cycles : ∀ entries, Compile.definitions? document = some (.object entries) →
    Cycle.find (edgesOf (scopeOf options document) entries) = []
  hooks : ∀ site ∈ documentSites document, ∀ members form, site.schema = .object members →
    form? members = some form →
      (options.contribution form members (form.path site.path)).faults = []

lemma form_silent {scope : Scope} {site : Site} (h : siteErrors scope site = [])
    {members : Members} {form : Form} (hs : site.schema = .object members)
    (hform : form? members = some form) :
    formErrors scope site.path members form = [] ∧
      hookErrors scope site.path members form = [] := by
  obtain ⟨keys, hkeys, rfl⟩ := ofKeys_of_form? hform scope.options.declared
  rw [siteErrors, hs, errorsOf_object, objectErrors, hkeys] at h
  simp only [List.append_eq_nil_iff] at h
  exact h.2

lemma hooks_silent {scope : Scope} {site : Site} (h : siteErrors scope site = [])
    {members : Members} {form : Form} (hs : site.schema = .object members)
    (hform : form? members = some form) :
    (scope.options.contribution form members (form.path site.path)).faults = [] := by
  obtain ⟨hformErrors, hhooks⟩ := form_silent h hs hform
  rw [hookErrors, if_neg fun ha => abandons_reports ha _ _ hformErrors] at hhooks
  exact List.map_eq_nil_iff.mp hhooks

lemma nothing_reported (h : documentErrors options document = []) :
    NothingReported options document := by
  have hsites : ∀ site ∈ documentSites document,
      siteErrors (scopeOf options document) site = [] := by
    intro site hsite
    have hinfix := documentSites_inside options hsite
    rwa [compileErrors_eq, h, List.infix_nil] at hinfix
  refine ⟨(walked_errors_eq_empty_iff options document).mpr h, hsites, ?_, ?_⟩
  · intro entries hentries
    rw [documentErrors, hentries, definitionErrors] at h
    simp only [List.append_eq_nil_iff, List.map_eq_nil_iff] at h
    exact h.1.2
  · intro site hsite members form hs hform
    exact hooks_silent (hsites site hsite) hs hform

lemma slots_filled (h : (walked options document).2.errors = #[]) :
    (∀ slot ∈ (walked options document).1.1, slot.isSome) ∧
      (walked options document).1.2.isSome := by
  obtain ⟨-, -, hmade⟩ := makes_document options document {} h
  obtain ⟨⟨subs, hslots, -⟩, id, hid, -⟩ := hmade _ (extends_refl _)
  rw [walked, hslots, hid]
  refine ⟨fun slot hslot => ?_, rfl⟩
  obtain ⟨sub, -, rfl⟩ := List.mem_map.mp hslot
  rfl

/-- What a compilation of a document answers, by what was reported on the way. -/
structure Answered (options : Options) (document : Json) : Prop where
  accepted : (∃ validator, compile options document = .ok validator) ↔
    NothingReported options document
  refused : ∀ errors, compile options document = .error errors ↔
    errors = (walked options document).2.errors ∧ errors ≠ #[]
  filled : (walked options document).2.errors = #[] →
    (∀ slot ∈ (walked options document).1.1, slot.isSome) ∧
      (walked options document).1.2.isSome

lemma compile_answers (options : Options) (document : Json) : Answered options document := by
  have hiff := compile_ok_iff options document
  refine ⟨⟨fun h => nothing_reported (hiff.mp h), fun h => ?_⟩, fun errors => ?_, slots_filled⟩
  · exact hiff.mpr ((walked_errors_eq_empty_iff options document).mp h.errors)
  · constructor
    · intro h
      refine ⟨compile_error_eq h, fun hempty => ?_⟩
      have hnone := (walked_errors_eq_empty_iff options document).mp
        (compile_error_eq h ▸ hempty)
      obtain ⟨validator, hok⟩ := hiff.mpr hnone
      rw [h] at hok
      cases hok
    · rintro ⟨rfl, hsome⟩
      cases hc : compile options document with
      | ok validator =>
        have hnone := hiff.mp ⟨validator, hc⟩
        exact absurd ((walked_errors_eq_empty_iff options document).mpr hnone) hsome
      | error errors => rw [compile_error_eq hc]

end Documents

/-- Compiling a schema gives a node if and only if there are no errors at its end, whatever the
builder held before; and a document is accepted if nothing is reported, and refused with what is. -/
theorem node_or_errors :
    (∀ scope position path value b,
      ((Compile.schema scope position path value).run b).1.isSome ↔
        ((Compile.schema scope position path value).run b).2.errors = #[]) ∧
      ∀ options document, Answered options document :=
  ⟨schema_isSome_iff, compile_answers⟩

end JsonTypeDefinition.Proofs
