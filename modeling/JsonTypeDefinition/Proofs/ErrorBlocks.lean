import JsonTypeDefinition.Proofs.LibraryFaults
import JsonTypeDefinition.Proofs.Sites

/-!
# Errors that do not depend on one another

The errors of a schema are the same whatever was found before it, and stand together in the errors
of the document around it. If no hook looks at paths, they also move with the schema.
-/

namespace JsonTypeDefinition.Proofs

/-- An error of a schema, as one of a document that has the schema at `path`. -/
def under (path : Path) (error : SchemaError) : SchemaError :=
  { error with path := path ++ error.path }

/-- An error of a schema at `source`, as one of the same schema at `target`. -/
def moved (source target : Path) (error : SchemaError) : SchemaError :=
  { error with path := target ++ error.path.drop source.length }

lemma moved_under (source target : Path) (error : SchemaError) :
    moved source target (under source error) = under target error := by
  simp [moved, under]

lemma map_under (path more : Path) (faults : List SchemaFault) :
    (faults.map (SchemaError.mk more)).map (under path) =
      faults.map (SchemaError.mk (path ++ more)) := by
  rw [List.map_map]
  rfl

/-- The faults that hooks report do not depend on the path they report at. -/
def Pathless (options : Options) : Prop :=
  ∀ form members path other, (options.contribution form members path).faults =
    (options.contribution form members other).faults

section Moving

variable {scope : Scope} {members : Members}

def MoveBelow (scope : Scope) (members : Members) : Prop :=
  ∀ value, sizeOf value < sizeOf (Json.object members) → ∀ position path more,
    errorsOf scope position (path ++ more) value =
      (errorsOf scope position more value).map (under path)

lemma errorsOfEntries_under (h : MoveBelow scope members) (path more : Path) (position : Position)
    (key : String) :
    errorsOfEntries scope position (path ++ more) (entriesIn (members.get? key)) =
      (errorsOfEntries scope position more (entriesIn (members.get? key))).map (under path) := by
  rw [errorsOfEntries, errorsOfEntries, List.map_flatMap]
  refine List.flatMap_congr fun entry he => ?_
  obtain ⟨name, value⟩ := entry
  have hvalue := h value (sizeOf_entry_lt he) position path (more ++ [name])
  rwa [← List.append_assoc] at hvalue

lemma errorsOfSub_under (h : MoveBelow scope members) (path more : Path) (key : String) :
    errorsOfSub scope (path ++ more) (members.get? key) =
      (errorsOfSub scope more (members.get? key)).map (under path) := by
  cases hf : members.get? key with
  | none => rfl
  | some value => exact h value (sizeOf_member_lt (get?_mem hf)) .nested path more

lemma formErrors_under {members : Members} (h : MoveBelow scope members) (path more : Path)
    (form : Form) :
    formErrors scope (path ++ more) members form =
      (formErrors scope more members form).map (under path) := by
  cases form with
  | empty => rfl
  | type | enum | ref => simp only [formErrors, map_under, List.append_assoc]
  | elements | values =>
    simp only [formErrors, List.append_assoc]
    exact errorsOfSub_under h path _ _
  | properties | discriminator =>
    simp only [formErrors, List.map_append, map_under, List.append_assoc,
      errorsOfEntries_under h path]

lemma hookErrors_under (hp : Pathless scope.options) (members : Members) (path more : Path)
    (form : Form) :
    hookErrors scope (path ++ more) members form =
      (hookErrors scope more members form).map (under path) := by
  unfold hookErrors
  split_ifs
  · rfl
  · rw [map_under, hp form members (form.path (path ++ more)) (form.path more)]
    simp only [Form.path, List.append_assoc]

theorem errorsOf_under (hp : Pathless scope.options) (value : Json) :
    ∀ (position : Position) (path more : Path), errorsOf scope position (path ++ more) value =
      (errorsOf scope position more value).map (under path) := by
  induction value using value_induction with
  | step value ih =>
    intro position path more
    by_cases ho : ∃ members, value = .object members
    · obtain ⟨members, rfl⟩ := ho
      rw [errorsOf_object, errorsOf_object]
      unfold objectErrors
      cases KeyGroups.ofKeys (Members.keys members) scope.options.declared with
      | ambiguous keys => rfl
      | ofForm keys =>
        have hform := formErrors_under ih path more keys.form
        have hhook := hookErrors_under hp members path more keys.form
        simp only [List.map_append, map_under, hform, hhook]
    · have hno : ∀ members, value ≠ .object members := fun members he => ho ⟨members, he⟩
      rw [errorsOf_notObject hno, errorsOf_notObject hno]
      rfl

lemma errorsOf_moved (hp : Pathless scope.options) (position : Position) (source target : Path)
    (value : Json) :
    errorsOf scope position target value =
      (errorsOf scope position source value).map (moved source target) := by
  have hmove := fun path => errorsOf_under hp value position path []
  simp only [List.append_nil] at hmove
  rw [hmove source, hmove target, List.map_map]
  exact List.map_congr_left fun error _ => (moved_under source target error).symm

end Moving

lemma libraryHook_pathless {engine : PatternEngine} {extension : Extension}
    (he : extension ∈ libraryExtensions engine) {form : Form} {hook : Hook}
    (hh : (form, hook) ∈ extension.hooks) (members : Members) (path other : Path) :
    hook members path = hook members other := by
  simp only [libraryExtensions, List.mem_cons, List.not_mem_nil, or_false] at he
  rcases he with rfl | rfl | rfl
  · cases List.mem_singleton.mp hh
    rfl
  · cases List.mem_singleton.mp hh
    rfl
  · obtain ⟨other, -, ho⟩ := List.mem_map.mp hh
    cases ho
    rfl

lemma pathless_library {engine : PatternEngine} {options : Options}
    (h : ∀ extension ∈ options.extensions, extension ∈ libraryExtensions engine) :
    Pathless options := by
  intro form members path other
  have hparts : (options.hooksFor form).map (fun hook => hook members path) =
      (options.hooksFor form).map fun hook => hook members other := by
    refine List.map_congr_left fun hook hh => ?_
    obtain ⟨extension, hx, hm⟩ := mem_hooksFor hh
    exact libraryHook_pathless (h extension hx) hm members path other
  unfold Options.contribution
  rw [hparts]

section Blocks

variable {scope : Scope}

def siteErrors (scope : Scope) (site : Site) : List SchemaError :=
  errorsOf scope site.position site.path site.schema

lemma infix_flatMap {α β : Type} {items : List α} {item : α} (h : item ∈ items)
    (f : α → List β) : f item <:+: items.flatMap f :=
  List.infix_of_mem_flatten (List.mem_map_of_mem h)

lemma errorsOfEntries_eq (scope : Scope) (position : Position) (path : Path) (found : Option Json) :
    errorsOfEntries scope position path (entriesIn found) =
      (entrySites position path found).flatMap (siteErrors scope) := by
  rw [entrySites, List.flatMap_map]
  rfl

lemma entry_inside {position : Position} {path : Path} {found : Option Json} {site : Site}
    (h : site ∈ entrySites position path found) :
    siteErrors scope site <:+: errorsOfEntries scope position path (entriesIn found) := by
  rw [errorsOfEntries_eq]
  exact infix_flatMap h (siteErrors scope)

lemma form_inside {path : Path} {members : Members} {form : Form} {sub : Site}
    (h : sub ∈ formSites path members form) :
    siteErrors scope sub <:+: formErrors scope path members form := by
  cases form with
  | empty | type | enum | ref => cases h
  | elements | values =>
    obtain ⟨value, hv, rfl⟩ := List.mem_map.mp h
    rw [Option.mem_toList] at hv
    rw [formErrors, hv]
    exact List.infix_refl _
  | properties =>
    rw [formErrors]
    rcases List.mem_append.mp h with h | h
    · exact (entry_inside h).trans (List.prefix_append _ _).isInfix
    · refine (entry_inside h).trans (List.IsInfix.trans ?_ (List.suffix_append _ _).isInfix)
      exact List.infix_append' _ _ _
  | discriminator =>
    rw [formErrors]
    exact (entry_inside h).trans (List.infix_append' _ _ _)

lemma below_inside {site sub : Site} (h : sub ∈ site.below) :
    siteErrors scope sub <:+: siteErrors scope site := by
  obtain ⟨members, form, hs, hform, hsub⟩ := mem_below h
  obtain ⟨keys, hkeys, rfl⟩ := ofKeys_of_form? hform scope.options.declared
  have hsite : siteErrors scope site = objectErrors scope site.position site.path members := by
    rw [siteErrors, hs, errorsOf_object]
  rw [hsite, objectErrors, hkeys]
  exact (form_inside hsub).trans (List.infix_append' _ _ _)

lemma sites_inside {site inner : Site} (h : inner ∈ sites site) :
    siteErrors scope inner <:+: siteErrors scope site := by
  induction site using site_induction with
  | step site ih =>
    rw [sites_eq, List.mem_append, List.mem_singleton] at h
    rcases h with h | rfl
    · obtain ⟨sub, hsub, hinner⟩ := List.mem_flatMap.mp h
      exact (ih sub hsub hinner).trans (below_inside hsub)
    · exact List.infix_refl _

theorem documentSites_inside (options : Options) {document : Json} {site : Site}
    (h : site ∈ documentSites document) :
    siteErrors (scopeOf options document) site <:+: compileErrors options document := by
  rw [compileErrors_eq, documentErrors]
  rcases List.mem_append.mp h with h | h
  · obtain ⟨entry, hentry, hsite⟩ := List.mem_flatMap.mp h
    refine (sites_inside hsite).trans (List.IsInfix.trans ?_ (List.prefix_append _ _).isInfix)
    obtain ⟨⟨name, value⟩, hm, -⟩ := List.mem_map.mp hentry
    cases hf : Compile.definitions? document with
    | none => simp [hf, entriesIn] at hm
    | some found =>
      rw [hf] at hentry hm
      cases found with
      | object entries => exact (entry_inside hentry).trans (List.prefix_append _ _).isInfix
      | _ => simp [entriesIn] at hm
  · exact (sites_inside h).trans (List.suffix_append _ _).isInfix

end Blocks

/-- The errors of a schema in its place and what its compilation notes as the target of a reference:
the same whatever the builder holds before. -/
structure Finds (scope : Scope) (position : Position) (path : Path) (value : Json)
    (errors : List SchemaError) (target : Option String) : Prop where
  /-- They come after those gathered before, which are all kept. -/
  appends : ∀ b, ((Compile.schema scope position path value).run b).2.errors =
    b.errors ++ errors.toArray
  /-- The note is set in every builder or in none. -/
  notes : ∀ b, ((Compile.schema scope position path value).run b).2.reference =
    target.or b.reference
  below : ∀ error ∈ errors, path <+: error.path
  /-- With the extensions of the library, they move with the schema. -/
  moves : ∀ engine, (∀ extension ∈ scope.options.extensions,
      extension ∈ libraryExtensions engine) →
    ∀ other b, ((Compile.schema scope position other value).run b).2.errors =
      b.errors ++ (errors.map (moved path other)).toArray
  /-- In every document with these definitions that has the schema there, they are found and stand
  together, whatever is wrong elsewhere. -/
  stays : ∀ document, Compile.definitionNames document = scope.definitions →
    ⟨position, path, value⟩ ∈ documentSites document →
      errors <:+: compileErrors scope.options document

/-- The errors of a schema do not depend on what was found before or is found elsewhere. -/
theorem schema_finds_independently (scope : Scope) (position : Position) (path : Path)
    (value : Json) : ∃ errors target, Finds scope position path value errors target := by
  refine ⟨errorsOf scope position path value, noteOf scope position value, ?_, ?_, ?_, ?_, ?_⟩
  · exact fun b => (schema_lists scope value position path b).1
  · exact notes_schema scope value position path
  · intro error he
    obtain ⟨rest, hp, -⟩ := (errorsOf_belong scope value position path error he).below
    exact ⟨rest, hp.symm⟩
  · intro engine hlibrary other b
    rw [← errorsOf_moved (pathless_library hlibrary)]
    exact (schema_lists scope value position other b).1
  · intro document hnames hsite
    have hinfix := documentSites_inside scope.options hsite
    rwa [scopeOf, hnames] at hinfix

end JsonTypeDefinition.Proofs
