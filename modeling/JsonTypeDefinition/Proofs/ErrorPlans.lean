import JsonTypeDefinition.Proofs.ErrorBlocks

/-!
# Where hooks run

Which errors the compiler itself reports, and between which of them hooks run, depends on the
document and on the declared keys, not on the hooks: errors follow one plan whatever the hooks are.
In the plan of a document, hooks run on each schema object that they see, once everything in that
object is done with.
-/

namespace JsonTypeDefinition.Proofs

/-- What is reported at one moment of a compilation. -/
inductive Report where
  | core (error : SchemaError)
  | hooks (form : Form) (members : Members) (path : Path)

/-- What the registered hooks that are for a form come to: each is asked once, in the order of
registration. -/
def fromHooks {α : Type} (options : Options) (form : Form) (result : Hook → List α) : List α :=
  (options.extensions.flatMap (·.hooks)).flatMap fun pair =>
    if pair.1 = form then result pair.2 else []

def performed (options : Options) : Report → List SchemaError
  | .core error => [error]
  | .hooks form members path =>
    fromHooks options form fun hook => (hook members path).faults.map (SchemaError.mk path)

def Report.isTurn : Report → Bool
  | .core _ => false
  | .hooks _ _ _ => true

/-- The turn of the hooks at a schema: none if that is no object, if its form is not told, or if
its form is beyond use. -/
def turn? (site : Site) : Option Report :=
  match site.schema with
  | .object members => (form? members).bind fun form =>
    if abandons members form then none else some (.hooks form members (form.path site.path))
  | _ => none

/-- The definitions of a scope have `names`, and its extensions declare just the keys `declared`. -/
structure Understands (names declared : List String) (scope : Scope) : Prop where
  definitions : scope.definitions = names
  declares : ∀ key, key ∈ scope.options.declared ↔ key ∈ declared

/-- The errors follow from a plan in all scopes that understand the same keys. -/
def Follows (names declared : List String) (errors : Scope → List SchemaError)
    (plan : List Report) : Prop :=
  ∀ scope, Understands names declared scope → errors scope = plan.flatMap (performed scope.options)

/-- What is reported on a schema and all below it: hooks take their turns there, at the schema
itself last of all. -/
structure IsBlock (names declared : List String) (site : Site) (block : List Report) : Prop where
  follows : Follows names declared (fun scope => siteErrors scope site) block
  turns : block.filter Report.isTurn = (sites site).filterMap turn?
  last : (turn? site).toList <:+ block

/-- The errors follow a plan in which hooks take their turns at some schemas in order. What is
reported on each of these stands together. -/
structure Planned (names declared : List String) (seen : List Site)
    (errors : Scope → List SchemaError) (plan : List Report) : Prop where
  follows : Follows names declared errors plan
  turns : plan.filter Report.isTurn = seen.filterMap turn?
  blocks : ∀ site ∈ seen, ∃ block, IsBlock names declared site block ∧ block <:+: plan

lemma hooksFor_flatMap {α : Type} (options : Options) (form : Form) (result : Hook → List α) :
    (options.hooksFor form).flatMap result = fromHooks options form result := by
  rw [Options.hooksFor, fromHooks]
  induction options.extensions.flatMap (·.hooks) with
  | nil => rfl
  | cons pair rest ih => by_cases h : pair.1 = form <;> simp [h, ih]

lemma performed_hooks (options : Options) (form : Form) (members : Members) (path : Path) :
    performed options (.hooks form members path) =
      (options.contribution form members path).faults.map (SchemaError.mk path) := by
  rw [performed, ← hooksFor_flatMap, Options.contribution, List.flatMap_map, List.map_flatMap]

section Rules

variable {names declared : List String} {errors more : Scope → List SchemaError}
  {seen others : List Site} {plan rest : List Report}

lemma planned_append (h : Planned names declared seen errors plan)
    (hmore : Planned names declared others more rest) :
    Planned names declared (seen ++ others) (fun scope => errors scope ++ more scope)
      (plan ++ rest) := by
  refine ⟨?_, ?_, ?_⟩
  · intro scope hscope
    dsimp only
    rw [List.flatMap_append, h.follows scope hscope, hmore.follows scope hscope]
  · rw [List.filter_append, List.filterMap_append, h.turns, hmore.turns]
  · intro site hsite
    rcases List.mem_append.mp hsite with hs | hs
    · obtain ⟨block, hblock, hinside⟩ := h.blocks site hs
      exact ⟨block, hblock, hinside.trans (List.prefix_append _ _).isInfix⟩
    · obtain ⟨block, hblock, hinside⟩ := hmore.blocks site hs
      exact ⟨block, hblock, hinside.trans (List.suffix_append _ _).isInfix⟩

lemma planned_core (found : List SchemaError) :
    Planned names declared [] (fun _ => found) (found.map .core) := by
  refine ⟨?_, ?_, by simp⟩
  · intro scope _
    rw [List.flatMap_map]
    simp [performed]
  · rw [List.filter_map]
    simp [Function.comp_def, Report.isTurn]

lemma planned_before (found : List SchemaError) (h : Planned names declared seen errors plan) :
    Planned names declared seen (fun scope => found ++ errors scope)
      (found.map .core ++ plan) :=
  planned_append (planned_core found) h

lemma planned_after (found : List SchemaError) (h : Planned names declared seen errors plan) :
    Planned names declared seen (fun scope => errors scope ++ found)
      (plan ++ found.map .core) := by
  have happend := planned_append h (planned_core found)
  rwa [List.append_nil] at happend

lemma planned_congr (h : Planned names declared seen errors plan)
    (he : ∀ scope, Understands names declared scope → more scope = errors scope) :
    Planned names declared seen more plan :=
  ⟨fun scope hscope => (he scope hscope).trans (h.follows scope hscope), h.turns, h.blocks⟩

lemma filter_turn (site : Site) :
    (turn? site).toList.filter Report.isTurn = (turn? site).toList := by
  apply List.filter_eq_self.mpr
  intro report hreport
  unfold turn? at hreport
  split at hreport
  · obtain ⟨form, -, hform⟩ := Option.bind_eq_some_iff.mp (Option.mem_toList.mp hreport)
    split_ifs at hform
    cases hform
    rfl
  · cases hreport

lemma planned_sites {subs : List Site}
    (h : ∀ sub ∈ subs, ∃ block,
      Planned names declared (sites sub) (fun scope => siteErrors scope sub) block) :
    ∃ plan, Planned names declared (subs.flatMap sites)
      (fun scope => subs.flatMap (siteErrors scope)) plan := by
  induction subs with
  | nil => exact ⟨[], planned_core []⟩
  | cons sub subs ih =>
    obtain ⟨block, hblock⟩ := h sub List.mem_cons_self
    obtain ⟨plan, hplan⟩ := ih fun other hother => h other (List.mem_cons_of_mem _ hother)
    exact ⟨block ++ plan, planned_append hblock hplan⟩

lemma planned_turn {site : Site}
    (h : Planned names declared (site.below.flatMap sites) errors plan)
    (hturn : ∀ scope, Understands names declared scope → siteErrors scope site =
      errors scope ++ (turn? site).toList.flatMap (performed scope.options)) :
    Planned names declared (sites site) (fun scope => siteErrors scope site)
      (plan ++ (turn? site).toList) := by
  have hfollows : Follows names declared (fun scope => siteErrors scope site)
      (plan ++ (turn? site).toList) := by
    intro scope hscope
    dsimp only
    rw [hturn scope hscope, h.follows scope hscope, List.flatMap_append]
  have hturns : (plan ++ (turn? site).toList).filter Report.isTurn =
      (sites site).filterMap turn? := by
    rw [sites_eq, List.filter_append, List.filterMap_append, h.turns, filter_turn]
    cases hsite : turn? site <;> simp [hsite]
  refine ⟨hfollows, hturns, ?_⟩
  intro inner hinner
  rw [sites_eq, List.mem_append, List.mem_singleton] at hinner
  rcases hinner with hinner | rfl
  · obtain ⟨block, hblock, hinside⟩ := h.blocks inner hinner
    exact ⟨block, hblock, hinside.trans (List.prefix_append _ _).isInfix⟩
  · exact ⟨_, ⟨hfollows, hturns, List.suffix_append _ _⟩, List.infix_refl _⟩

end Rules

section Schemas

variable {names declared : List String} {members : Members} {path : Path}

/-- Sorting keys only asks which keys are declared. -/
lemma ofKeys_declared {other : List String} (h : ∀ key, key ∈ other ↔ key ∈ declared)
    (keys : List String) : KeyGroups.ofKeys keys other = KeyGroups.ofKeys keys declared := by
  have hcontains : ∀ key, other.contains key = declared.contains key := by
    intro key
    rw [Bool.eq_iff_iff, List.contains_iff_mem, List.contains_iff_mem, h]
  simp only [ofKeys_eq, KeyGroups.sortedFor, hcontains]

/-- What the induction assumes of the schemas right below a schema object. -/
def PlannedBelow (names declared : List String) (subs : List Site) : Prop :=
  ∀ sub ∈ subs, ∃ block,
    Planned names declared (sites sub) (fun scope => siteErrors scope sub) block

lemma planned_sub {found : Option Json}
    (h : PlannedBelow names declared (found.toList.map fun value => ⟨.nested, path, value⟩)) :
    ∃ plan, Planned names declared
      ((found.toList.map fun value => ⟨.nested, path, value⟩).flatMap sites)
      (fun scope => errorsOfSub scope path found) plan := by
  cases found with
  | none => exact ⟨_, planned_core [⟨path, .notObject .null⟩]⟩
  | some value =>
    obtain ⟨plan, hplan⟩ := planned_sites h
    exact ⟨plan, planned_congr hplan fun scope _ => (List.flatMap_singleton ..).symm⟩

lemma planned_entries {position : Position} {found : Option Json}
    (h : PlannedBelow names declared (entrySites position path found)) :
    ∃ plan, Planned names declared ((entrySites position path found).flatMap sites)
      (fun scope => errorsOfEntries scope position path (entriesIn found)) plan := by
  obtain ⟨plan, hplan⟩ := planned_sites h
  exact ⟨plan, planned_congr hplan fun scope _ => errorsOfEntries_eq scope position path found⟩

lemma planned_form (form : Form)
    (h : PlannedBelow names declared (formSites path members form)) :
    ∃ plan, Planned names declared ((formSites path members form).flatMap sites)
      (fun scope => formErrors scope path members form) plan := by
  cases form with
  | empty => exact ⟨_, planned_core []⟩
  | type | enum => exact ⟨_, planned_core _⟩
  | elements | values => exact planned_sub h
  | ref =>
    refine ⟨_, planned_congr (planned_core ((refFaults names (Compile.field members "ref")).map
      (SchemaError.mk (path ++ ["ref"])))) fun scope hscope => ?_⟩
    rw [formErrors, hscope.definitions]
  | properties =>
    obtain ⟨plan, hrequired⟩ := planned_entries fun sub hsub => h sub (List.mem_append_left _ hsub)
    obtain ⟨rest, hoptional⟩ := planned_entries fun sub hsub => h sub (List.mem_append_right _ hsub)
    rw [formSites, List.flatMap_append]
    exact ⟨_, planned_append hrequired (planned_before _ (planned_after _ hoptional))⟩
  | discriminator =>
    obtain ⟨plan, hmapping⟩ := planned_entries h
    exact ⟨_, planned_before _ (planned_after _ hmapping)⟩

lemma siteErrors_object {scope : Scope} {position : Position} :
    siteErrors scope ⟨position, path, .object members⟩ = objectErrors scope position path members :=
  errorsOf_object scope position path members

lemma hookErrors_turn (scope : Scope) (position : Position) {form : Form}
    (h : form? members = some form) : hookErrors scope path members form =
      (turn? ⟨position, path, .object members⟩).toList.flatMap (performed scope.options) := by
  unfold hookErrors turn?
  dsimp only
  rw [h, Option.bind_some]
  by_cases ha : abandons members form
  · rw [if_pos ha, if_pos ha]
    rfl
  · rw [if_neg ha, if_neg ha, Option.toList_some, List.flatMap_singleton, performed_hooks]

lemma planned_alone {site : Site} (found : List SchemaError) (hbelow : site.below = [])
    (hturn : turn? site = none)
    (hfound : ∀ scope, Understands names declared scope → siteErrors scope site = found) :
    ∃ plan, Planned names declared (sites site) (fun scope => siteErrors scope site) plan := by
  have hcore : Planned names declared (site.below.flatMap sites) (fun _ => found)
      (found.map .core) := by
    rw [hbelow]
    exact planned_core found
  refine ⟨_, planned_turn hcore fun scope hscope => ?_⟩
  rw [hfound scope hscope, hturn]
  exact (List.append_nil found).symm

lemma planned_object (position : Position)
    (h : PlannedBelow names declared (Site.below ⟨position, path, .object members⟩)) :
    ∃ plan, Planned names declared (sites ⟨position, path, .object members⟩)
      (fun scope => siteErrors scope ⟨position, path, .object members⟩) plan := by
  cases hkeys : KeyGroups.ofKeys (Members.keys members) declared with
  | ambiguous keys =>
    have hform : form? members = none := by rw [form?_eq members declared, hkeys]
    refine planned_alone [⟨path, .ambiguousForm keys⟩] ?_ ?_ fun scope hscope => ?_
    · dsimp only [Site.below]
      rw [hform, Option.elim_none]
    · dsimp only [turn?]
      rw [hform, Option.bind_none]
    · rw [siteErrors_object, objectErrors, ofKeys_declared hscope.declares, hkeys]
  | ofForm keys =>
    have hform := form?_of_ofKeys hkeys
    have hbelow : Site.below ⟨position, path, .object members⟩ = formSites path members keys.form :=
      below_object hform
    rw [hbelow] at h
    obtain ⟨plan, hplan⟩ := planned_form keys.form h
    have hcore := planned_before ((Compile.placeFaults position keys
      members ++ Compile.commonFaults keys members).map (SchemaError.mk path)) hplan
    rw [← hbelow] at hcore
    refine ⟨_, planned_turn hcore fun scope hscope => ?_⟩
    rw [siteErrors_object, objectErrors, ofKeys_declared hscope.declares, hkeys,
      ← hookErrors_turn scope position hform, List.append_assoc]

theorem siteErrors_planned (names declared : List String) (site : Site) :
    ∃ plan, Planned names declared (sites site) (fun scope => siteErrors scope site) plan := by
  induction site using site_induction with
  | step site ih =>
    obtain ⟨position, path, value⟩ := site
    by_cases ho : ∃ members, value = .object members
    · obtain ⟨members, rfl⟩ := ho
      exact planned_object position ih
    · have hno : ∀ members, value ≠ .object members := fun members he => ho ⟨members, he⟩
      refine planned_alone _ ?_ ?_ fun scope _ => errorsOf_notObject hno scope position path
      · cases value with
        | object members => exact absurd rfl (hno members)
        | _ => rfl
      · cases value with
        | object members => exact absurd rfl (hno members)
        | _ => rfl

lemma edgesOf_declared {scope other : Scope}
    (h : ∀ key, key ∈ scope.options.declared ↔ key ∈ other.options.declared) (entries : Members) :
    edgesOf scope entries = edgesOf other entries := by
  have hreference : ∀ value, reference? scope value = reference? other value := by
    intro value
    unfold reference?
    cases value with
    | object members => simp only [ofKeys_declared h]
    | _ => rfl
  simp only [edgesOf, hreference]

end Schemas

def hookless (declared : List String) : Scope :=
  ⟨{ extensions := [⟨"", declared, []⟩] }, []⟩

lemma declared_hookless (declared : List String) :
    (hookless declared).options.declared = declared :=
  List.flatMap_singleton ..

lemma definitionErrors_planned (declared : List String) (document : Json) :
    ∃ plan, Planned (Compile.definitionNames document) declared
      ((entrySites .definition ["definitions"] (Compile.definitions? document)).flatMap sites)
      (fun scope => definitionErrors scope (Compile.definitions? document)) plan := by
  cases Compile.definitions? document with
  | none => exact ⟨_, planned_core []⟩
  | some found =>
    cases found with
    | object entries =>
      have hentries : ∃ plan, Planned (Compile.definitionNames document) declared
          ((entrySites .definition ["definitions"] (some (.object entries))).flatMap sites)
          (fun scope => errorsOfEntries scope .definition ["definitions"] entries) plan :=
        planned_entries fun sub _ => siteErrors_planned _ declared sub
      obtain ⟨plan, hplan⟩ := hentries
      -- Any scope that declares these keys has the same edges, so one without hooks will do.
      have hcycles := planned_after
        ((Cycle.find (edgesOf (hookless declared) entries)).map circularError) hplan
      refine ⟨_, planned_congr hcycles fun scope hscope => ?_⟩
      have hedges : edgesOf scope entries = edgesOf (hookless declared) entries := by
        apply edgesOf_declared
        intro key
        rw [declared_hookless]
        exact hscope.declares key
      rw [definitionErrors, hedges]
    | _ => exact ⟨_, planned_core _⟩

theorem document_planned (declared : List String) (document : Json) :
    ∃ plan, Planned (Compile.definitionNames document) declared (documentSites document)
      (fun scope => definitionErrors scope (Compile.definitions? document) ++
        siteErrors scope ⟨.root, [], document⟩) plan := by
  obtain ⟨plan, hdefinitions⟩ := definitionErrors_planned declared document
  obtain ⟨rest, hroot⟩ := siteErrors_planned (Compile.definitionNames document) declared
    ⟨.root, [], document⟩
  exact ⟨_, planned_append hdefinitions hroot⟩

theorem documentErrors_planned (declared : List String) (document : Json) :
    ∃ plan : List Report, ∀ options : Options, (∀ key, key ∈ options.declared ↔ key ∈ declared) →
      documentErrors options document = plan.flatMap (performed options) := by
  obtain ⟨plan, hplan⟩ := document_planned declared document
  exact ⟨plan, fun options hdeclares =>
    hplan.follows (scopeOf options document) ⟨rfl, hdeclares⟩⟩

end JsonTypeDefinition.Proofs
