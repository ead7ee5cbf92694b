import JsonTypeDefinition.Proofs.ArenaInvariant
import JsonTypeDefinition.Proofs.Entries
import JsonTypeDefinition.Proofs.ErrorPlans
import JsonTypeDefinition.Proofs.Limits

/-!
# Hooks and the schemas they see

Hooks see each schema object of a document once, after everything else about it, whatever errors
there are. Where there are none, they have seen every schema, and what they attached to each is
what its node runs.
-/

namespace JsonTypeDefinition.Proofs

/-- When hooks run in the compilation of a document, with whatever extensions declare the same
keys. -/
structure HooksInTurn (declared : List String) (document : Json) (plan : List Report) : Prop where
  follows : ∀ options : Options, (∀ key, key ∈ options.declared ↔ key ∈ declared) →
    compileErrors options document = plan.flatMap (performed options)
  turns : plan.filter Report.isTurn = (documentSites document).filterMap turn?
  places : ((documentSites document).map Site.path).Nodup
  last : ∀ site ∈ documentSites document, ∃ block,
    IsBlock (Compile.definitionNames document) declared site block ∧ block <:+: plan

/-- A node runs what the hooks attached to the schema object at a site. Its supplements report at
the path that the hooks were given, but those of a discriminator at the path of the schema. -/
structure Attached (options : Options) (node : Node) (site : Site) (form : Form)
    (members : Members) : Prop where
  turn : turn? site = some (.hooks form members (form.path site.path))
  path : node.schemaPath = site.path
  shape : node.shape.form = form
  supplements : node.supplements =
    fromHooks options form fun hook => (hook members (form.path site.path)).supplements
  reports : node.supplementPath =
    if form = .discriminator then site.path else form.path site.path

structure HooksAttach (options : Options) (document : Json) (validator : Validator) : Prop where
  covered : ∀ path value, SchemaAt document path value → ∃ position form members,
    ⟨position, path, value⟩ ∈ documentSites document ∧ value = .object members ∧
      turn? ⟨position, path, value⟩ = some (.hooks form members (form.path path))
  size : validator.nodes.size = (documentSites document).length
  attached : ∀ (id : Nat) node, validator.nodes[id]? = some node → ∃ site form members,
    (documentSites document)[id]? = some site ∧ Attached options node site form members
  /-- A validation reports what is found at the nodes that it enters, each where it is. -/
  pushed : ∀ value, (validator.validate value).toList =
    (entered validator value).flatMap (entryErrors validator)
  found : ∀ (entry : Entry) node, entry.node? validator = some node →
    entryErrors validator entry = ownErrors node entry.place entry.value ++
      if runsSupplements node entry.value then
        node.supplements.flatMap fun supplement => (supplement entry.value).map fun violation =>
          ⟨node.supplementPath, entry.place, violation⟩
      else []
  visited : ∀ value, distinctKeys value = true → ∀ entry ∈ entered validator value,
    partAt? value entry.place = some entry.value
  limited : ∀ limits value,
    (validator.run limits value).2.toList <+: (validator.validate value).toList

section Turns

variable {options : Options} {document : Json} {validator : Validator}

lemma supplements_fromHooks (options : Options) (form : Form) (members : Members) (path : Path) :
    (options.contribution form members path).supplements =
      fromHooks options form fun hook => (hook members path).supplements := by
  rw [← hooksFor_flatMap]
  exact List.flatMap_map ..

lemma turn_of_form (h : compile options document = .ok validator) {site : Site}
    (hsite : site ∈ documentSites document) {members : Members} {form : Form}
    (hs : site.schema = .object members) (hform : form? members = some form) :
    turn? site = some (.hooks form members (form.path site.path)) := by
  have hsilent := nothing_reported (compiled_stands h).faultless
  have herrors := (form_silent (hsilent.schemas site hsite) hs hform).1
  have hkept : ¬ abandons members form = true := fun ha => abandons_reports ha _ _ herrors
  unfold turn?
  rw [hs]
  dsimp only
  rw [hform, Option.bind_some, if_neg hkept]

lemma schema_covered (h : compile options document = .ok validator) {path : Path} {value : Json}
    (hat : SchemaAt document path value) : ∃ position form members,
      ⟨position, path, value⟩ ∈ documentSites document ∧ value = .object members ∧
        turn? ⟨position, path, value⟩ = some (.hooks form members (form.path path)) := by
  obtain ⟨position, hsite⟩ := site_of_schemaAt h hat
  obtain ⟨members, keys, hs, hkeys⟩ := site_form h hsite
  exact ⟨position, keys.form, members, hsite, hs, turn_of_form h hsite hs (form?_of_ofKeys hkeys)⟩

lemma supplementPath_eq (node : Node) : node.supplementPath =
    if node.shape.form = .discriminator then node.schemaPath else node.formPath := by
  unfold Node.supplementPath
  cases node.shape <;> rfl

lemma attached_of_id (h : compile options document = .ok validator) {id : Nat} {node : Node}
    (hnode : validator.nodes[id]? = some node) : ∃ site form members,
      (documentSites document)[id]? = some site ∧ Attached options node site form members := by
  obtain ⟨site, hsite⟩ := site_of_id h hnode
  have hstands := site_stands h hsite
  have hmem : site ∈ documentSites document := List.mem_of_getElem? hsite
  obtain ⟨position, path, schema⟩ := site
  cases hstands with
  | @object _ _ members keys shape _ hkeys hplace hcommon hstored hshape =>
    rw [hnode] at hstored
    obtain rfl := Option.some.inj hstored
    have hform : shape.form = keys.form := shape_form hshape
    have hturn := turn_of_form h hmem rfl (form?_of_ofKeys hkeys)
    refine ⟨_, keys.form, members, hsite, hturn, rfl, hform, supplements_fromHooks _ _ _ _, ?_⟩
    rw [supplementPath_eq, Node.formPath, hform]

lemma run_prefix (validator : Validator) (limits : Limits) (value : Json) :
    (validator.run limits value).2.toList <+: (validator.validate value).toList := by
  have hstart : (foundWithin validator limits.maxDepth value).toList <+:
      (validator.validate value).toList := by
    rw [foundWithin, Validator.validate, run_replays, run_replays]
    exact replay_prefix limits.maxDepth _ #[]
  rcases run_cut validator limits value with ⟨-, hrun⟩ | ⟨-, hrun⟩
  · rw [hrun]
    refine List.IsPrefix.trans ?_ hstart
    simpa using List.take_prefix _ _
  · rw [hrun]
    exact hstart

end Turns

/-- Hooks see each schema object of a document once and after everything else about it, and what
they attach in an accepted document is what its nodes run. -/
theorem hooks_in_turn (options : Options) {document : Json} (hd : distinctKeys document = true) :
    (∃ plan, HooksInTurn options.declared document plan) ∧
      ∀ validator, compile options document = .ok validator →
        HooksAttach options document validator := by
  obtain ⟨plan, hplan⟩ := document_planned options.declared document
  refine ⟨⟨plan, ?_, hplan.turns, documentSites_nodup hd, hplan.blocks⟩, ?_⟩
  · intro other hdeclares
    rw [compileErrors_eq]
    exact hplan.follows (scopeOf other document) ⟨rfl, hdeclares⟩
  · intro validator h
    refine ⟨fun path value => schema_covered h, ?_, fun id node => attached_of_id h,
      validate_entered (compiled_stands h), ?_, ?_, run_prefix validator⟩
    · exact Array.length_toList.symm.trans (compiled_lays h).count
    · intro entry node hnode
      rw [entryErrors_of_node hnode]
      rfl
    · intro value hv entry hentry
      exact (entered_standsAt hv hentry).resolves

/-- A hook that reports its name at schemas with the key `x:odd`, and attaches a check that always
reports its name and the path that it was given. -/
def echo (name : String) : Hook := fun members path =>
  { faults := if members.has "x:odd" then [.unknownType name] else []
    supplements := [fun _ => [.patternMismatch ("/".intercalate (name :: path))]] }

/-- Two hooks for every form, in one extension and in another. -/
def echoes : Options where
  extensions :=
    [⟨"first", ["x:odd"], Form.all.map fun form => (form, echo "first")⟩,
      ⟨"second", [], Form.all.map fun form => (form, echo "second")⟩]

def echoed : Violation → String
  | .patternMismatch text => text
  | _ => ""

def oddDocument : Json :=
  .object [("elements", .object [("type", .string "string"), ("x:odd", .null)]), ("x:odd", .null)]

/-- What is reported of it: the hooks see the things first, and then the list. -/
def oddReports : List (Path × String) :=
  [(["elements", "type"], "unknown type \"first\""),
    (["elements", "type"], "unknown type \"second\""),
    (["elements"], "unknown type \"first\""),
    (["elements"], "unknown type \"second\"")]

def pathFigure : Json :=
  .object [("kind", .string "path"), ("points", .array [])]

/-- What is attached to the schemas that the figure meets, with the path where it reports. Only at
the discriminator this is not the path of the hook. -/
def pathEchoes : List (Path × Path × String) :=
  [([], [], "first/discriminator"),
    ([], [], "second/discriminator"),
    (["mapping", "path"], [], "first/mapping/path"),
    (["mapping", "path"], [], "second/mapping/path"),
    (["mapping", "path", "optionalProperties", "points", "ref"], ["points"],
      "first/mapping/path/optionalProperties/points/ref"),
    (["mapping", "path", "optionalProperties", "points", "ref"], ["points"],
      "second/mapping/path/optionalProperties/points/ref"),
    (["definitions", "alias", "ref"], ["points"], "first/definitions/alias/ref"),
    (["definitions", "alias", "ref"], ["points"], "second/definitions/alias/ref"),
    (["definitions", "list", "elements"], ["points"], "first/definitions/list/elements"),
    (["definitions", "list", "elements"], ["points"], "second/definitions/list/elements")]

theorem figuresDocument_hooks :
    distinctKeys oddDocument = true ∧ (∃ plan, HooksInTurn echoes.declared oddDocument plan) ∧
      (compileErrors echoes oddDocument).map (fun error => (error.path, error.fault.message)) =
        oddReports ∧
      distinctKeys figuresDocument = true ∧
      ∃ validator, compile echoes figuresDocument = .ok validator ∧
        HooksAttach echoes figuresDocument validator ∧
        (validator.validate pathFigure).toList.map (fun error =>
          (error.schemaPath, error.instancePath, echoed error.violation)) = pathEchoes := by
  have hodd : distinctKeys oddDocument = true := by decide
  have hd : distinctKeys figuresDocument = true := by decide
  have hheard : (compile echoes figuresDocument).toOption.map (fun validator =>
      (validator.validate pathFigure).toList.map fun error =>
        (error.schemaPath, error.instancePath, echoed error.violation)) = some pathEchoes := by
    decide +kernel
  obtain ⟨validator, h, hheard⟩ := compiles_with hheard
  exact ⟨hodd, (hooks_in_turn echoes hodd).1, by decide +kernel, hd, validator, h,
    (hooks_in_turn echoes hd).2 validator h, hheard⟩

end JsonTypeDefinition.Proofs
