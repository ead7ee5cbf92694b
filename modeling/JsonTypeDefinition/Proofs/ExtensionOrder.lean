import JsonTypeDefinition.Checks.Rules
import JsonTypeDefinition.Extension.LeapSeconds
import JsonTypeDefinition.Proofs.ArenaInvariant
import JsonTypeDefinition.Proofs.Entries
import JsonTypeDefinition.Proofs.HeldExtensions

/-!
# The order of extensions

Extensions enabled in another order refuse and accept the same documents and values. The errors are
the same up to their order, and so are, in order, those of the compiler itself, those of each node
itself, and those of the supplements of each extension.
-/

namespace JsonTypeDefinition.Proofs

section Compiling

variable {options other : Options}

/-- Extensions that declare the same keys and hook into nothing. -/
def withoutHooks (options : Options) : Options :=
  { extensions := options.extensions.map fun extension => { extension with hooks := [] } }

/-- The errors of a plan by their source, which is the compiler itself or the extensions of a
name. -/
def errorsBy (extensions : List Extension) (plan : List Report) : Option String → List SchemaError
  | none => plan.flatMap (performed {})
  | some name => plan.flatMap fun report => extensions.flatMap fun extension =>
    if extension.name = name then
      match report with
      | .core _ => []
      | .hooks form members path =>
        ((only extension).contribution form members path).faults.map (SchemaError.mk path)
    else []

lemma report_interleaves (options : Options) (report : Report) :
    Interleaves (errorsBy options.extensions [report]) (performed options report) := by
  cases report with
  | core error =>
    refine interleaves_congr (interleaves_single none [error]) fun source => ?_
    cases source with
    | none => rfl
    | some name => simp [errorsBy]
  | hooks form members path =>
    have heach := interleaves_flatMap options.extensions fun extension _ =>
      interleaves_single (some extension.name)
        (((only extension).contribution form members path).faults.map (SchemaError.mk path))
    rw [performed_hooks, (contribution_each options form members path).1, List.map_flatMap]
    refine interleaves_congr heach fun source => ?_
    cases source with
    | none => simp [errorsBy, performed, fromHooks]
    | some name => simp [errorsBy]

lemma plan_interleaves (options : Options) (plan : List Report) :
    Interleaves (errorsBy options.extensions plan) (plan.flatMap (performed options)) := by
  refine interleaves_congr
    (interleaves_flatMap _ fun report _ => report_interleaves options report) ?_
  intro source
  cases source <;> simp [errorsBy]

lemma performed_withoutHooks (options : Options) (report : Report) :
    performed (withoutHooks options) report = performed {} report := by
  cases report with
  | core error => rfl
  | hooks form members path =>
    simp [performed, fromHooks, withoutHooks]

lemma errorsBy_perm (h : options.extensions.Perm other.extensions)
    (hd : (options.extensions.map (·.name)).Nodup) (plan : List Report) (source : Option String) :
    errorsBy other.extensions plan source = errorsBy options.extensions plan source := by
  cases source with
  | none => rfl
  | some name =>
    refine List.flatMap_congr fun report _ => ?_
    exact (flatMap_perm_named h hd name _).symm

end Compiling

section Nodes

variable {options other : Options} {document : Json} {validator twin : Validator}

/-- Two nodes that differ in their supplements only. -/
structure SameButSupplements (node copy : Node) : Prop where
  path : copy.schemaPath = node.schemaPath
  nullable : copy.nullable = node.nullable
  shape : copy.shape = node.shape

/-- Two validators whose nodes differ in their supplements only. -/
structure SameNodes (validator twin : Validator) : Prop where
  root : twin.root = validator.root
  definitions : twin.definitions = validator.definitions
  nodes : ∀ id : Nat, Option.Rel SameButSupplements validator.nodes[id]? twin.nodes[id]?

lemma stands_index (h : compile options document = .ok validator)
    (hd : distinctKeys document = true) {position : Position} {path : Path} {value : Json}
    {id : NodeId}
    (hstands : StandsFor (scopeOf options document) validator.nodes position path value id) :
    ((documentSites document).map Site.path)[id]? = some path := by
  cases hstands with
  | object _ _ _ hnode _ =>
    obtain ⟨site, hsite⟩ := site_of_id h hnode
    obtain ⟨members, hof⟩ := node_of_site h hd hsite hnode
    rw [List.getElem?_map, hsite, Option.map_some, ← hof.path]

lemma stands_same (h : compile options document = .ok validator)
    (htwin : compile other document = .ok twin) (hd : distinctKeys document = true)
    {position place : Position} {path : Path} {value schema : Json} {id copy : NodeId}
    (hstands : StandsFor (scopeOf options document) validator.nodes position path value id)
    (hcopy : StandsFor (scopeOf other document) twin.nodes place path schema copy) : copy = id := by
  have hid := stands_index h hd hstands
  have hother := stands_index htwin hd hcopy
  have hlt := (List.getElem?_eq_some_iff.mp hother).choose
  exact (List.getElem?_inj hlt (documentSites_nodup hd)).mp (hother.trans hid.symm)

lemma eq_of_lookup {α : Type} {pairs others : List (String × α)}
    (hnames : others.map Prod.fst = pairs.map Prod.fst) (hd : (pairs.map Prod.fst).Nodup)
    (h : ∀ key a b, pairs.lookup key = some a → others.lookup key = some b → b = a) :
    others = pairs := by
  induction pairs generalizing others with
  | nil => exact List.map_eq_nil_iff.mp hnames
  | cons pair rest ih =>
    obtain ⟨name, a⟩ := pair
    match others with
    | (other, b) :: more =>
      obtain ⟨rfl, hmore⟩ := List.cons.inj hnames
      obtain ⟨hnot, hrest⟩ := List.nodup_cons.mp hd
      have hb : b = a := h other a b (List.lookup_cons_self) (List.lookup_cons_self)
      rw [hb, ih hmore hrest fun key c d hc hd' => ?_]
      have hne : key ≠ other := by
        rintro rfl
        exact hnot ((lookup_isSome_iff rest key).mp (by rw [hc]; rfl))
      refine h key c d ?_ ?_
      · rwa [List.lookup_cons, beq_eq_false_iff_ne.mpr hne]
      · rwa [List.lookup_cons, beq_eq_false_iff_ne.mpr hne]

lemma subs_same (h : compile options document = .ok validator)
    (htwin : compile other document = .ok twin) (hd : distinctKeys document = true)
    {position : Position} {path : Path} {found : Option Json} {subs copies : List (String × NodeId)}
    (hnodup : (Members.keys (entriesIn found)).Nodup)
    (hsubs : SubsStand (scopeOf options document) validator.nodes position path found subs)
    (hcopies : SubsStand (scopeOf other document) twin.nodes position path found copies) :
    copies = subs := by
  have hnames := subs_names hsubs
  refine eq_of_lookup ((subs_names hcopies).trans hnames.symm) (hnames ▸ hnodup) ?_
  intro key id copy hid hcopy
  rcases subsStand_lookup hsubs key with ⟨hnone, -⟩ | ⟨sub, value, hsub, -, hstands⟩
  · cases hid.symm.trans hnone
  rcases subsStand_lookup hcopies key with ⟨hnone, -⟩ | ⟨sub', value', hsub', -, hstands'⟩
  · cases hcopy.symm.trans hnone
  cases hid.symm.trans hsub
  cases hcopy.symm.trans hsub'
  exact stands_same h htwin hd hstands hstands'

lemma shapes_same (h : compile options document = .ok validator)
    (htwin : compile other document = .ok twin) (hd : distinctKeys document = true)
    {position : Position} {path : Path} {members : Members}
    (hdistinct : distinctKeys (.object members) = true) {form : Form} {shape copy : Shape}
    (hshape : HasShape (scopeOf options document) validator.nodes position path members form shape)
    (hcopy : HasShape (scopeOf other document) twin.nodes position path members form copy) :
    copy = shape := by
  cases hshape with
  | empty => cases hcopy; rfl
  | type hname htype =>
    cases hcopy with
    | type hname' htype' =>
      cases hname.symm.trans hname'
      rw [Option.some.inj (htype'.symm.trans htype)]
  | enum hvariants =>
    cases hcopy with
    | enum hvariants' =>
      cases hvariants.symm.trans hvariants'
      rfl
  | elements hvalue hsub =>
    cases hcopy with
    | elements hvalue' hsub' => rw [stands_same h htwin hd hsub hsub']
  | properties hrequired hoptional =>
    cases hcopy with
    | properties hrequired' hoptional' =>
      rw [subs_same h htwin hd (entries_nodup hdistinct _) hrequired hrequired',
        subs_same h htwin hd (entries_nodup hdistinct _) hoptional hoptional']
  | values hvalue hsub =>
    cases hcopy with
    | values hvalue' hsub' => rw [stands_same h htwin hd hsub hsub']
  | discriminator htag hmapping hsubs =>
    cases hcopy with
    | discriminator htag' hmapping' hsubs' =>
      cases htag.symm.trans htag'
      cases hmapping.symm.trans hmapping'
      have hnodup := entries_nodup hdistinct "mapping"
      rw [hmapping] at hnodup
      rw [subs_same h htwin hd hnodup hsubs hsubs']
  | ref hname hindex =>
    cases hcopy with
    | ref hname' hindex' =>
      cases hname.symm.trans hname'
      cases hindex.symm.trans hindex'
      rfl

lemma nodes_same (h : compile options document = .ok validator)
    (htwin : compile other document = .ok twin) (hd : distinctKeys document = true) {id : Nat}
    {node copy : Node} (hnode : validator.nodes[id]? = some node)
    (hcopy : twin.nodes[id]? = some copy) :
    SameButSupplements node copy := by
  obtain ⟨site, hsite⟩ := site_of_id h hnode
  obtain ⟨members, hof⟩ := node_of_site h hd hsite hnode
  obtain ⟨members', hof'⟩ := node_of_site htwin hd hsite hcopy
  cases hof.schema.symm.trans hof'.schema
  have hdistinct := (documentSites_lead hd site (List.mem_of_getElem? hsite)).distinct
  rw [hof.schema] at hdistinct
  cases hof.stands with
  | object hkeys _ _ hstored hshape =>
    cases hnode.symm.trans hstored
    cases hof'.stands with
    | object hkeys' _ _ hstored' hshape' =>
      cases hcopy.symm.trans hstored'
      have hform := (form?_of_ofKeys hkeys).symm.trans (form?_of_ofKeys hkeys')
      rw [← Option.some.inj hform] at hshape'
      exact ⟨rfl, rfl, shapes_same h htwin hd hdistinct hshape hshape'⟩

lemma compiled_same (h : compile options document = .ok validator)
    (htwin : compile other document = .ok twin) (hd : distinctKeys document = true) :
    SameNodes validator twin := by
  have hcompiled := compiled_stands h
  have hcopied := compiled_stands htwin
  refine ⟨stands_same h htwin hd hcompiled.root hcopied.root, ?_, fun id => ?_⟩
  · obtain ⟨subs, hsubs, hstand⟩ := hcompiled.definitions
    obtain ⟨copies, hcopies, hstand'⟩ := hcopied.definitions
    have hnodup : (Members.keys (entriesIn (Compile.definitions? document))).Nodup :=
      definitions_nodup hd
    rw [hsubs, hcopies, subs_same h htwin hd hnodup hstand hstand']
  · have hcount := (compiled_lays h).count.trans (compiled_lays htwin).count.symm
    rw [Array.length_toList, Array.length_toList] at hcount
    cases hnode : validator.nodes[id]? with
    | none =>
      have hnone : twin.nodes[id]? = none := by
        rw [Array.getElem?_eq_none_iff] at hnode ⊢
        omega
      rw [hnone]
      exact .none
    | some node =>
      have hlt := (Array.getElem?_eq_some_iff.mp hnode).choose
      have hcopy : twin.nodes[id]? = some _ := Array.getElem?_eq_getElem (hcount ▸ hlt)
      rw [hcopy]
      exact .some (nodes_same h htwin hd hnode hcopy)

end Nodes

section Walks

variable {validator twin : Validator} {node copy : Node} {value : Json}

lemma legs_same (h : SameNodes validator twin) (hcopy : SameButSupplements node copy)
    (value : Json) : legs twin copy value = legs validator node value := by
  unfold legs
  rw [hcopy.shape, h.definitions]

lemma ownErrors_same (hcopy : SameButSupplements node copy) (place : Path) (value : Json) :
    ownErrors copy place value = ownErrors node place value := by
  unfold ownErrors Node.formPath
  rw [hcopy.shape, hcopy.path]

lemma runsSupplements_same (hcopy : SameButSupplements node copy) (value : Json) :
    runsSupplements copy value = runsSupplements node value := by
  unfold runsSupplements
  rw [hcopy.shape]

lemma node?_same (h : SameNodes validator twin) (entry : Entry) :
    Option.Rel SameButSupplements (entry.node? validator) (entry.node? twin) := by
  have hnodes := h.nodes entry.id
  unfold Entry.node?
  generalize validator.nodes[entry.id]? = found at hnodes ⊢
  generalize twin.nodes[entry.id]? = other at hnodes ⊢
  cases hnodes with
  | none => exact .none
  | some hcopy =>
    simp only [Option.filter_some, hcopy.nullable]
    split
    · exact .some hcopy
    · exact .none

lemma onward_same (h : SameNodes validator twin) (entry : Entry) :
    onward twin entry = onward validator entry := by
  have hnode := node?_same h entry
  unfold onward
  generalize entry.node? validator = found at hnode ⊢
  generalize entry.node? twin = other at hnode ⊢
  cases hnode with
  | none => rfl
  | some hcopy => rw [Option.elim_some, Option.elim_some, legs_same h hcopy]

lemma entries_same (h : SameNodes validator twin) (fuel : Nat) : ∀ entry : Entry,
    entries twin fuel entry = entries validator fuel entry := by
  induction fuel with
  | zero => exact fun _ => rfl
  | succ fuel ih =>
    intro entry
    rw [entries, entries, onward_same h]
    exact congrArg (entry :: ·) (List.flatMap_congr fun next _ => ih next)

lemma entered_same (h : SameNodes validator twin) (value : Json) :
    entered twin value = entered validator value := by
  unfold entered rootEntry Validator.fuelFor
  rw [h.root, h.definitions, entries_same h]

end Walks

/-- What an instance error comes from: a node itself, or the supplements of the extensions of a
name. -/
inductive Source where
  | node (id : NodeId)
  | supplements (name : String)
  deriving DecidableEq

/-- A node with the supplements of one extension. -/
def suppliedBy (extension : Extension) (document : Json) (node : Node) : Node :=
  { node with supplements :=
    match resolve document node.schemaPath with
    | some (.object members) =>
      ((only extension).contribution node.shape.form members node.formPath).supplements
    | _ => [] }

def foundBy (extensions : List Extension) (document : Json) (validator : Validator) (entry : Entry) :
    Source → List InstanceError
  | .node id => if entry.id = id then
      (entry.node? validator).elim [] fun node => ownErrors node entry.place entry.value
    else []
  | .supplements name => extensions.flatMap fun extension =>
    if extension.name = name then
      (entry.node? validator).elim [] fun node =>
        if runsSupplements node entry.value then
          supplementErrors (suppliedBy extension document node) entry.place entry.value
        else []
    else []

/-- What a source finds wrong with a value, in order. -/
def reportsBy (extensions : List Extension) (document : Json) (validator : Validator)
    (value : Json) (source : Source) : List InstanceError :=
  (entered validator value).flatMap fun entry => foundBy extensions document validator entry source

section Reports

variable {options other : Options} {document : Json} {validator twin : Validator}

lemma supplements_each (h : compile options document = .ok validator)
    (hd : distinctKeys document = true) {id : Nat} {node : Node}
    (hnode : validator.nodes[id]? = some node) (place : Path) (value : Json) :
    supplementErrors node place value = options.extensions.flatMap fun extension =>
      supplementErrors (suppliedBy extension document node) place value := by
  obtain ⟨site, members, hof⟩ := node_of_id h hd hnode
  have hleads := hof.leads
  cases hof.stands with
  | @object _ _ _ keys shape _ hkeys _ _ hstored hshape =>
    cases hnode.symm.trans hstored
    have hform : keys.form = shape.form := (shape_form hshape).symm
    have heach := (contribution_each options keys.form members (keys.form.path site.path)).2
    rw [supplementErrors]
    dsimp only [scopeOf]
    rw [heach, List.flatMap_assoc]
    refine List.flatMap_congr fun extension _ => ?_
    rw [supplementErrors, suppliedBy]
    dsimp only at hleads ⊢
    rw [hleads, hform]
    rfl

lemma entry_interleaves (h : compile options document = .ok validator)
    (hd : distinctKeys document = true) (entry : Entry) :
    Interleaves (foundBy options.extensions document validator entry)
      (entryErrors validator entry) := by
  cases hnode : entry.node? validator with
  | none =>
    rw [entryErrors, hnode]
    refine interleaves_congr interleaves_nil fun source => ?_
    cases source <;> simp [foundBy, hnode]
  | some node =>
    have hown := interleaves_single (Source.node entry.id) (ownErrors node entry.place entry.value)
    have heach := interleaves_flatMap options.extensions fun extension _ =>
      interleaves_single (Source.supplements extension.name)
        (if runsSupplements node entry.value then
          supplementErrors (suppliedBy extension document node) entry.place entry.value else [])
    have hsupplements : (if runsSupplements node entry.value then
        supplementErrors node entry.place entry.value else []) =
        options.extensions.flatMap fun extension => if runsSupplements node entry.value then
          supplementErrors (suppliedBy extension document node) entry.place entry.value
            else [] := by
      split
      · exact supplements_each h hd (node?_eq_some_iff.mp hnode).1 entry.place entry.value
      · simp
    rw [entryErrors_of_node hnode, nodeErrors, hsupplements]
    refine interleaves_congr (interleaves_append hown heach) fun source => ?_
    cases source <;> simp [foundBy, hnode]

lemma validate_interleaves (h : compile options document = .ok validator)
    (hd : distinctKeys document = true) (value : Json) :
    Interleaves (reportsBy options.extensions document validator value)
      (validator.validate value).toList := by
  rw [validate_entered (compiled_stands h)]
  exact interleaves_flatMap _ fun entry _ => entry_interleaves h hd entry

lemma reportsBy_same (hsame : SameNodes validator twin)
    (hperm : options.extensions.Perm other.extensions)
    (hnames : (options.extensions.map (·.name)).Nodup) (document value : Json) (source : Source) :
    reportsBy other.extensions document twin value source =
      reportsBy options.extensions document validator value source := by
  rw [reportsBy, reportsBy, entered_same hsame]
  refine List.flatMap_congr fun entry _ => ?_
  have hnode := node?_same hsame entry
  cases source with
  | node id =>
    unfold foundBy
    generalize entry.node? validator = found at hnode ⊢
    generalize entry.node? twin = copied at hnode ⊢
    cases hnode with
    | none => rfl
    | some hcopy => simp only [Option.elim_some, ownErrors_same hcopy]
  | supplements name =>
    unfold foundBy
    dsimp only
    rw [← flatMap_perm_named hperm hnames]
    refine List.flatMap_congr fun extension _ => ?_
    generalize entry.node? validator = found at hnode ⊢
    generalize entry.node? twin = copied at hnode ⊢
    cases hnode with
    | none => rfl
    | @some node copy hcopy =>
      have hsupplied : supplementErrors (suppliedBy extension document copy) =
          supplementErrors (suppliedBy extension document node) := by
        obtain ⟨path, nullable, supplements, shape⟩ := node
        obtain ⟨path', nullable', supplements', shape'⟩ := copy
        obtain ⟨rfl, rfl, rfl⟩ := hcopy
        rfl
      simp only [Option.elim_some, runsSupplements_same hcopy, hsupplied]

end Reports

/-- Two compilations of a document answer alike, up to the order of errors. -/
structure AnswerAlike (options other : Options) (document : Json) : Prop where
  accepted : (∃ validator, compile options document = .ok validator) ↔
    ∃ validator, compile other document = .ok validator
  refused : (compileErrors options document).Perm (compileErrors other document)
  /-- The errors of the compiler itself, at `none`, are those without hooks. -/
  sources : ∃ parts : Option String → List SchemaError,
    parts none = compileErrors (withoutHooks options) document ∧
      Interleaves parts (compileErrors options document) ∧
      Interleaves parts (compileErrors other document)
  validated : ∀ validator twin, compile options document = .ok validator →
    compile other document = .ok twin → ∀ value,
      (validator.validate value).toList.Perm (twin.validate value).toList ∧
      Interleaves (reportsBy options.extensions document validator value)
        (validator.validate value).toList ∧
      Interleaves (reportsBy options.extensions document validator value)
        (twin.validate value).toList

lemma declared_withoutHooks (options : Options) :
    (withoutHooks options).declared = options.declared := by
  rw [Options.declared, Options.declared, withoutHooks, List.flatMap_map]

lemma answerAlike_of_perm {options other : Options}
    (hperm : options.extensions.Perm other.extensions)
    (hnames : (options.extensions.map (·.name)).Nodup) {document : Json}
    (hd : distinctKeys document = true) : AnswerAlike options other document := by
  obtain ⟨plan, hplan⟩ := documentErrors_planned options.declared document
  have herrors := hplan options fun _ => Iff.rfl
  have hothers := hplan other (declared_perm hperm)
  have hbare := hplan (withoutHooks options) fun key => by rw [declared_withoutHooks]
  have hfirst := plan_interleaves options plan
  have hsecond := plan_interleaves other plan
  replace hsecond := interleaves_congr hsecond (errorsBy_perm hperm hnames plan)
  rw [← herrors, ← compileErrors_eq] at hfirst
  rw [← hothers, ← compileErrors_eq] at hsecond
  have hrefused := interleaves_perm hfirst hsecond
  refine ⟨?_, hrefused, ⟨errorsBy options.extensions plan, ?_, hfirst, hsecond⟩, ?_⟩
  · rw [compile_ok_iff, compile_ok_iff, ← compileErrors_eq, ← compileErrors_eq]
    exact ⟨fun h => List.nil_perm.mp (h ▸ hrefused), fun h => List.perm_nil.mp (h ▸ hrefused)⟩
  · rw [compileErrors_eq, hbare]
    exact List.flatMap_congr fun report _ => (performed_withoutHooks options report).symm
  · intro validator twin h htwin value
    have hsame := compiled_same h htwin hd
    have hreports := validate_interleaves h hd value
    have hcopied := interleaves_congr (validate_interleaves htwin hd value)
      (reportsBy_same hsame hperm hnames document value)
    exact ⟨interleaves_perm hreports hcopied, hreports, hcopied⟩

/-- Of the extensions that are enabled the first of each name is held, and in which order these are
makes no difference but to the order of errors of different sources. -/
theorem extensions_commute :
    (∀ calls, (Options.ofExtensions calls).extensions = firstOfName calls) ∧
      ∀ calls others document, distinctKeys document = true →
        (firstOfName calls).Perm (firstOfName others) →
          AnswerAlike (.ofExtensions calls) (.ofExtensions others) document := by
  refine ⟨ofExtensions_holds, fun calls others document hd hperm => ?_⟩
  have hnames := names_nodup calls
  rw [← ofExtensions_holds] at hperm hnames
  rw [← ofExtensions_holds] at hperm
  exact answerAlike_of_perm hperm hnames hd

/-- A time of this century without a leap second. -/
def clockDocument : Json :=
  .object [("type", .string "timestamp"),
    ("x:checks", .object [("minimum", .string "2001-01-01T00:00:00Z")])]

/-- The calls enable the extension for checks first, and then once more. -/
def clockCalls : List Extension :=
  [Checks.extensionWith literalEngine, LeapSeconds.extension, Checks.extensionWith literalEngine]

def turnedCalls : List Extension :=
  [LeapSeconds.extension, Checks.extensionWith literalEngine]

def clockCodes (calls : List Extension) : Option (List String) :=
  (compile (.ofExtensions calls) clockDocument).toOption.map fun validator =>
    (validator.validate (.string "1998-12-31T23:59:60Z")).toList.map fun error =>
      error.violation.code

theorem clockDocument_alike :
    distinctKeys clockDocument = true ∧
      (firstOfName clockCalls).Perm (firstOfName turnedCalls) ∧
      AnswerAlike (.ofExtensions clockCalls) (.ofExtensions turnedCalls) clockDocument ∧
      clockCodes clockCalls =
        some ["EXTENSION:X_CHECKS:OUT_OF_BOUND",
          "EXTENSION:DISALLOW_LEAP_SECONDS:TYPE_FORM:LEAP_SECONDS_NOT_ALLOWED_ON_TIMESTAMP"] ∧
      clockCodes turnedCalls =
        some ["EXTENSION:DISALLOW_LEAP_SECONDS:TYPE_FORM:LEAP_SECONDS_NOT_ALLOWED_ON_TIMESTAMP",
          "EXTENSION:X_CHECKS:OUT_OF_BOUND"] := by
  have hd : distinctKeys clockDocument = true := by decide
  have hperm : (firstOfName clockCalls).Perm (firstOfName turnedCalls) := List.Perm.swap _ _ []
  exact ⟨hd, hperm, extensions_commute.2 _ _ clockDocument hd hperm, by decide +kernel,
    by decide +kernel⟩

end JsonTypeDefinition.Proofs
