import JsonTypeDefinition.Proofs.DocumentErrors
import JsonTypeDefinition.Proofs.StandsFor

/-!
# The nodes of a compilation without errors

A compilation that reports nothing has a node for every schema object it met, and nodes are only
ever added. `compiled_stands` says what this comes to for a whole document.
-/

namespace JsonTypeDefinition.Proofs

/-- All nodes are kept where they are. -/
def Extends (nodes later : Array Node) : Prop :=
  ∀ (id : NodeId) (node : Node), nodes[id]? = some node → later[id]? = some node

lemma extends_refl (nodes : Array Node) : Extends nodes nodes :=
  fun _ _ h => h

lemma extends_trans {nodes later last : Array Node} (h : Extends nodes later)
    (hl : Extends later last) : Extends nodes last :=
  fun id node hn => hl id node (h id node hn)

lemma extends_push (nodes : Array Node) (node : Node) : Extends nodes (nodes.push node) := by
  intro id other h
  have hlt : id < nodes.size := (Array.getElem?_eq_some_iff.mp h).choose
  rw [Array.getElem?_push_lt hlt, ← Array.getElem?_eq_getElem hlt]
  exact h

/-- If there are no errors after `build`, there were none before, and its result is as `made` says
about the nodes from then on. -/
def Makes {α : Type} (build : Build α) (made : Array Node → α → Prop) : Prop :=
  ∀ b, (build.run b).2.errors = #[] → b.errors = #[] ∧ Extends b.nodes (build.run b).2.nodes ∧
    ∀ nodes, Extends (build.run b).2.nodes nodes → made nodes (build.run b).1

section Rules

variable {α β : Type} {p : Array Node → α → Prop} {q : Array Node → β → Prop}

lemma makes_pure {a : α} (h : ∀ nodes, p nodes a) : Makes (pure a) p :=
  fun b hb => ⟨hb, extends_refl b.nodes, fun nodes _ => h nodes⟩

lemma makes_bind {build : Build α} {next : α → Build β} (hb : Makes build p)
    (hn : ∀ a, Makes (next a) fun nodes c => p nodes a → q nodes c) :
    Makes (build >>= next) q := by
  intro b herrors
  have hrun : (build >>= next).run b = (next (build.run b).1).run (build.run b).2 := rfl
  rw [hrun] at herrors ⊢
  obtain ⟨hmid, hlater, hq⟩ := hn _ _ herrors
  obtain ⟨hfirst, hearlier, hp⟩ := hb b hmid
  refine ⟨hfirst, extends_trans hearlier hlater, fun nodes hnodes => ?_⟩
  exact hq nodes hnodes (hp nodes (extends_trans hlater hnodes))

lemma makes_map {build : Build α} {f : α → β} (hb : Makes build p)
    (hf : ∀ nodes a, p nodes a → q nodes (f a)) :
    Makes (build >>= fun a => pure (f a)) q :=
  makes_bind hb fun a => makes_pure fun nodes => hf nodes a

lemma makes_weaken {build : Build α} {r : Array Node → α → Prop} (hb : Makes build p)
    (h : ∀ nodes a, p nodes a → r nodes a) : Makes build r :=
  fun b herrors => ⟨(hb b herrors).1, (hb b herrors).2.1,
    fun nodes hnodes => h nodes _ ((hb b herrors).2.2 nodes hnodes)⟩

lemma makes_report (path : Path) (faults : List SchemaFault) :
    Makes (Build.report path faults) fun _ _ => faults = [] := by
  intro b herrors
  have hrun : ((Build.report path faults).run b).2.errors =
      b.errors ++ (faults.map (SchemaError.mk path)).toArray := rfl
  rw [hrun, Array.append_eq_empty_iff] at herrors
  obtain ⟨hb, hf⟩ := herrors
  exact ⟨hb, extends_refl b.nodes, fun _ _ => by simpa using hf⟩

lemma makes_add (node : Node) :
    Makes (Build.add node) fun nodes result => ∃ id, result = some id ∧ nodes[id]? = some node := by
  intro b herrors
  have hb : b.errors = #[] := by
    rw [run_add] at herrors
    split at herrors <;> exact herrors
  rw [run_add, if_pos (by simp [hb])]
  refine ⟨hb, extends_push b.nodes node, fun nodes hnodes => ⟨_, rfl, hnodes _ _ ?_⟩⟩
  exact Array.getElem?_push_size

lemma makes_noteReference (position : Position) (name : String) :
    Makes (Build.noteReference position name) fun _ _ => True := by
  intro b herrors
  rw [run_noteReference] at herrors ⊢
  dsimp only at herrors ⊢
  split at herrors <;> rename_i hposition
  · exact ⟨herrors, by rw [if_pos hposition]; exact extends_refl _, fun _ _ => trivial⟩
  · exact ⟨herrors, by rw [if_neg hposition]; exact extends_refl _, fun _ _ => trivial⟩

end Rules

section Levels

variable {scope : Scope} {members : Members}

lemma makes_finish (form : Form) (path : Path) (draft : Draft) :
    Makes (Compile.finish scope form path members draft) fun nodes result =>
      ∀ shape, draft = .ready shape → ∃ id, result = some id ∧
        nodes[id]? = some ⟨path, Compile.isNullable members,
          (scope.options.contribution form members (form.path path)).supplements, shape⟩ := by
  cases draft with
  | abandoned => exact makes_pure fun _ _ he => nomatch he
  | faulty => exact makes_map (makes_report _ _) fun _ _ _ _ he => nomatch he
  | ready shape =>
    refine makes_bind (makes_report _ _) fun _ => makes_weaken (makes_add _) ?_
    rintro nodes result ⟨id, hr, hn⟩ - other he
    cases he
    exact ⟨id, hr, hn⟩

/-- What a draft without errors comes to. -/
def DraftStands (scope : Scope) (position : Position) (path : Path) (members : Members)
    (form : Form) (nodes : Array Node) (draft : Draft) : Prop :=
  ∃ shape, draft = .ready shape ∧ HasShape scope nodes position path members form shape

lemma field_eq_iff {key : String} {value : Json} (hv : value ≠ .null) :
    Compile.field members key = value ↔ members.get? key = some value := by
  unfold Compile.field
  cases members.get? key with
  | none => simpa using hv.symm
  | some other => simp

lemma makes_nothing {α : Type} {result : α} (path : Path) (fault : SchemaFault)
    {q : Array Node → α → Prop} :
    Makes (Build.report path [fault] >>= fun _ => pure result) q :=
  makes_map (makes_report path [fault]) fun _ _ h => nomatch h

lemma makes_typeDraft (position : Position) (path : Path) :
    Makes (Compile.typeDraft (path ++ ["type"]) members)
      (DraftStands scope position path members .type) := by
  unfold Compile.typeDraft
  split
  · rename_i name hname
    split
    · rename_i type htype
      have hname' := (field_eq_iff (by simp)).mp hname
      exact makes_pure fun nodes => ⟨_, rfl, .type hname' htype⟩
    · exact makes_nothing _ _
  · exact makes_nothing _ _

lemma makes_enumDraft (position : Position) (path : Path) :
    Makes (Compile.enumDraft (path ++ ["enum"]) members)
      (DraftStands scope position path members .enum) := by
  unfold Compile.enumDraft
  split
  · exact makes_nothing _ _
  · rename_i variants _ hvariants
    have hvariants' := (field_eq_iff (by simp)).mp hvariants
    refine makes_bind (makes_report _ _) fun _ => ?_
    split
    · exact makes_pure fun nodes _ => ⟨_, rfl, .enum hvariants'⟩
    · exact makes_nothing _ _
  · exact makes_nothing _ _

lemma makes_refDraft (position : Position) (path : Path) :
    Makes (Compile.refDraft scope position (path ++ ["ref"]) members)
      (DraftStands scope position path members .ref) := by
  unfold Compile.refDraft
  split
  · rename_i name hname
    have hname' := (field_eq_iff (by simp)).mp hname
    refine makes_bind (makes_report _ _) fun _ => ?_
    refine makes_map (makes_noteReference position name) fun nodes _ _ hreport => ?_
    cases hindex : scope.definitions.idxOf? name with
    | none => simp [hindex] at hreport
    | some index => exact ⟨_, rfl, .ref hname' hindex⟩
  · exact makes_nothing _ _

/-- A schema whose compilation reports nothing has a node that stands for it. -/
def Stands (scope : Scope) (position : Position) (path : Path) (value : Json)
    (nodes : Array Node) (result : Option NodeId) : Prop :=
  ∃ id, result = some id ∧ StandsFor scope nodes position path value id

def StandBelow (scope : Scope) (members : Members) : Prop :=
  ∀ value, sizeOf value < sizeOf (Json.object members) → ∀ position path,
    Makes (Compile.schema scope position path value) (Stands scope position path value)

def SectionStands (scope : Scope) (position : Position) (path : Path) (found : Option Json)
    (nodes : Array Node) (compiled : Section) : Prop :=
  (∃ actual, compiled = .notObject actual) ∨
    ∃ subs, compiled.names = subs.map Prod.fst ∧ compiled.nodes = subs ∧
      (found = none → compiled = .absent) ∧ SubsStand scope nodes position path found subs

lemma makes_buildSub (h : StandBelow scope members) (path : Path) (key : String) :
    Makes (buildSub scope path (members.get? key)) fun nodes result =>
      ∃ value, members.get? key = some value ∧ Stands scope .nested path value nodes result := by
  cases hf : members.get? key with
  | none => exact makes_nothing _ _
  | some value =>
    have hv := h value (sizeOf_member_lt (get?_mem hf)) .nested path
    exact makes_weaken hv fun nodes result hs => ⟨value, rfl, hs⟩

lemma subsStand_cons {nodes : Array Node} {position : Position} {path : Path}
    {name : String} {value : Json} {id : NodeId} {rest : Members} {subs : List (String × NodeId)}
    (hid : StandsFor scope nodes position (path ++ [name]) value id)
    (hrest : SubsStand scope nodes position path (some (.object rest)) subs) :
    SubsStand scope nodes position path (some (.object ((name, value) :: rest)))
      ((name, id) :: subs) := by
  cases hrest with
  | entries hnames hsubs =>
    refine .entries (by simpa [Members.keys] using hnames) ?_
    intro key part other hv hl
    rw [get?_cons] at hv
    rw [List.lookup_cons] at hl
    by_cases he : name = key
    · subst he
      simp only [if_true, beq_self_eq_true, Option.some.injEq] at hv hl
      rw [← hv, ← hl]
      exact hid
    · rw [if_neg he] at hv
      rw [beq_false_of_ne (Ne.symm he)] at hl
      exact hsubs key part other hv hl

lemma makes_schemas {entries : Members} (position : Position) (path : Path)
    (h : ∀ name value, (name, value) ∈ entries → ∀ position path,
      Makes (Compile.schema scope position path value) (Stands scope position path value)) :
    Makes (Compile.schemas scope position path entries) fun nodes compiled =>
      ∃ subs : List (String × NodeId), compiled = subs.map (fun (name, id) => (name, some id)) ∧
        SubsStand scope nodes position path (some (.object entries)) subs := by
  induction entries with
  | nil => exact makes_pure fun nodes => ⟨[], rfl, .entries rfl fun _ _ _ h => nomatch h⟩
  | cons entry rest ih =>
    obtain ⟨name, value⟩ := entry
    have ih' := ih fun name value hm => h name value (List.mem_cons_of_mem _ hm)
    refine makes_bind (h name value List.mem_cons_self position (path ++ [name])) fun sub => ?_
    refine makes_map ih' fun nodes compiled hrest hsub => ?_
    obtain ⟨subs, rfl, hs⟩ := hrest
    obtain ⟨id, rfl, hid⟩ := hsub
    exact ⟨(name, id) :: subs, rfl, subsStand_cons hid hs⟩

lemma makes_buildSection (h : StandBelow scope members) (position : Position) (path : Path)
    (key : String) :
    Makes (buildSection scope position path (members.get? key))
      (SectionStands scope position path (members.get? key)) := by
  have he : ∀ name value, (name, value) ∈ entriesIn (members.get? key) → ∀ position path,
      Makes (Compile.schema scope position path value) (Stands scope position path value) :=
    fun name value hm => h value (sizeOf_entry_lt hm)
  cases hf : members.get? key with
  | none => exact makes_pure fun nodes => .inr ⟨[], rfl, rfl, fun _ => rfl, .absent⟩
  | some found =>
    rw [hf] at he
    cases found with
    | object entries =>
      refine makes_map (makes_schemas position path he) fun nodes compiled hc => ?_
      obtain ⟨subs, rfl, hs⟩ := hc
      refine .inr ⟨subs, ?_, ?_, by simp, hs⟩
      · simp [Section.names, Function.comp_def]
      · simp [Section.nodes, List.filterMap_map]
    | _ => exact makes_pure fun nodes => .inl ⟨_, rfl⟩

lemma makes_properties (h : StandBelow scope members) (position : Position) (path : Path) :
    Makes (formDraft scope position path members .properties)
      (DraftStands scope position path members .properties) := by
  refine makes_bind (makes_buildSection h _ _ _) fun required => ?_
  refine makes_bind (makes_report _ _) fun _ => ?_
  refine makes_bind (makes_buildSection h _ _ _) fun optional => ?_
  refine makes_bind (makes_report _ _) fun _ => ?_
  refine makes_map (makes_report _ _) fun nodes _ _ hoptfaults hopt hreqfaults hreq => ?_
  rcases hreq with ⟨actual, rfl⟩ | ⟨subs, hnames, hnodes, -, hsubs⟩
  · cases hreqfaults
  rcases hopt with ⟨actual, rfl⟩ | ⟨optsubs, -, hoptnodes, -, hoptsubs⟩
  · cases hoptfaults
  refine ⟨_, rfl, ?_⟩
  rw [Compile.propertiesShape, hnames, hnodes, hoptnodes]
  exact .properties hsubs hoptsubs

lemma tag_of_faultless (h : Compile.discriminatorFaults members = []) :
    ∃ tag, Compile.field members "discriminator" = .string tag := by
  unfold Compile.discriminatorFaults at h
  split at h
  · exact ⟨_, by assumption⟩
  · cases h

lemma makes_discriminator (h : StandBelow scope members) (position : Position) (path : Path) :
    Makes (formDraft scope position path members .discriminator)
      (DraftStands scope position path members .discriminator) := by
  refine makes_bind (makes_report _ _) fun _ => ?_
  refine makes_bind (makes_buildSection h _ _ _) fun mapping => ?_
  cases mapping with
  | absent => exact makes_nothing _ _
  | notObject actual => exact makes_nothing _ _
  | entries compiled =>
    refine makes_pure fun nodes hmapping htag => ?_
    obtain ⟨tag, ht⟩ := tag_of_faultless htag
    rw [ht] at hmapping ⊢
    rcases hmapping with ⟨actual, hactual⟩ | ⟨subs, -, hnodes, habsent, hsubs⟩
    · cases hactual
    refine ⟨.discriminator tag subs, by rw [hnodes]; rfl, ?_⟩
    generalize hf : members.get? "mapping" = found at habsent hsubs
    cases hsubs with
    | absent => exact nomatch habsent rfl
    | entries hnames hstand =>
      exact .discriminator ((field_eq_iff (by simp)).mp ht) hf (.entries hnames hstand)

lemma makes_formDraft (h : StandBelow scope members) (position : Position) (path : Path)
    (form : Form) :
    Makes (formDraft scope position path members form)
      (DraftStands scope position path members form) := by
  cases form with
  | empty => exact makes_pure fun nodes => ⟨_, rfl, .empty⟩
  | type => exact makes_typeDraft position path
  | enum => exact makes_enumDraft position path
  | elements =>
    refine makes_map (makes_buildSub h _ _) fun nodes sub hsub => ?_
    obtain ⟨value, hv, id, rfl, hid⟩ := hsub
    exact ⟨_, rfl, .elements hv hid⟩
  | properties => exact makes_properties h position path
  | values =>
    refine makes_map (makes_buildSub h _ _) fun nodes sub hsub => ?_
    obtain ⟨value, hv, id, rfl, hid⟩ := hsub
    exact ⟨_, rfl, .values hv hid⟩
  | discriminator => exact makes_discriminator h position path
  | ref => exact makes_refDraft position path

lemma makes_object (h : StandBelow scope members) (position : Position) (path : Path) :
    Makes (Compile.schema scope position path (.object members))
      (Stands scope position path (.object members)) := by
  rw [schema_object]
  cases hkeys : KeyGroups.ofKeys (Members.keys members) scope.options.declared with
  | ambiguous keys => exact makes_nothing _ _
  | ofForm keys =>
    refine makes_bind (makes_report _ _) fun _ => ?_
    refine makes_bind (makes_formDraft h position path keys.form) fun draft => ?_
    refine makes_weaken (makes_finish keys.form path draft) ?_
    intro nodes result hfinish hdraft hfaults
    obtain ⟨shape, rfl, hshape⟩ := hdraft
    obtain ⟨id, rfl, hnode⟩ := hfinish shape rfl
    obtain ⟨hplace, hcommon⟩ := List.append_eq_nil_iff.mp hfaults
    exact ⟨id, rfl, .object hkeys hplace hcommon hnode hshape⟩

end Levels

theorem schema_makes (scope : Scope) (value : Json) : ∀ (position : Position) (path : Path),
    Makes (Compile.schema scope position path value) (Stands scope position path value) := by
  -- By size, as the entries of a section lie two levels below the schema object.
  induction value using value_induction with
  | step value ih =>
    intro position path
    by_cases ho : ∃ members, value = .object members
    · obtain ⟨members, rfl⟩ := ho
      exact makes_object ih position path
    · rw [schema_notObject fun members he => ho ⟨members, he⟩]
      exact makes_nothing _ _

def SlotsStand (scope : Scope) (found : Option Json) (nodes : Array Node)
    (slots : List (Option NodeId)) : Prop :=
  ∃ subs : List (String × NodeId), slots = subs.map (fun sub => some sub.2) ∧
    SubsStand scope nodes .definition ["definitions"] found subs

lemma makes_forgetReference : Makes Build.forgetReference fun _ _ => True :=
  fun b herrors => ⟨herrors, extends_refl b.nodes, fun _ _ => trivial⟩

lemma makes_takeReference : Makes Build.takeReference fun _ _ => True :=
  fun b herrors => ⟨herrors, extends_refl b.nodes, fun _ _ => trivial⟩

lemma makes_definition (scope : Scope) (name : String) (value : Json) :
    Makes (Compile.definition scope name value) fun nodes made =>
      Stands scope .definition ["definitions", name] value nodes made.1 := by
  refine makes_bind makes_forgetReference fun _ => ?_
  refine makes_bind (schema_makes scope value .definition ["definitions", name]) fun id => ?_
  exact makes_map makes_takeReference fun nodes _ _ hid _ => hid

lemma makes_definitionBodies (scope : Scope) (entries : Members) :
    Makes (Compile.definitionBodies scope entries) fun nodes made =>
      SlotsStand scope (some (.object entries)) nodes made.1 := by
  induction entries with
  | nil => exact makes_pure fun nodes => ⟨[], rfl, .entries rfl fun _ _ _ h => nomatch h⟩
  | cons entry rest ih =>
    obtain ⟨name, value⟩ := entry
    refine makes_bind (makes_definition scope name value) fun made => ?_
    refine makes_map ih fun nodes others hothers hmade => ?_
    obtain ⟨subs, hslots, hsubs⟩ := hothers
    obtain ⟨id, hid, hstands⟩ := hmade
    exact ⟨(name, id) :: subs, by rw [hid, hslots]; rfl, subsStand_cons hstands hsubs⟩

lemma makes_definitions (options : Options) {document value : Json}
    (h : Compile.definitions? document = some value) :
    Makes (Compile.definitions options value)
      (SlotsStand (scopeOf options document) (some value)) := by
  cases value with
  | object entries =>
    rw [scopeOf_eq h]
    refine makes_bind (makes_definitionBodies _ entries) fun made => ?_
    exact makes_map (makes_report _ _) fun nodes _ _ hslots => hslots
  | _ => exact makes_nothing _ _

lemma makes_document (options : Options) (document : Json) :
    Makes (Compile.document options document) fun nodes made =>
      SlotsStand (scopeOf options document) (Compile.definitions? document) nodes made.1 ∧
        Stands (scopeOf options document) .root [] document nodes made.2 := by
  have hroot : ∀ slots : List (Option NodeId),
      Makes (Compile.schema (scopeOf options document) .root [] document >>= fun id =>
        pure (slots, id)) fun nodes made =>
          SlotsStand (scopeOf options document) (Compile.definitions? document) nodes slots →
            SlotsStand (scopeOf options document) (Compile.definitions? document) nodes made.1 ∧
              Stands (scopeOf options document) .root [] document nodes made.2 :=
    fun slots => makes_map (schema_makes _ document .root []) fun nodes id hid hslots =>
      ⟨hslots, hid⟩
  unfold Compile.document
  cases h : Compile.definitions? document with
  | none =>
    rw [h] at hroot
    exact makes_bind (makes_pure fun nodes => ⟨[], rfl, .absent⟩) hroot
  | some value =>
    rw [h] at hroot
    exact makes_bind (makes_definitions options h) hroot

/-- What is known of a validator that a document compiled to. -/
structure IsCompiled (options : Options) (document : Json) (validator : Validator) : Prop where
  root : StandsFor (scopeOf options document) validator.nodes .root [] document validator.root
  definitions : ∃ subs : List (String × NodeId),
    validator.definitions = (subs.map Prod.snd).toArray ∧
      SubsStand (scopeOf options document) validator.nodes .definition ["definitions"]
        (Compile.definitions? document) subs
  faultless : documentErrors options document = []

lemma mapM_somes (subs : List (String × NodeId)) :
    ((subs.map fun sub => some sub.2).mapM fun slot => slot) = some (subs.map Prod.snd) := by
  induction subs with
  | nil => rfl
  | cons sub rest ih =>
    rw [List.map_cons, List.mapM_cons, ih]
    rfl

lemma compile_faultless {options : Options} {document : Json}
    (h : documentErrors options document = []) :
    ∃ validator, compile options document = .ok validator ∧
      IsCompiled options document validator := by
  have herrors : ((Compile.document options document).run {}).2.errors = #[] := by
    rw [(lists_document options document {}).1, h]
    rfl
  obtain ⟨-, -, hmade⟩ := makes_document options document {} herrors
  obtain ⟨⟨subs, hslots, hsubs⟩, id, hid, hroot⟩ := hmade _ (extends_refl _)
  let nodes := ((Compile.document options document).run {}).2.nodes
  refine ⟨⟨nodes, (subs.map Prod.snd).toArray, id⟩, ?_, hroot, ⟨subs, rfl, hsubs⟩, h⟩
  unfold compile nodes
  generalize (Compile.document options document).run {} = run at herrors hslots hid ⊢
  obtain ⟨⟨slots, root⟩, builder⟩ := run
  dsimp only at herrors hslots hid ⊢
  rw [hslots, mapM_somes, hid, herrors]
  rfl

theorem compile_ok_iff (options : Options) (document : Json) :
    (∃ validator, compile options document = .ok validator) ↔
      documentErrors options document = [] := by
  constructor
  · rintro ⟨validator, h⟩
    rw [← compileErrors_eq, compileErrors, h]
  · intro h
    obtain ⟨validator, hv, -⟩ := compile_faultless h
    exact ⟨validator, hv⟩

lemma compiles_of_isOk {options : Options} {document : Json}
    (h : (compile options document).isOk = true) :
    ∃ validator, compile options document = .ok validator := by
  cases hc : compile options document with
  | ok validator => exact ⟨validator, rfl⟩
  | error errors =>
    rw [hc] at h
    cases h

lemma compiles_with {α : Type} {options : Options} {document : Json} {result : Validator → α}
    {a : α} (h : (compile options document).toOption.map result = some a) :
    ∃ validator, compile options document = .ok validator ∧ result validator = a := by
  cases hc : compile options document with
  | ok validator =>
    rw [hc] at h
    exact ⟨validator, rfl, Option.some.inj h⟩
  | error errors =>
    rw [hc] at h
    cases h

theorem compiled_stands {options : Options} {document : Json} {validator : Validator}
    (h : compile options document = .ok validator) : IsCompiled options document validator := by
  obtain ⟨other, hother, hcompiled⟩ :=
    compile_faultless ((compile_ok_iff options document).mp ⟨validator, h⟩)
  rw [h] at hother
  cases hother
  exact hcompiled

end JsonTypeDefinition.Proofs
