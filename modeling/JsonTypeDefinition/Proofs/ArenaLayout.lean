import JsonTypeDefinition.Proofs.NodeOrErrors

/-!
# The layout of the nodes

A compilation without errors adds one node for each schema that it goes through, after the nodes of
the schemas below. The nodes added by a stretch of a compilation name one another, and what the
stretch results in names those that are left: each new node is named once.
-/

namespace JsonTypeDefinition.Proofs

/-- The nodes that a shape names, other than by way of a definition. -/
def children : Shape → List NodeId
  | .elements sub | .values sub => [sub]
  | .properties shape => shape.subs.map Prod.snd
  | .discriminator _ mapping => mapping.map Prod.snd
  | .empty | .type _ | .enum _ | .ref _ => []

def namedBy (nodes : List Node) : List NodeId :=
  nodes.flatMap fun node => children node.shape

/-- `added` follows on the nodes `before` and has one node for each of `inner`, in order. `ids` are
those of the new nodes that no new node names. -/
structure Lays (scope : Scope) (before : Array Node) (added : List Node) (inner : List Site)
    (ids : List NodeId) : Prop where
  count : added.length = inner.length
  once : (ids ++ namedBy added).Perm (List.range' before.size added.length)
  below : ∀ (i : Nat) node, added[i]? = some node → ∀ child : Nat, child ∈ children node.shape →
    child < before.size + i
  stands : ∀ nodes, Extends (before ++ added.toArray) nodes → ∀ (i : Nat) site,
    inner[i]? = some site →
      StandsFor scope nodes site.position site.path site.schema (before.size + i)

lemma extends_append (nodes : Array Node) (added : List Node) :
    Extends nodes (nodes ++ added.toArray) := by
  intro id node h
  have hlt : id < nodes.size := (Array.getElem?_eq_some_iff.mp h).choose
  rw [Array.getElem?_append_left hlt]
  exact h

section Segments

variable {scope : Scope} {before : Array Node} {added more : List Node} {inner later : List Site}
  {ids others : List NodeId}

lemma lays_nil (scope : Scope) (before : Array Node) : Lays scope before [] [] [] :=
  ⟨rfl, .nil, fun _ _ h => by simp at h, fun _ _ _ _ h => by simp at h⟩

lemma lays_append (h : Lays scope before added inner ids)
    (hl : Lays scope (before ++ added.toArray) more later others) :
    Lays scope before (added ++ more) (inner ++ later) (ids ++ others) := by
  have hsize : (before ++ added.toArray).size = before.size + added.length := by simp
  have hcount : (added ++ more).length = (inner ++ later).length := by
    rw [List.length_append, List.length_append, h.count, hl.count]
  refine ⟨hcount, ?_, ?_, ?_⟩
  · -- The ids of both come before the nodes of both, where each stretch has its own together.
    have hshuffle : (ids ++ others ++ namedBy (added ++ more)).Perm
        (ids ++ namedBy added ++ (others ++ namedBy more)) := by
      rw [namedBy, List.flatMap_append, List.append_assoc, List.append_assoc]
      refine List.Perm.append_left ids ?_
      rw [← List.append_assoc, ← List.append_assoc]
      exact List.perm_append_comm.append_right _
    have hboth := h.once.append hl.once
    rw [hsize, List.range'_append_1, ← List.length_append] at hboth
    exact hshuffle.trans hboth
  · intro i node hi child hchild
    rw [List.getElem?_append] at hi
    split_ifs at hi with hlt
    · exact h.below i node hi child hchild
    · have hbelow := hl.below _ node hi child hchild
      rw [hsize] at hbelow
      omega
  · intro nodes hnodes i site hi
    rw [← List.append_toArray, ← Array.append_assoc] at hnodes
    rw [List.getElem?_append] at hi
    split_ifs at hi with hlt
    · exact h.stands nodes (extends_trans (extends_append _ more) hnodes) i site hi
    · have hstands := hl.stands nodes hnodes _ site hi
      have hindex : before.size + added.length + (i - inner.length) = before.size + i := by
        have hcount := h.count
        omega
      rwa [hsize, hindex] at hstands

lemma lays_close {site : Site} {node : Node} (h : Lays scope before added inner ids)
    (hnode : children node.shape = ids)
    (hself : ∀ nodes, Extends (before ++ (added ++ [node]).toArray) nodes →
      StandsFor scope nodes site.position site.path site.schema (before.size + added.length)) :
    Lays scope before (added ++ [node]) (inner ++ [site]) [before.size + added.length] := by
  have hnames : namedBy (added ++ [node]) = namedBy added ++ ids := by
    rw [namedBy, List.flatMap_append, List.flatMap_singleton, hnode]
    rfl
  refine ⟨by simp [h.count], ?_, ?_, ?_⟩
  · have honce : (namedBy added ++ ids).Perm (List.range' before.size added.length) :=
      List.perm_append_comm.trans h.once
    rw [hnames, List.length_append, List.length_singleton, ← List.range'_append_1]
    exact List.perm_append_comm.trans (honce.append_right _)
  · intro i other hi child hchild
    rw [List.getElem?_append] at hi
    split_ifs at hi with hlt
    · exact h.below i other hi child hchild
    · have hlast : i - added.length = 0 :=
        Nat.lt_one_iff.mp (List.getElem?_eq_some_iff.mp hi).choose
      have hother : other = node := by
        rw [hlast] at hi
        exact (Option.some.inj hi).symm
      have hmem : child ∈ List.range' before.size added.length := by
        refine h.once.subset (List.mem_append_left _ ?_)
        rwa [← hnode, ← hother]
      rw [List.mem_range'_1] at hmem
      omega
  · intro nodes hnodes i other hi
    rw [List.getElem?_append] at hi
    split_ifs at hi with hlt
    · rw [← List.append_toArray, ← Array.append_assoc] at hnodes
      exact h.stands nodes (extends_trans (extends_append _ [node]) hnodes) i other hi
    · have hlast : i - inner.length = 0 :=
        Nat.lt_one_iff.mp (List.getElem?_eq_some_iff.mp hi).choose
      have hindex : i = added.length := by
        have hcount := h.count
        omega
      rw [hlast] at hi
      rw [← Option.some.inj hi, hindex]
      exact hself nodes hnodes

end Segments

/-- If there are no errors after `build`, it added nodes for `inner`, and those that are left are
named by its result, as `named` says. -/
def Adds {α : Type} (scope : Scope) (build : Build α) (inner : List Site)
    (named : List NodeId → α → Prop) : Prop :=
  ∀ b, (build.run b).2.errors = #[] → b.errors = #[] ∧ ∃ added ids,
    (build.run b).2.nodes = b.nodes ++ added.toArray ∧ Lays scope b.nodes added inner ids ∧
      named ids (build.run b).1

/-- `build` adds no nodes. -/
def Quiet {α : Type} (build : Build α) : Prop :=
  ∀ b, (build.run b).2.nodes = b.nodes

section Rules

variable {α β : Type} {scope : Scope} {inner later : List Site}
  {p : List NodeId → α → Prop} {q : List NodeId → β → Prop}

lemma adds_bind {build : Build α} {next : α → Build β} (hb : Adds scope build inner p)
    (hn : ∀ a, Adds scope (next a) later fun others c => ∀ ids, p ids a → q (ids ++ others) c) :
    Adds scope (build >>= next) (inner ++ later) q := by
  intro b herrors
  have hrun : (build >>= next).run b = (next (build.run b).1).run (build.run b).2 := rfl
  rw [hrun] at herrors ⊢
  obtain ⟨hmid, more, others, hlater, hmore, hq⟩ := hn _ _ herrors
  obtain ⟨hfirst, added, ids, hnodes, hadded, hp⟩ := hb b hmid
  rw [hnodes] at hmore hlater
  refine ⟨hfirst, added ++ more, ids ++ others, ?_, lays_append hadded hmore, hq ids hp⟩
  rw [hlater, ← List.append_toArray, Array.append_assoc]

lemma adds_pure {a : α} (h : p [] a) : Adds scope (pure a) [] p :=
  fun b hb => ⟨hb, [], [], (Array.append_empty).symm, lays_nil scope b.nodes, h⟩

lemma adds_weaken {build : Build α} {r : List NodeId → α → Prop} (hb : Adds scope build inner p)
    (h : ∀ ids a, p ids a → r ids a) : Adds scope build inner r := by
  intro b herrors
  obtain ⟨hfirst, added, ids, hnodes, hadded, hp⟩ := hb b herrors
  exact ⟨hfirst, added, ids, hnodes, hadded, h _ _ hp⟩

lemma adds_before {build : Build α} {next : α → Build β} (hb : Adds scope build inner p)
    (hn : ∀ a, Adds scope (next a) [] fun others c => others = [] ∧ ∀ ids, p ids a → q ids c) :
    Adds scope (build >>= next) inner q := by
  have hboth : Adds scope (build >>= next) (inner ++ []) q := by
    refine adds_bind hb fun a => adds_weaken (hn a) fun others c hothers ids hp => ?_
    rw [hothers.1, List.append_nil]
    exact hothers.2 ids hp
  rwa [List.append_nil] at hboth

lemma adds_map {build : Build α} {f : α → β} (hb : Adds scope build inner p)
    (hf : ∀ ids a, p ids a → q ids (f a)) : Adds scope (build >>= fun a => pure (f a)) inner q :=
  adds_before hb fun a => adds_pure ⟨rfl, fun ids => hf ids a⟩

lemma adds_quiet {build : Build α} {made : α → Prop} (hquiet : Quiet build)
    (hmakes : Makes build fun _ => made) :
    Adds scope build [] fun ids a => ids = [] ∧ made a := by
  intro b herrors
  obtain ⟨hb, -, hmade⟩ := hmakes b herrors
  have hnodes : (build.run b).2.nodes = b.nodes ++ ([] : List Node).toArray := by
    rw [hquiet b, Array.append_empty]
  exact ⟨hb, [], [], hnodes, lays_nil scope b.nodes, rfl, hmade _ (extends_refl _)⟩

lemma quiet_pure (a : α) : Quiet (pure a : Build α) :=
  fun _ => rfl

lemma quiet_bind {build : Build α} {next : α → Build β} (hb : Quiet build)
    (hn : ∀ a, Quiet (next a)) : Quiet (build >>= next) :=
  fun b => (hn _ _).trans (hb b)

lemma quiet_report (path : Path) (faults : List SchemaFault) : Quiet (Build.report path faults) :=
  fun _ => rfl

lemma quiet_noteReference (position : Position) (name : String) :
    Quiet (Build.noteReference position name) := by
  intro b
  rw [run_noteReference]
  dsimp only
  split <;> rfl

lemma adds_report (path : Path) (faults : List SchemaFault) :
    Adds scope (Build.report path faults) [] fun ids _ => ids = [] ∧ faults = [] :=
  adds_quiet (quiet_report path faults) (makes_report path faults)

lemma adds_after {build : Build α} {next : α → Build β} {made : α → Prop}
    (hb : Adds scope build [] fun ids a => ids = [] ∧ made a)
    (hn : ∀ a, Adds scope (next a) later fun others c => made a → q others c) :
    Adds scope (build >>= next) later q := by
  have hboth : Adds scope (build >>= next) ([] ++ later) q := by
    refine adds_bind hb fun a => adds_weaken (hn a) fun others c hq ids hids => ?_
    rw [hids.1]
    exact hq hids.2
  exact hboth

end Rules

def draftChildren : Draft → List NodeId
  | .ready shape => children shape
  | .abandoned | .faulty => []

/-- What is said of a schema's compilation: it adds nodes for all schemas from there down, and its
result names the one that is left. -/
def AddsSchema (scope : Scope) (position : Position) (path : Path) (value : Json) : Prop :=
  Adds scope (Compile.schema scope position path value) (sites ⟨position, path, value⟩)
    fun ids result => result.toList = ids

def AddBelow (scope : Scope) (members : Members) : Prop :=
  ∀ value, sizeOf value < sizeOf (Json.object members) → ∀ position path,
    AddsSchema scope position path value

section Levels

variable {scope : Scope} {members : Members}

lemma quiet_typeDraft (path : Path) : Quiet (Compile.typeDraft path members) := by
  unfold Compile.typeDraft
  split
  · split
    · exact quiet_pure _
    · exact quiet_bind (quiet_report _ _) fun _ => quiet_pure _
  · exact quiet_bind (quiet_report _ _) fun _ => quiet_pure _

lemma quiet_enumDraft (path : Path) : Quiet (Compile.enumDraft path members) := by
  unfold Compile.enumDraft
  split
  · exact quiet_bind (quiet_report _ _) fun _ => quiet_pure _
  · refine quiet_bind (quiet_report _ _) fun _ => ?_
    split
    · exact quiet_pure _
    · exact quiet_bind (quiet_report _ _) fun _ => quiet_pure _
  · exact quiet_bind (quiet_report _ _) fun _ => quiet_pure _

lemma quiet_refDraft (position : Position) (path : Path) :
    Quiet (Compile.refDraft scope position path members) := by
  unfold Compile.refDraft
  split
  · refine quiet_bind (quiet_report _ _) fun _ => ?_
    exact quiet_bind (quiet_noteReference _ _) fun _ => quiet_pure _
  · exact quiet_bind (quiet_report _ _) fun _ => quiet_pure _

lemma adds_leaf {draft : Build Draft} {position : Position} {path : Path} {form : Form}
    (hquiet : Quiet draft) (hmakes : Makes draft (DraftStands scope position path members form))
    (hleaf : ∀ nodes shape, HasShape scope nodes position path members form shape →
      children shape = []) :
    Adds scope draft [] fun ids draft => draftChildren draft = ids := by
  have hnone : Makes draft fun _ draft => draftChildren draft = [] := by
    refine makes_weaken hmakes fun nodes draft hstands => ?_
    obtain ⟨shape, rfl, hshape⟩ := hstands
    exact hleaf nodes shape hshape
  refine adds_weaken (adds_quiet hquiet hnone) fun ids draft hids => ?_
  rw [hids.1, hids.2]

lemma adds_buildSub (h : AddBelow scope members) (path : Path) (key : String) :
    Adds scope (buildSub scope path (members.get? key))
      (((members.get? key).toList.map fun value => (⟨.nested, path, value⟩ : Site)).flatMap sites)
      fun ids result => result.toList = ids := by
  cases hf : members.get? key with
  | none => exact adds_map (adds_report _ _) fun ids _ hids => hids.1.symm
  | some value =>
    have hvalue := h value (sizeOf_member_lt (get?_mem hf)) .nested path
    have hsites : ((some value).toList.map fun value => (⟨.nested, path, value⟩ : Site)).flatMap
        sites = sites ⟨.nested, path, value⟩ := List.append_nil _
    rw [hsites]
    exact hvalue

lemma adds_schemas {entries : Members} (position : Position) (path : Path)
    (h : ∀ name value, (name, value) ∈ entries → ∀ position path,
      AddsSchema scope position path value) :
    Adds scope (Compile.schemas scope position path entries)
      ((entries.map fun (name, value) => (⟨position, path ++ [name], value⟩ : Site)).flatMap sites)
      fun ids compiled => compiled.filterMap Prod.snd = ids := by
  induction entries with
  | nil => exact adds_pure rfl
  | cons entry rest ih =>
    obtain ⟨name, value⟩ := entry
    have ih' := ih fun name value hm => h name value (List.mem_cons_of_mem _ hm)
    refine adds_bind (h name value List.mem_cons_self position (path ++ [name])) fun sub => ?_
    refine adds_map ih' fun others compiled hrest ids hsub => ?_
    rw [← hsub, ← hrest]
    cases sub <;> rfl

lemma sectionNodes_snd (subs : List (String × Option NodeId)) :
    (Section.entries subs).nodes.map Prod.snd = subs.filterMap Prod.snd := by
  rw [Section.nodes, List.map_filterMap]
  refine List.filterMap_congr fun sub _ => ?_
  obtain ⟨name, id⟩ := sub
  cases id <;> rfl

lemma adds_buildSection (h : AddBelow scope members) (position : Position) (path : Path)
    (key : String) :
    Adds scope (buildSection scope position path (members.get? key))
      ((entrySites position path (members.get? key)).flatMap sites)
      fun ids compiled => compiled.nodes.map Prod.snd = ids := by
  have hentries : ∀ name value, (name, value) ∈ entriesIn (members.get? key) → ∀ position path,
      AddsSchema scope position path value :=
    fun name value hm => h value (sizeOf_entry_lt hm)
  cases hf : members.get? key with
  | none => exact adds_pure rfl
  | some found =>
    rw [hf] at hentries
    cases found with
    | object entries =>
      refine adds_map (adds_schemas position path hentries) fun ids subs hids => ?_
      rw [sectionNodes_snd, hids]
    | _ => exact adds_pure rfl

lemma adds_properties (h : AddBelow scope members) (position : Position) (path : Path) :
    Adds scope (formDraft scope position path members .properties)
      ((formSites path members .properties).flatMap sites)
      fun ids draft => draftChildren draft = ids := by
  rw [formSites, List.flatMap_append]
  refine adds_bind (adds_buildSection h _ _ _) fun required => ?_
  refine adds_after (adds_report _ _) fun _ => ?_
  refine adds_before (adds_buildSection h _ _ _) fun optional => ?_
  refine adds_after (adds_report _ _) fun _ => ?_
  refine adds_map (adds_report _ _) fun others _ hothers => ?_
  refine fun _ => ⟨hothers.1, fun optids hoptional _ ids hrequired => ?_⟩
  rw [← hrequired, ← hoptional, ← List.map_append]
  rfl

lemma adds_discriminator (h : AddBelow scope members) (position : Position) (path : Path) :
    Adds scope (formDraft scope position path members .discriminator)
      ((formSites path members .discriminator).flatMap sites)
      fun ids draft => draftChildren draft = ids := by
  refine adds_after (adds_report _ _) fun _ => ?_
  refine adds_before (adds_buildSection h _ _ _) fun mapping => ?_
  cases mapping with
  | absent | notObject =>
    exact adds_map (adds_report _ _) fun others _ hothers => ⟨hothers.1, fun ids hids _ => hids⟩
  | entries subs =>
    refine adds_pure ⟨rfl, fun ids hids htag => ?_⟩
    obtain ⟨tag, ht⟩ := tag_of_faultless htag
    rw [ht, ← hids]
    rfl

lemma adds_formDraft (h : AddBelow scope members) (position : Position) (path : Path)
    (form : Form) :
    Adds scope (formDraft scope position path members form)
      ((formSites path members form).flatMap sites)
      fun ids draft => draftChildren draft = ids := by
  cases form with
  | empty => exact adds_pure rfl
  | type =>
    refine adds_leaf (quiet_typeDraft _) (makes_typeDraft position path) fun _ _ hshape => ?_
    cases hshape
    rfl
  | enum =>
    refine adds_leaf (quiet_enumDraft _) (makes_enumDraft position path) fun _ _ hshape => ?_
    cases hshape
    rfl
  | elements | values =>
    refine adds_map (adds_buildSub h _ _) fun ids sub hsub => ?_
    rw [← hsub]
    cases sub <;> rfl
  | properties => exact adds_properties h position path
  | discriminator => exact adds_discriminator h position path
  | ref =>
    refine adds_leaf (quiet_refDraft _ _) (makes_refDraft position path) fun _ _ hshape => ?_
    cases hshape
    rfl

lemma finish_pushes {form : Form} {path : Path} {draft : Draft} {b : Builder} {id : NodeId}
    (h : ((Compile.finish scope form path members draft).run b).1 = some id) :
    ∃ node, draft = .ready node.shape ∧ id = b.nodes.size ∧
      ((Compile.finish scope form path members draft).run b).2.nodes = b.nodes.push node := by
  cases draft with
  | abandoned => cases h
  | faulty => cases h
  | ready shape =>
    let contribution := scope.options.contribution form members (form.path path)
    let node : Node := ⟨path, Compile.isNullable members, contribution.supplements, shape⟩
    have hrun : (Compile.finish scope form path members (.ready shape)).run b =
        (Build.add node).run ((Build.report (form.path path) contribution.faults).run b).2 := rfl
    rw [hrun, run_add] at h ⊢
    split at h
    · rename_i hempty
      rw [if_pos hempty]
      exact ⟨node, rfl, (Option.some.inj h).symm, rfl⟩
    · cases h

lemma adds_finish {draft : Build Draft} {inner : List Site} {position : Position} {path : Path}
    {form : Form} (hdraft : Adds scope draft inner fun ids draft => draftChildren draft = ids)
    (hmakes : Makes (draft >>= Compile.finish scope form path members)
      (Stands scope position path (.object members))) :
    Adds scope (draft >>= Compile.finish scope form path members)
      (inner ++ [⟨position, path, .object members⟩]) fun ids result => result.toList = ids := by
  intro b herrors
  obtain ⟨hb, -, hmade⟩ := hmakes b herrors
  obtain ⟨id, hid, -⟩ := hmade _ (extends_refl _)
  have hrun : (draft >>= Compile.finish scope form path members).run b =
      (Compile.finish scope form path members (draft.run b).1).run (draft.run b).2 := rfl
  rw [hrun] at herrors hid hmade ⊢
  -- Without errors at the end there are none after the draft, so that `hdraft` says what it added.
  obtain ⟨hmid, -, -⟩ := makes_finish form path (draft.run b).1 (draft.run b).2 herrors
  obtain ⟨-, added, ids, hnodes, hlays, hids⟩ := hdraft b hmid
  obtain ⟨node, hready, rfl, hpushed⟩ := finish_pushes hid
  have hsize : (draft.run b).2.nodes.size = b.nodes.size + added.length := by simp [hnodes]
  have hall : (draft.run b).2.nodes.push node = b.nodes ++ (added ++ [node]).toArray := by
    rw [hnodes, ← List.append_toArray, ← Array.append_assoc]
    rfl
  rw [hready] at hids
  rw [hpushed, hall] at hmade
  refine ⟨hb, added ++ [node], [b.nodes.size + added.length], ?_, ?_, ?_⟩
  · rw [hpushed, hall]
  · refine lays_close hlays hids fun nodes hkept => ?_
    obtain ⟨other, hother, hstands⟩ := hmade nodes hkept
    rw [hid] at hother
    rwa [← hsize, Option.some.inj hother]
  · rw [hid, hsize]
    rfl

lemma adds_object (h : AddBelow scope members) (position : Position) (path : Path) :
    AddsSchema scope position path (.object members) := by
  have hmakes := schema_makes scope (.object members) position path
  cases hkeys : KeyGroups.ofKeys (Members.keys members) scope.options.declared with
  | ambiguous keys =>
    intro b herrors
    obtain ⟨-, -, hmade⟩ := hmakes b herrors
    obtain ⟨id, hid, -⟩ := hmade _ (extends_refl _)
    rw [schema_object, hkeys] at hid
    cases hid
  | ofForm keys =>
    let draft : Build Draft := do
      Build.report path
        (Compile.placeFaults position keys members ++ Compile.commonFaults keys members)
      formDraft scope position path members keys.form
    have hdraft : Adds scope draft ((formSites path members keys.form).flatMap sites)
        fun ids draft => draftChildren draft = ids :=
      adds_after (adds_report _ _) fun _ =>
        adds_weaken (adds_formDraft h position path keys.form) fun _ _ hids _ => hids
    have hschema : Compile.schema scope position path (.object members) =
        draft >>= Compile.finish scope keys.form path members := by
      rw [schema_object, hkeys]
      rfl
    rw [AddsSchema, sites_eq, below_object (form?_of_ofKeys hkeys), hschema]
    rw [hschema] at hmakes
    exact adds_finish hdraft hmakes

end Levels

theorem schema_adds (scope : Scope) (value : Json) : ∀ position path,
    AddsSchema scope position path value := by
  induction value using value_induction with
  | step value ih =>
    intro position path
    by_cases ho : ∃ members, value = .object members
    · obtain ⟨members, rfl⟩ := ho
      exact adds_object ih position path
    · -- A value that is no schema object has no node, so it does not come to an end without errors.
      intro b herrors
      obtain ⟨-, -, hmade⟩ := schema_makes scope value position path b herrors
      obtain ⟨id, hid, -⟩ := hmade _ (extends_refl _)
      rw [schema_notObject fun members he => ho ⟨members, he⟩] at hid
      cases hid

lemma quiet_forgetReference : Quiet Build.forgetReference :=
  fun _ => rfl

lemma quiet_takeReference : Quiet Build.takeReference :=
  fun _ => rfl

lemma adds_definition (scope : Scope) (name : String) (value : Json) :
    Adds scope (Compile.definition scope name value)
      (sites ⟨.definition, ["definitions", name], value⟩) fun ids made => made.1.toList = ids := by
  refine adds_after (adds_quiet quiet_forgetReference makes_forgetReference) fun _ => ?_
  refine adds_before (schema_adds scope value .definition ["definitions", name]) fun id => ?_
  refine adds_map (adds_quiet quiet_takeReference makes_takeReference) fun others _ hothers => ?_
  exact ⟨hothers.1, fun ids hids _ => hids⟩

def filled (slots : List (Option NodeId)) : List NodeId :=
  slots.filterMap id

lemma adds_definitionBodies (scope : Scope) (entries : Members) :
    Adds scope (Compile.definitionBodies scope entries)
      ((entrySites .definition ["definitions"] (some (.object entries))).flatMap sites)
      fun ids made => filled made.1 = ids := by
  induction entries with
  | nil => exact adds_pure rfl
  | cons entry rest ih =>
    obtain ⟨name, value⟩ := entry
    refine adds_bind (adds_definition scope name value) fun made => ?_
    refine adds_map ih fun others bodies hothers ids hids => ?_
    rw [← hothers, ← hids]
    cases made.1 <;> rfl

lemma adds_definitions (options : Options) {document value : Json}
    (h : Compile.definitions? document = some value) :
    Adds (scopeOf options document) (Compile.definitions options value)
      ((entrySites .definition ["definitions"] (some value)).flatMap sites)
      fun ids slots => filled slots = ids := by
  cases value with
  | object entries =>
    rw [scopeOf_eq h]
    refine adds_before (adds_definitionBodies _ entries) fun made => ?_
    exact adds_map (adds_report _ _) fun others _ hothers => ⟨hothers.1, fun ids hids => hids⟩
  | _ => exact adds_map (adds_report _ _) fun ids _ hids => hids.1.symm

lemma adds_document (options : Options) (document : Json) :
    Adds (scopeOf options document) (Compile.document options document) (documentSites document)
      fun ids made => filled made.1 ++ made.2.toList = ids := by
  have hroot : ∀ slots : List (Option NodeId),
      Adds (scopeOf options document)
        (Compile.schema (scopeOf options document) .root [] document >>= fun id => pure (slots, id))
        (sites ⟨.root, [], document⟩) fun others made =>
          ∀ ids, filled slots = ids → filled made.1 ++ made.2.toList = ids ++ others := by
    refine fun slots => adds_map (schema_adds _ document .root []) fun others id hid ids hids => ?_
    rw [hid, hids]
  unfold Compile.document documentSites
  cases h : Compile.definitions? document with
  | none => exact adds_bind (adds_pure rfl) hroot
  | some value => exact adds_bind (adds_definitions options h) hroot

end JsonTypeDefinition.Proofs
