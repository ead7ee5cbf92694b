import JsonTypeDefinition.Proofs.Acceptance
import JsonTypeDefinition.Proofs.ArenaLayout
import JsonTypeDefinition.Proofs.SitePaths
import JsonTypeDefinition.Proofs.WalkTermination

/-!
# The nodes of a compiled document

The nodes of a compiled document are those of its schemas, one for each and in their order. Indices
only point to nodes and definitions that there are, so that a walk never looks for another.
-/

namespace JsonTypeDefinition.Proofs

/-- The schemas of a document, and the paths to them. A mapping is one beside a discriminator:
elsewhere, its key is one that an extension may declare for something else. -/
inductive SchemaAt (document : Json) : Path → Json → Prop where
  | root : SchemaAt document [] document
  | definition {entries : Members} {name : String} {value : Json}
      (hentries : Compile.definitions? document = some (.object entries))
      (hm : entries.get? name = some value) : SchemaAt document ["definitions", name] value
  | sub {path : Path} {members : Members} {key : String} {value : Json}
      (h : SchemaAt document path (.object members)) (hkey : key ∈ ["elements", "values"])
      (hv : members.get? key = some value) : SchemaAt document (path ++ [key]) value
  | property {path : Path} {members entries : Members} {key name : String} {value : Json}
      (h : SchemaAt document path (.object members))
      (hkey : key ∈ ["properties", "optionalProperties"])
      (hentries : members.get? key = some (.object entries)) (hm : entries.get? name = some value) :
      SchemaAt document (path ++ [key] ++ [name]) value
  | mapping {path : Path} {members entries : Members} {tag : Json} {name : String} {value : Json}
      (h : SchemaAt document path (.object members))
      (htag : members.get? "discriminator" = some tag)
      (hentries : members.get? "mapping" = some (.object entries))
      (hm : entries.get? name = some value) :
      SchemaAt document (path ++ ["mapping"] ++ [name]) value

structure NodeOf (options : Options) (document : Json) (validator : Validator) (site : Site)
    (id : Nat) (node : Node) (members : Members) : Prop where
  schema : site.schema = .object members
  path : node.schemaPath = site.path
  leads : resolve document node.schemaPath = some (.object members)
  form : HasForm (Members.keys members) node.shape.form
  stands : StandsFor (scopeOf options document) validator.nodes site.position site.path
    (.object members) id
  below : ∀ child : Nat, child ∈ children node.shape → child < id
  reference : ∀ index, node.shape = .ref index → index < validator.definitions.size
  properties : ∀ shape, node.shape = .properties shape →
    shape.required = Members.keys (entriesIn (members.get? "properties")) ∧
      shape.subs.map Prod.fst =
        shape.required ++ Members.keys (entriesIn (members.get? "optionalProperties")) ∧
      (shape.subs.map Prod.fst).Nodup

structure Layout (options : Options) (document : Json) (validator : Validator) : Prop where
  /-- `documentSites` lists every schema of the document, and each place once. -/
  schemas : ∀ path value, SchemaAt document path value ↔
    ∃ position, ⟨position, path, value⟩ ∈ documentSites document
  places : ((documentSites document).map Site.path).Nodup
  size : validator.nodes.size = (documentSites document).length
  nodes : ∀ (id : Nat) node, validator.nodes[id]? = some node → ∃ site members,
    (documentSites document)[id]? = some site ∧
      NodeOf options document validator site id node members
  /-- The definitions have entries in document order. -/
  definitionCount : validator.definitions.size =
    (entriesIn (Compile.definitions? document)).length
  definitions : ∀ (i : Nat) name value,
    (entriesIn (Compile.definitions? document))[i]? = some (name, value) →
      ∃ id, validator.definitions[i]? = some id ∧
        StandsFor (scopeOf options document) validator.nodes .definition ["definitions", name]
          value id
  rootStands : StandsFor (scopeOf options document) validator.nodes .root [] document validator.root
  rootLast : validator.root + 1 = validator.nodes.size
  /-- Each node is the root, the entry of one definition or named by one node. -/
  once : (validator.root :: (validator.definitions.toList ++ namedBy validator.nodes.toList)).Perm
    (List.range validator.nodes.size)
  /-- No walk looks for a node or a definition that there is not: what might follow makes no
  difference. -/
  inRange : ∀ later : Validator, later.root = validator.root →
    Extends validator.nodes later.nodes →
    (∀ (i : Nat) id, validator.definitions[i]? = some id → later.definitions[i]? = some id) →
      ∀ limits fuel value, later.runWith limits fuel value = validator.runWith limits fuel value

section Compiled

variable {options : Options} {document : Json} {validator : Validator}

lemma filled_of_mapM {slots : List (Option NodeId)} {ids : List NodeId}
    (h : (slots.mapM fun slot => slot) = some ids) : filled slots = ids := by
  induction slots generalizing ids with
  | nil =>
    cases h
    rfl
  | cons slot rest ih =>
    rw [List.mapM_cons] at h
    cases slot with
    | none => cases h
    | some id =>
      have hbind : ((rest.mapM fun slot => slot).bind fun others => some (id :: others)) =
          some ids := h
      obtain ⟨others, hrest, hids⟩ := Option.bind_eq_some_iff.mp hbind
      rw [← Option.some.inj hids, ← ih hrest]
      rfl

lemma compile_walked (h : compile options document = .ok validator) :
    (walked options document).2.errors = #[] ∧
      (walked options document).2.nodes = validator.nodes ∧
      filled (walked options document).1.1 = validator.definitions.toList ∧
      (walked options document).1.2 = some validator.root := by
  unfold walked
  unfold compile at h
  generalize (Compile.document options document).run {} = result at h ⊢
  obtain ⟨⟨slots, root⟩, builder⟩ := result
  dsimp only at h ⊢
  split at h
  · rename_i definitions id hslots
    split_ifs at h with hempty
    cases h
    exact ⟨by simpa using hempty, rfl, by rw [filled_of_mapM hslots], rfl⟩
  · cases h

lemma document_root_last (options : Options) (document : Json) (b : Builder) {id : NodeId}
    (h : ((Compile.document options document).run b).1.2 = some id) :
    id + 1 = ((Compile.document options document).run b).2.nodes.size := by
  have hlast := lastMade_schema (scopeOf options document) .root [] document
  unfold Compile.document at h ⊢
  cases hd : Compile.definitions? document with
  | none =>
    rw [hd] at h
    exact (hlast b id h).2
  | some value =>
    rw [hd] at h
    exact (hlast ((Compile.definitions options value).run b).2 id h).2

lemma compiled_lays (h : compile options document = .ok validator) :
    Lays (scopeOf options document) #[] validator.nodes.toList (documentSites document)
      (validator.definitions.toList ++ [validator.root]) := by
  obtain ⟨herrors, hnodes, hdefinitions, hroot⟩ := compile_walked h
  obtain ⟨-, added, ids, hadded, hlays, hids⟩ := adds_document options document {} herrors
  have hall : validator.nodes = added.toArray := by
    rw [← hnodes, walked, hadded, Array.empty_append]
  rw [← walked, hdefinitions, hroot] at hids
  rw [hall]
  rw [← hids] at hlays
  exact hlays

lemma site_stands (h : compile options document = .ok validator) {i : Nat} {site : Site}
    (hi : (documentSites document)[i]? = some site) :
    StandsFor (scopeOf options document) validator.nodes site.position site.path site.schema i := by
  have hkept : Extends (#[] ++ validator.nodes.toList.toArray) validator.nodes := by
    rw [Array.empty_append]
    exact extends_refl _
  have hstands := (compiled_lays h).stands validator.nodes hkept i site hi
  rwa [Array.size_empty, Nat.zero_add] at hstands

lemma site_form (h : compile options document = .ok validator) {site : Site}
    (hsite : site ∈ documentSites document) : ∃ members keys, site.schema = .object members ∧
      KeyGroups.ofKeys (Members.keys members) options.declared = .ofForm keys := by
  obtain ⟨i, hi⟩ := List.mem_iff_getElem?.mp hsite
  have hstands := site_stands h hi
  obtain ⟨position, path, schema⟩ := site
  cases hstands with
  | object hkeys => exact ⟨_, _, rfl, hkeys⟩

lemma mem_documentSites_of_key (h : compile options document = .ok validator) {position : Position}
    {path : Path} {members : Members}
    (hsite : ⟨position, path, .object members⟩ ∈ documentSites document) (form : Form)
    {key : String} (hkey : Form.ofKey? key = some form) {value : Json}
    (hv : members.get? key = some value) {sub : Site} (hsub : sub ∈ formSites path members form) :
    sub ∈ documentSites document := by
  obtain ⟨other, keys, hother, hkeys⟩ := site_form h hsite
  cases hother
  have hin : key ∈ Members.keys members := List.mem_map_of_mem (get?_mem hv)
  have hform : form = keys.form := (hasForm_of_ofKeys hkeys).1.only key hin form hkey
  refine mem_documentSites_below hsite ?_
  rw [below_object (form?_of_ofKeys hkeys), ← hform]
  exact hsub

lemma mem_entrySites (position : Position) (path : Path) {found : Option Json} {entries : Members}
    {name : String} {value : Json} (hf : found = some (.object entries))
    (hm : entries.get? name = some value) :
    ⟨position, path ++ [name], value⟩ ∈ entrySites position path found := by
  rw [hf]
  exact List.mem_map.mpr ⟨(name, value), get?_mem hm, rfl⟩

lemma site_of_schemaAt (h : compile options document = .ok validator) {path : Path} {value : Json}
    (hat : SchemaAt document path value) :
    ∃ position, ⟨position, path, value⟩ ∈ documentSites document := by
  induction hat with
  | root => exact ⟨.root, List.mem_append_right _ (mem_sites_self _)⟩
  | definition hentries hm =>
    have hentry := mem_entrySites .definition ["definitions"] hentries hm
    exact ⟨_, List.mem_append_left _ (List.mem_flatMap.mpr ⟨_, hentry, mem_sites_self _⟩)⟩
  | sub _ hkey hv ih =>
    obtain ⟨position, hsite⟩ := ih
    simp only [List.mem_cons, List.not_mem_nil, or_false] at hkey
    refine ⟨.nested, ?_⟩
    rcases hkey with rfl | rfl
    · refine mem_documentSites_of_key h hsite .elements (by decide) hv ?_
      rw [formSites, hv]
      exact List.mem_cons_self
    · refine mem_documentSites_of_key h hsite .values (by decide) hv ?_
      rw [formSites, hv]
      exact List.mem_cons_self
  | @property path _ _ key _ _ _ hkey hentries hm ih =>
    obtain ⟨position, hsite⟩ := ih
    simp only [List.mem_cons, List.not_mem_nil, or_false] at hkey
    refine ⟨.nested, mem_documentSites_of_key h hsite .properties ?_ hentries ?_⟩
    · rcases hkey with rfl | rfl <;> decide
    · have hin := mem_entrySites .nested (path ++ [key]) hentries hm
      rcases hkey with rfl | rfl
      · exact List.mem_append_left _ hin
      · exact List.mem_append_right _ hin
  | mapping _ htag hentries hm ih =>
    obtain ⟨position, hsite⟩ := ih
    exact ⟨_, mem_documentSites_of_key h hsite .discriminator (by decide) htag
      (mem_entrySites _ _ hentries hm)⟩

end Compiled

section Places

variable {document : Json} {path : Path} {members : Members}

lemma schemaAt_entrySite {position : Position} {key : String} {site : Site}
    (hleads : Leads document path (.object members))
    (hat : ∀ (entries : Members) name value, members.get? key = some (.object entries) →
      entries.get? name = some value → SchemaAt document (path ++ [key] ++ [name]) value)
    (hsite : site ∈ entrySites position (path ++ [key]) (members.get? key)) :
    SchemaAt document site.path site.schema := by
  obtain ⟨⟨name, value⟩, hm, rfl⟩ := List.mem_map.mp hsite
  have hfound := get?_of_mem (entries_nodup hleads.distinct key) hm
  obtain ⟨entries, hentries, hv⟩ := entriesIn_get? hfound
  exact hat entries name value hentries hv

lemma schemaAt_formSite {form : Form} {site : Site} (hleads : Leads document path (.object members))
    (hat : SchemaAt document path (.object members)) (hform : form? members = some form)
    (hsite : site ∈ formSites path members form) : SchemaAt document site.path site.schema := by
  have hsection : ∀ key ∈ ["properties", "optionalProperties"],
      ∀ (entries : Members) name value, members.get? key = some (.object entries) →
        entries.get? name = some value → SchemaAt document (path ++ [key] ++ [name]) value :=
    fun key hkey _ _ _ => .property hat hkey
  cases form with
  | empty | type | enum | ref => cases hsite
  | elements | values =>
    obtain ⟨value, hv, rfl⟩ := List.mem_map.mp hsite
    exact .sub hat (by simp) (Option.mem_toList.mp hv)
  | properties =>
    rcases List.mem_append.mp hsite with hs | hs
    · exact schemaAt_entrySite hleads (hsection "properties" (by simp)) hs
    · exact schemaAt_entrySite hleads (hsection "optionalProperties" (by simp)) hs
  | discriminator =>
    obtain ⟨keys, hkeys, hdiscriminator⟩ := ofKeys_of_form? hform []
    obtain ⟨key, hkey, hk⟩ := (hasForm_of_ofKeys hkeys).1.some_key (by simp [hdiscriminator])
    have htag : (members.get? "discriminator").isSome := by
      rw [hdiscriminator] at hk
      rw [ofKey?_eq_name hk (by simp)] at hkey
      exact has_iff_mem_keys.mpr hkey
    obtain ⟨tag, htag⟩ := Option.isSome_iff_exists.mp htag
    exact schemaAt_entrySite hleads (fun _ _ _ => .mapping hat htag) hsite

lemma schemaAt_sites {site : Site} (hleads : Leads document site.path site.schema)
    (hat : SchemaAt document site.path site.schema) :
    ∀ inner ∈ sites site, SchemaAt document inner.path inner.schema := by
  induction site using site_induction with
  | step site ih =>
    intro inner hinner
    rw [sites_eq, List.mem_append, List.mem_singleton] at hinner
    rcases hinner with hinner | rfl
    · obtain ⟨sub, hsub, hin⟩ := List.mem_flatMap.mp hinner
      obtain ⟨members, form, hs, hform, hformSite⟩ := mem_below hsub
      have hbelow := leads_below hleads hsub
      rw [hs] at hleads hat
      exact ih sub hsub hbelow (schemaAt_formSite hleads hat hform hformSite) inner hin
    · exact hat

lemma schemaAt_of_site (hd : distinctKeys document = true) {site : Site}
    (hsite : site ∈ documentSites document) : SchemaAt document site.path site.schema := by
  rcases List.mem_append.mp hsite with hs | hs
  · obtain ⟨entry, hentry, hin⟩ := List.mem_flatMap.mp hs
    refine schemaAt_sites (leads_definition hd hentry) ?_ site hin
    obtain ⟨⟨name, value⟩, hm, rfl⟩ := List.mem_map.mp hentry
    obtain ⟨entries, hentries, hv⟩ := entriesIn_get? (get?_of_mem (definitions_nodup hd) hm)
    exact .definition hentries hv
  · exact schemaAt_sites (leads_root hd) .root site hs

end Places

section Compiled

variable {options : Options} {document : Json} {validator : Validator}

lemma reference_inRange (h : compile options document = .ok validator) {position : Position}
    {path : Path} {schema : Json} {id : NodeId} {node : Node}
    (hstands : StandsFor (scopeOf options document) validator.nodes position path schema id)
    (hnode : validator.nodes[id]? = some node) (index : Nat) (hshape : node.shape = .ref index) :
    ∃ sub, validator.definitions[index]? = some sub := by
  cases hstands with
  | @object _ _ members keys shape _ hkeys hplace hcommon hstored hform =>
    rw [hnode] at hstored
    cases hstored
    dsimp only at hshape
    rw [hshape] at hform
    obtain ⟨target, -, hindex, -⟩ := reference?_of_shape hkeys hform
    obtain ⟨value, sub, -, hsub, -⟩ := definition_stands (compiled_stands h) hindex
    exact ⟨sub, hsub⟩

lemma subs_nodup (h : compile options document = .ok validator) (hd : distinctKeys document = true)
    {site : Site} (hsite : site ∈ documentSites document) (members : Members)
    (hs : site.schema = .object members) (hform : form? members = some .properties) :
    (Members.keys (entriesIn (members.get? "properties")) ++
      Members.keys (entriesIn (members.get? "optionalProperties"))).Nodup := by
  have hsilent := nothing_reported (compiled_stands h).faultless
  have hdistinct := (documentSites_lead hd site hsite).distinct
  rw [hs] at hdistinct
  obtain ⟨herrors, -⟩ := form_silent (hsilent.schemas site hsite) hs hform
  simp only [formErrors, List.append_eq_nil_iff, List.map_eq_nil_iff, sharedFaults_eq_nil_iff]
    at herrors
  obtain ⟨-, -, -, ⟨-, hdisjoint⟩, -⟩ := herrors
  exact (entries_nodup hdistinct _).append (entries_nodup hdistinct _) hdisjoint

lemma properties_names {scope : Scope} {nodes : Array Node} {position : Position} {path : Path}
    {members : Members} {form : Form} {shape : PropertiesShape}
    (h : HasShape scope nodes position path members form (.properties shape)) :
    shape.required = Members.keys (entriesIn (members.get? "properties")) ∧
      shape.subs.map Prod.fst =
        shape.required ++ Members.keys (entriesIn (members.get? "optionalProperties")) := by
  cases h with
  | properties hrequired hoptional =>
    rw [← subs_names hrequired, ← subs_names hoptional, List.map_append]
    exact ⟨rfl, rfl⟩

lemma node_of_site (h : compile options document = .ok validator)
    (hd : distinctKeys document = true) {id : Nat} {site : Site} {node : Node}
    (hsite : (documentSites document)[id]? = some site) (hnode : validator.nodes[id]? = some node) :
    ∃ members, NodeOf options document validator site id node members := by
  have hmem : site ∈ documentSites document := List.mem_of_getElem? hsite
  have hleads := documentSites_lead hd site hmem
  have hsubs := subs_nodup h hd hmem
  have hstands := site_stands h hsite
  have hreference := reference_inRange h hstands hnode
  have hbelow := (compiled_lays h).below id node (by rwa [Array.getElem?_toList])
  rw [Array.size_empty, Nat.zero_add] at hbelow
  obtain ⟨position, path, schema⟩ := site
  have hself := hstands
  cases hself with
  | @object _ _ members keys shape _ hkeys hplace hcommon hstored hform =>
    rw [hnode] at hstored
    cases hstored
    have hkept := shape_form hform
    refine ⟨members, rfl, rfl, hleads.resolves, ?_, hstands, hbelow, ?_, ?_⟩
    · dsimp only
      rw [hkept]
      exact (hasForm_of_ofKeys hkeys).1
    · intro index hshape
      obtain ⟨sub, hsub⟩ := hreference index hshape
      exact (Array.getElem?_eq_some_iff.mp hsub).choose
    · intro properties hshape
      dsimp only at hshape
      subst hshape
      obtain ⟨hrequired, hnames⟩ := properties_names hform
      refine ⟨hrequired, hnames, ?_⟩
      rw [hnames, hrequired]
      have hproperties : keys.form = .properties := hkept.symm
      exact hsubs members rfl (by rw [form?_of_ofKeys hkeys, hproperties])

lemma site_of_id (h : compile options document = .ok validator) {id : Nat} {node : Node}
    (hnode : validator.nodes[id]? = some node) :
    ∃ site, (documentSites document)[id]? = some site := by
  have hlt : id < (documentSites document).length := by
    rw [← (compiled_lays h).count, Array.length_toList]
    exact (Array.getElem?_eq_some_iff.mp hnode).choose
  exact ⟨_, List.getElem?_eq_getElem hlt⟩

lemma schemaIn_of_schemaAt {path : Path} {value : Json} (h : SchemaAt document path value) :
    SchemaIn document value := by
  induction h with
  | root => exact .root
  | definition hentries hm => exact .definition hentries hm
  | sub _ hkey hv ih => exact .sub ih hkey hv
  | property _ hkey hentries hm ih =>
    exact .entry ih (List.mem_append_left ["mapping"] hkey) hentries hm
  | mapping _ _ hentries hm ih => exact .entry ih (by simp) hentries hm

lemma standing_of_id (h : compile options document = .ok validator)
    (hd : distinctKeys document = true) {id : Nat} (hid : id < validator.nodes.size) :
    Standing options document validator id := by
  obtain ⟨site, hsite⟩ := site_of_id h (Array.getElem?_eq_getElem hid)
  have hat := schemaAt_of_site hd (List.mem_of_getElem? hsite)
  exact ⟨_, _, _, schemaIn_of_schemaAt hat, site_stands h hsite⟩

lemma node_of_id (h : compile options document = .ok validator)
    (hd : distinctKeys document = true) {id : Nat} {node : Node}
    (hnode : validator.nodes[id]? = some node) :
    ∃ site members, NodeOf options document validator site id node members := by
  obtain ⟨site, hsite⟩ := site_of_id h hnode
  obtain ⟨members, hof⟩ := node_of_site h hd hsite hnode
  exact ⟨site, members, hof⟩

lemma definition_in_order (h : compile options document = .ok validator)
    (hd : distinctKeys document = true) {i : Nat} {name : String} {value : Json}
    (hi : (entriesIn (Compile.definitions? document))[i]? = some (name, value)) :
    ∃ id, validator.definitions[i]? = some id ∧
      StandsFor (scopeOf options document) validator.nodes .definition ["definitions", name]
        value id := by
  obtain ⟨subs, hdefinitions, hsubs⟩ := (compiled_stands h).definitions
  have hnames := subs_names hsubs
  have hnodup := definitions_nodup hd
  have hname : (subs.map Prod.fst)[i]? = some name := by
    rw [hnames, Members.keys, List.getElem?_map, hi]
    rfl
  rw [List.getElem?_map] at hname
  obtain ⟨⟨other, id⟩, hsub, rfl⟩ := Option.map_eq_some_iff.mp hname
  have hlookup : subs.lookup other = some id :=
    lookup_of_mem (hnames ▸ hnodup) (List.mem_of_getElem? hsub)
  have hvalue := get?_of_mem hnodup (List.mem_of_getElem? hi)
  have hid : validator.definitions[i]? = some id := by
    rw [hdefinitions, List.getElem?_toArray, List.getElem?_map, hsub]
    rfl
  -- Names are not repeated, so that the look-ups by name find what stands at the index.
  rcases subsStand_lookup hsubs other with ⟨hnone, -⟩ | ⟨sub, found, hl, hv, hstands⟩
  · rw [hlookup] at hnone
    cases hnone
  · rw [hlookup] at hl
    rw [hvalue] at hv
    cases hl
    cases hv
    exact ⟨id, hid, hstands⟩

lemma named_once (h : compile options document = .ok validator) :
    (validator.root :: (validator.definitions.toList ++ namedBy validator.nodes.toList)).Perm
      (List.range validator.nodes.size) := by
  have honce := (compiled_lays h).once
  rw [List.append_assoc, List.singleton_append, Array.size_empty, Array.length_toList,
    ← List.range_eq_range'] at honce
  exact List.perm_middle.symm.trans honce

section Tables

variable {later : Validator}

lemma legs_extend (h : compile options document = .ok validator)
    (hdefinitions : ∀ (i : Nat) id, validator.definitions[i]? = some id →
      later.definitions[i]? = some id) {id : NodeId} {node : Node}
    (hid : Standing options document validator id) (hnode : validator.nodes[id]? = some node)
    (value : Json) : legs later node value = legs validator node value := by
  unfold legs
  cases hshape : node.shape with
  | ref index =>
    obtain ⟨position, path, schema, -, hstands⟩ := hid
    obtain ⟨sub, hsub⟩ := reference_inRange h hstands hnode index hshape
    dsimp only
    rw [hsub, hdefinitions index sub hsub]
  | _ => rfl

lemma trace_extends (h : compile options document = .ok validator)
    (hnodes : Extends validator.nodes later.nodes)
    (hdefinitions : ∀ (i : Nat) id, validator.definitions[i]? = some id →
      later.definitions[i]? = some id) (fuel : Nat) :
    ∀ places id place value, Standing options document validator id →
      trace later fuel places id place value = trace validator fuel places id place value := by
  induction fuel with
  | zero => exact fun _ _ _ _ _ => rfl
  | succ fuel ih =>
    intro places id place value hid
    obtain ⟨node, hnode⟩ := standing_node hid
    have hlegs : legEvents later fuel places node place value =
        legEvents validator fuel places node place value := by
      rw [legEvents, legEvents, legs_extend h hdefinitions hid hnode]
      refine List.flatMap_congr fun leg hleg => ?_
      obtain ⟨hstanding, -⟩ := leg_moves (compiled_stands h) hid hnode hleg
      exact ih _ _ _ _ hstanding
    rw [trace_node hnode, trace_node (hnodes id node hnode), hlegs]

lemma runWith_extends (h : compile options document = .ok validator)
    (hroot : later.root = validator.root) (hnodes : Extends validator.nodes later.nodes)
    (hdefinitions : ∀ (i : Nat) id, validator.definitions[i]? = some id →
      later.definitions[i]? = some id) (limits : Limits) (fuel : Nat) (value : Json) :
    later.runWith limits fuel value = validator.runWith limits fuel value := by
  have hstanding := root_standing (compiled_stands h)
  rw [runWith_replays, runWith_replays, rootTrace, rootTrace, hroot,
    trace_extends h hnodes hdefinitions fuel [] validator.root [] value hstanding]

end Tables

end Compiled

/-- The nodes of a compiled document lie as its schemas do, however it was compiled. -/
theorem compiled_layout {options : Options} {document : Json} {validator : Validator}
    (hd : distinctKeys document = true) (h : compile options document = .ok validator) :
    Layout options document validator := by
  have hcompiled := compiled_stands h
  have hcount : validator.nodes.size = (documentSites document).length :=
    Array.length_toList.symm.trans (compiled_lays h).count
  refine ⟨fun path value => ⟨site_of_schemaAt h, ?_⟩, documentSites_nodup hd, hcount, ?_, ?_,
    fun i name value => definition_in_order h hd, hcompiled.root, ?_, named_once h,
    fun later => runWith_extends h⟩
  · rintro ⟨position, hsite⟩
    exact schemaAt_of_site hd hsite
  · intro id node hnode
    have hlt : id < (documentSites document).length :=
      hcount ▸ (Array.getElem?_eq_some_iff.mp hnode).choose
    have hsite := List.getElem?_eq_getElem hlt
    obtain ⟨members, hof⟩ := node_of_site h hd hsite hnode
    exact ⟨_, members, hsite, hof⟩
  · rw [definitions_size hcompiled, definitionNames_eq, Members.keys, List.length_map]
  · obtain ⟨-, hnodes, -, hroot⟩ := compile_walked h
    rw [← hnodes]
    exact document_root_last options document {} hroot

/-- With every form: the root, three definitions with a list's items, and two mapping entries with
five schemas below. -/
theorem figuresDocument_layout :
    ∃ validator, compile literalLibrary figuresDocument = .ok validator ∧
      distinctKeys figuresDocument = true ∧
      Layout literalLibrary figuresDocument validator ∧
      validator.nodes.size = 12 := by
  have hd : distinctKeys figuresDocument = true := by decide
  have hsize : (compile literalLibrary figuresDocument).toOption.map
      (fun validator => validator.nodes.size) = some 12 := by
    decide +kernel
  obtain ⟨validator, h, hsize⟩ := compiles_with hsize
  exact ⟨validator, h, hd, compiled_layout hd h, hsize⟩

end JsonTypeDefinition.Proofs
