import JsonTypeDefinition.Proofs.CoreViolations
import JsonTypeDefinition.Proofs.ReorderedErrors

/-!
# Walks and the order of keys

Documents that are equal up to the order of keys compile to validators whose nodes correspond, in
whatever order they stand. The walks of two values that are equal in this way enter corresponding
nodes at the same places, in some order, and find the same there.
-/

namespace JsonTypeDefinition.Proofs

/-- Shapes that differ in no more than the order of names and the nodes they lead to, which `pairs`
relates. -/
inductive AlikeShape (pairs : NodeId → NodeId → Prop) (validator twin : Validator) :
    Shape → Shape → Prop where
  | empty : AlikeShape pairs validator twin .empty .empty
  | type (type : Primitive) : AlikeShape pairs validator twin (.type type) (.type type)
  | enum (variants : List String) :
      AlikeShape pairs validator twin (.enum variants) (.enum variants)
  | elements {sub other : NodeId} (hsub : pairs sub other) :
      AlikeShape pairs validator twin (.elements sub) (.elements other)
  | properties {required more : List String} {subs others : List (String × NodeId)}
      {additional hasRequiredKey : Bool} {tag : Option String} (hrequired : required.Perm more)
      (hsubs : ∀ key, Option.Rel pairs (subs.lookup key) (others.lookup key)) :
      AlikeShape pairs validator twin
        (.properties ⟨required, subs, additional, hasRequiredKey, tag⟩)
        (.properties ⟨more, others, additional, hasRequiredKey, tag⟩)
  | values {sub other : NodeId} (hsub : pairs sub other) :
      AlikeShape pairs validator twin (.values sub) (.values other)
  | discriminator {tag : String} {mapping others : List (String × NodeId)}
      (hmapping : ∀ key, Option.Rel pairs (mapping.lookup key) (others.lookup key)) :
      AlikeShape pairs validator twin (.discriminator tag mapping) (.discriminator tag others)
  | ref {index other : Nat}
      (hindex : Option.Rel pairs validator.definitions[index]? twin.definitions[other]?) :
      AlikeShape pairs validator twin (.ref index) (.ref other)

/-- Nodes with the same supplements, which do not look at the order of keys, and alike shapes. -/
inductive AlikeNode (pairs : NodeId → NodeId → Prop) (validator twin : Validator) :
    Node → Node → Prop where
  | intro {path : Path} {nullable : Bool} {supplements : List Supplement} {shape other : Shape}
      (horderless : ∀ supplement ∈ supplements, Orderless supplement)
      (hshape : AlikeShape pairs validator twin shape other) :
      AlikeNode pairs validator twin ⟨path, nullable, supplements, shape⟩
        ⟨path, nullable, supplements, other⟩

/-- The nodes of two validators, as far as walks get to them, are alike. -/
structure Alike (pairs : NodeId → NodeId → Prop) (validator twin : Validator) : Prop where
  root : pairs validator.root twin.root
  size : twin.definitions.size = validator.definitions.size
  nodes : ∀ id other, pairs id other → Option.Rel (AlikeNode pairs validator twin)
    validator.nodes[id]? twin.nodes[other]?

/-- Entries at the same place, with values that are equal up to the order of keys. -/
structure AlikeEntry (pairs : NodeId → NodeId → Prop) (entry other : Entry) : Prop where
  ids : pairs entry.id other.id
  place : other.place = entry.place
  value : Reordered entry.value other.value

structure AlikeLeg (pairs : NodeId → NodeId → Prop) (leg other : Leg) : Prop where
  ids : pairs leg.id other.id
  down : other.down = leg.down
  value : Reordered leg.value other.value

section Nodes

variable {pairs : NodeId → NodeId → Prop} {validator twin : Validator} {node copy : Node}
  {value other : Json}

lemma supplementPath_alike (h : AlikeNode pairs validator twin node copy) :
    copy.supplementPath = node.supplementPath := by
  cases h with
  | intro _ hshape => cases hshape <;> rfl

lemma violation?_reordered (type : Primitive) (h : Reordered value other) :
    type.violation? other = type.violation? value := by
  rw [violation?_eq, violation?_eq]
  cases h <;> rfl

lemma selected?_alike {mapping others : List (String × NodeId)}
    (h : ∀ key, Option.Rel pairs (mapping.lookup key) (others.lookup key)) (tag : String)
    (hv : Reordered value other) :
    Option.Rel pairs (selected? tag mapping value) (selected? tag others other) := by
  have hsame : selected? tag others other = selected? tag others value := by
    unfold selected?
    cases hv with
    | object hnodup hkeys hvalues =>
      have hname := string_reordered (.object hnodup hkeys hvalues) tag
      simp only [Json.object?, Option.bind_eq_bind, Option.bind_some, ← Option.bind_assoc, hname]
    | _ => rfl
  rw [hsame]
  exact selected?_beside h tag value

lemma ownErrors_discriminator {path : Path} {nullable : Bool} {supplements : List Supplement}
    {tag : String} {mapping more : List (String × NodeId)}
    (h : ∀ key, Option.Rel pairs (mapping.lookup key) (more.lookup key))
    (hv : Reordered value other) (place : Path) :
    ownErrors ⟨path, nullable, supplements, .discriminator tag more⟩ place other =
      ownErrors ⟨path, nullable, supplements, .discriminator tag mapping⟩ place value := by
  cases hv with
  | @object members others hnodup hkeys hvalues =>
    have htag := get?_reordered (.object hnodup hkeys hvalues) tag
    unfold ownErrors
    dsimp only
    generalize Members.get? members tag = found at htag ⊢
    generalize Members.get? others tag = part at htag ⊢
    cases htag with
    | none => rfl
    | some hpart =>
      cases hpart with
      | string s =>
        dsimp only
        rw [rel_isSome (h s)]
      | _ => rfl
  | _ => rfl

lemma ownErrors_alike (h : AlikeNode pairs validator twin node copy) (hv : Reordered value other)
    (place : Path) : (ownErrors node place value).Perm (ownErrors copy place other) := by
  cases h with
  | intro _ hshape =>
    cases hshape with
    | empty | ref => exact .refl _
    | type type =>
      unfold ownErrors
      dsimp only
      rw [violation?_reordered type hv]
    | enum | elements | values => cases hv <;> exact .refl _
    | properties hrequired hsubs =>
      cases hv with
      | @object members others hnodup hkeys hvalues =>
        have hhas : ∀ key, Members.has others key = Members.has members key :=
          has_reordered (.object hnodup hkeys hvalues)
        simp only [ownErrors, hhas, rel_isNone (hsubs _)]
        exact ((hrequired.filter _).map _).append ((hkeys.filter _).map _)
      | _ => exact .refl _
    | discriminator hmapping =>
      rw [ownErrors_discriminator hmapping hv]

lemma runsSupplements_alike (h : AlikeNode pairs validator twin node copy)
    (hv : Reordered value other) : runsSupplements copy other = runsSupplements node value := by
  have hsame := sameOutside_of_reordered hv
  cases h with
  | intro _ hshape =>
    cases hshape with
    | empty | enum | ref => rfl
    | type type => exact congrArg Option.isNone (violation?_reordered type hv)
    | elements => exact hsame.array
    | properties | values => exact hsame.object
    | discriminator hmapping => exact rel_isSome (selected?_alike hmapping _ hv)

lemma supplementErrors_alike (h : AlikeNode pairs validator twin node copy)
    (hv : Reordered value other) (place : Path) :
    supplementErrors copy place other = supplementErrors node place value := by
  rw [supplementErrors, supplementErrors, supplementPath_alike h]
  cases h with
  | intro horderless _ =>
    refine List.flatMap_congr fun supplement hs => ?_
    rw [horderless supplement hs value other hv]

lemma nodeErrors_alike (h : AlikeNode pairs validator twin node copy) (hv : Reordered value other)
    (place : Path) : (nodeErrors node place value).Perm (nodeErrors copy place other) := by
  rw [nodeErrors, nodeErrors, runsSupplements_alike h hv, supplementErrors_alike h hv]
  exact (ownErrors_alike h hv place).append_right _

lemma optional_alike {found sub : Option NodeId} (h : Option.Rel pairs found sub) (opens : Bool)
    (down : Path) (hv : Reordered value other) :
    Matched (AlikeLeg pairs) (found.toList.map fun id => ⟨opens, down, id, value⟩)
      (sub.toList.map fun id => ⟨opens, down, id, other⟩) := by
  cases h with
  | none => exact matched_nil
  | some hids => exact matched_cons ⟨hids, rfl, hv⟩ matched_nil

lemma parts_matched (h : Reordered value other) :
    Matched (fun member part => part.1 = member.1 ∧ Reordered member.2 part.2)
      (value.object?.getD []) (other.object?.getD []) := by
  cases h with
  | object hnodup hkeys hvalues => exact members_matched (.object hnodup hkeys hvalues)
  | _ => exact matched_nil

lemma items_matched (h : Reordered value other) :
    Matched (fun item part => part.2 = item.2 ∧ Reordered item.1 part.1)
      (value.array?.getD []).zipIdx (other.array?.getD []).zipIdx := by
  cases h with
  | @array items others hlength hitems =>
    refine matched_of_forall₂ (List.forall₂_iff_get.mpr ⟨?_, fun i hi hj => ?_⟩)
    · simp [Json.array?, hlength]
    · simp only [Json.array?, Option.getD_some, List.length_zipIdx] at hi hj
      simp only [Json.array?, Option.getD_some, List.get_eq_getElem, List.getElem_zipIdx]
      exact ⟨trivial, hitems i _ _ (List.getElem?_eq_getElem hi) (List.getElem?_eq_getElem hj)⟩
  | _ => exact matched_nil

lemma legs_alike (h : AlikeNode pairs validator twin node copy) (hv : Reordered value other) :
    Matched (AlikeLeg pairs) (legs validator node value) (legs twin copy other) := by
  cases h with
  | intro _ hshape =>
    cases hshape with
    | empty | type | enum => exact matched_nil
    | elements hsub =>
      refine matched_map (items_matched hv) fun item part hpart => ⟨hsub, ?_, hpart.2⟩
      dsimp only
      rw [hpart.1]
    | values hsub =>
      refine matched_map (parts_matched hv) fun member part hpart => ⟨hsub, ?_, hpart.2⟩
      dsimp only
      rw [hpart.1]
    | properties _ hsubs =>
      refine matched_flatMap (parts_matched hv) fun member part hpart => ?_
      dsimp only
      rw [hpart.1]
      exact optional_alike (hsubs member.1) _ _ hpart.2
    | discriminator hmapping => exact optional_alike (selected?_alike hmapping _ hv) _ _ hv
    | ref hindex => exact optional_alike hindex _ _ hv

end Nodes

section Walks

variable {pairs : NodeId → NodeId → Prop} {validator twin : Validator} {entry copy : Entry}

lemma node?_alike (hm : Alike pairs validator twin) (h : AlikeEntry pairs entry copy) :
    Option.Rel (AlikeNode pairs validator twin) (entry.node? validator) (copy.node? twin) := by
  have hnodes := hm.nodes entry.id copy.id h.ids
  have hkind := (sameOutside_of_reordered h.value).kind
  unfold Entry.node?
  generalize validator.nodes[entry.id]? = found at hnodes ⊢
  generalize twin.nodes[copy.id]? = other at hnodes ⊢
  cases hnodes with
  | none => exact .none
  | some hnode =>
    cases hnode with
    | intro horderless hshape =>
      simp only [Option.filter_some, hkind]
      split
      · exact .some (.intro horderless hshape)
      · exact .none

lemma onward_alike (hm : Alike pairs validator twin) (h : AlikeEntry pairs entry copy) :
    Matched (AlikeEntry pairs) (onward validator entry) (onward twin copy) := by
  have hnode := node?_alike hm h
  unfold onward
  generalize entry.node? validator = found at hnode ⊢
  generalize copy.node? twin = other at hnode ⊢
  cases hnode with
  | none => exact matched_nil
  | some hnode =>
    rw [Option.elim_some, Option.elim_some]
    refine matched_map (legs_alike hnode h.value) fun leg way hleg => ⟨hleg.ids, ?_, hleg.value⟩
    dsimp only [Leg.entry]
    rw [h.place, hleg.down]

lemma entries_alike (hm : Alike pairs validator twin) (fuel : Nat) : ∀ {entry copy : Entry},
    AlikeEntry pairs entry copy →
      Matched (AlikeEntry pairs) (entries validator fuel entry) (entries twin fuel copy) := by
  induction fuel with
  | zero => exact fun _ => matched_nil
  | succ fuel ih =>
    intro entry copy h
    exact matched_cons h (matched_flatMap (onward_alike hm h) fun _ _ => ih)

lemma entryErrors_alike (hm : Alike pairs validator twin) (h : AlikeEntry pairs entry copy) :
    (entryErrors validator entry).Perm (entryErrors twin copy) := by
  have hnode := node?_alike hm h
  unfold entryErrors
  generalize entry.node? validator = found at hnode ⊢
  generalize copy.node? twin = other at hnode ⊢
  cases hnode with
  | none => exact .refl _
  | some hnode =>
    rw [Option.elim_some, Option.elim_some, h.place]
    exact nodeErrors_alike hnode h.value entry.place

theorem entered_alike (hm : Alike pairs validator twin) {value other : Json}
    (hv : Reordered value other) :
    ((entered validator value).flatMap (entryErrors validator)).Perm
      ((entered twin other).flatMap (entryErrors twin)) := by
  have hlevels : other.levels = value.levels :=
    Nat.le_antisymm (levels_reordered hv) (levels_reordered (reordered_symm hv))
  have hfuel : twin.fuelFor other = validator.fuelFor value := by
    rw [Validator.fuelFor, Validator.fuelFor, hm.size, hlevels]
  have hentries := entries_alike hm (validator.fuelFor value)
    (⟨hm.root, rfl, hv⟩ : AlikeEntry pairs (rootEntry validator value) (rootEntry twin other))
  unfold entered
  rw [hfuel]
  refine matched_perm (matched_flatMap hentries fun entry copy h => ?_)
  exact matched_of_perm (entryErrors_alike hm h)

end Walks

section Documents

variable {engine : PatternEngine} {options : Options} {document other : Json}
  {validator twin : Validator}

/-- Two nodes stand for schemas at the same place that are equal up to the order of keys. -/
def StandAlike (options : Options) (document other : Json) (validator twin : Validator)
    (id copy : NodeId) : Prop :=
  ∃ position path schema reordered,
    StandsFor (scopeOf options document) validator.nodes position path schema id ∧
      StandsFor (scopeOf options other) twin.nodes position path reordered copy ∧
        Reordered schema reordered

/-- Two documents that are equal up to the order of keys, compiled with extensions of the
library. -/
structure Copies (engine : PatternEngine) (options : Options) (document other : Json)
    (validator twin : Validator) : Prop where
  library : ∀ extension ∈ options.extensions, extension ∈ libraryExtensions engine
  reordered : Reordered document other
  compiled : IsCompiled options document validator
  copied : IsCompiled options other twin

lemma subs_alike {position : Position} {path : Path} {found sub : Option Json}
    {subs copies : List (String × NodeId)} (h : Option.Rel Reordered found sub)
    (hsubs : SubsStand (scopeOf options document) validator.nodes position path found subs)
    (hcopies : SubsStand (scopeOf options other) twin.nodes position path sub copies)
    (name : String) :
    Option.Rel (StandAlike options document other validator twin) (subs.lookup name)
      (copies.lookup name) := by
  have hentry := get?_reordered (entriesIn_reordered h) name
  have hcopy := subsStand_lookup hcopies name
  rcases subsStand_lookup hsubs name with ⟨hl, hv⟩ | ⟨id, value, hl, hv, hstands⟩
  · rw [hv] at hentry
    rcases hcopy with ⟨hother, -⟩ | ⟨copy, reordered, -, hreordered, -⟩
    · rw [hl, hother]
      exact .none
    · rw [hreordered] at hentry
      cases hentry
  · rw [hv] at hentry
    rcases hcopy with ⟨-, hnone⟩ | ⟨copy, reordered, hother, hreordered, hcopied⟩
    · rw [hnone] at hentry
      cases hentry
    · rw [hreordered] at hentry
      cases hentry with
      | some hvalue =>
        rw [hl, hother]
        exact .some ⟨position, _, value, reordered, hstands, hcopied, hvalue⟩

/-- A definition may have another index, but it stands for the same schema. -/
lemma definition_alike (h : Copies engine options document other validator twin) {name : String}
    {index copy : Nat} (hindex : (Compile.definitionNames document).idxOf? name = some index)
    (hcopy : (Compile.definitionNames other).idxOf? name = some copy) :
    Option.Rel (StandAlike options document other validator twin) validator.definitions[index]?
      twin.definitions[copy]? := by
  obtain ⟨value, id, hv, hid, hstands⟩ := definition_stands h.compiled hindex
  obtain ⟨reordered, sub, hr, hsub, hcopied⟩ := definition_stands h.copied hcopy
  have hentries := entriesIn_reordered (definitions?_reordered h.reordered)
  obtain ⟨found, hfound, hvalue⟩ := value_reordered hentries hv
  cases hr.symm.trans hfound
  rw [hid, hsub]
  exact .some ⟨.definition, _, value, reordered, hstands, hcopied, hvalue⟩

lemma filterMap_strings {items others : List Json} (h : Reordered (.array items) (.array others)) :
    others.filterMap Json.string? = items.filterMap Json.string? := by
  have hstrings := strings_reordered h
  have hmap : ∀ list : List Json, list.filterMap Json.string? =
      (list.map Json.string?).filterMap id := fun list => by simp [List.filterMap_map]
  rw [hmap, hmap, hstrings]

lemma shapes_alike (h : Copies engine options document other validator twin) {position : Position}
    {path : Path} {members others : Members}
    (hmembers : Reordered (.object members) (.object others)) {form : Form} {shape copy : Shape}
    (hshape : HasShape (scopeOf options document) validator.nodes position path members form shape)
    (hcopy : HasShape (scopeOf options other) twin.nodes position path others form copy) :
    AlikeShape (StandAlike options document other validator twin) validator twin shape copy := by
  have hsub : ∀ {key : String} {value reordered : Json} {id sub : NodeId} {way : Path},
      members.get? key = some value → others.get? key = some reordered →
      StandsFor (scopeOf options document) validator.nodes .nested way value id →
      StandsFor (scopeOf options other) twin.nodes .nested way reordered sub →
      StandAlike options document other validator twin id sub := by
    intro key value reordered id sub way hv hr hstands hcopied
    obtain ⟨found, hfound, hvalue⟩ := value_reordered hmembers hv
    cases hr.symm.trans hfound
    exact ⟨.nested, way, value, reordered, hstands, hcopied, hvalue⟩
  cases hshape with
  | empty =>
    cases hcopy
    exact .empty
  | type hname htype =>
    cases hcopy with
    | type hname' htype' =>
      cases (get?_string hmembers hname).symm.trans hname'
      cases htype.symm.trans htype'
      exact .type _
  | enum hvariants =>
    cases hcopy with
    | enum hvariants' =>
      obtain ⟨found, hfound, hvalue⟩ := value_reordered hmembers hvariants
      cases hvariants'.symm.trans hfound
      rw [filterMap_strings hvalue]
      exact .enum _
  | elements hv hstands =>
    cases hcopy with
    | elements hr hcopied => exact .elements (hsub hv hr hstands hcopied)
  | values hv hstands =>
    cases hcopy with
    | values hr hcopied => exact .values (hsub hv hr hstands hcopied)
  | properties hrequired hoptional =>
    cases hcopy with
    | properties hrequired' hoptional' =>
      have hentries := get?_reordered hmembers "properties"
      have hnames := (keys_reordered (entriesIn_reordered hentries)).2.2
      rw [← subs_names hrequired, ← subs_names hrequired'] at hnames
      have hadditional : Compile.allowsAdditional others = Compile.allowsAdditional members := by
        refine found_reordered (Option.any fun value => value.bool? = some true) ?_
          (get?_reordered hmembers "additionalProperties")
        intro a b hab
        rw [Option.any_some, Option.any_some, (sameOutside_of_reordered hab).bool]
      rw [hadditional, has_reordered hmembers]
      refine .properties hnames fun key => lookup_paired ?_ ?_
      · exact subs_alike hentries hrequired hrequired' key
      · exact subs_alike (get?_reordered hmembers _) hoptional hoptional' key
  | discriminator htag hmapping hsubs =>
    cases hcopy with
    | discriminator htag' hmapping' hsubs' =>
      cases (get?_string hmembers htag).symm.trans htag'
      have hentries := get?_reordered hmembers "mapping"
      rw [hmapping, hmapping'] at hentries
      exact .discriminator (subs_alike hentries hsubs hsubs')
  | ref hname hindex =>
    cases hcopy with
    | ref hname' hindex' =>
      cases (get?_string hmembers hname).symm.trans hname'
      exact .ref (definition_alike h hindex hindex')

lemma nodes_alike (h : Copies engine options document other validator twin) {id copy : NodeId}
    (hstand : StandAlike options document other validator twin id copy) :
    Option.Rel (AlikeNode (StandAlike options document other validator twin) validator twin)
      validator.nodes[id]? twin.nodes[copy]? := by
  obtain ⟨position, path, schema, reordered, hstands, hcopied, hschema⟩ := hstand
  cases hstands with
  | @object _ _ members keys shape _ hkeys _ _ hnode hshape =>
    cases hcopied with
    | @object _ _ others more bare _ hmore _ _ htwin hbare =>
      cases (ofKeys_reordered hschema hkeys).symm.trans hmore
      have hsame := contribution_reordered h.library hschema keys.form (keys.form.path path)
      have hnullable : Compile.isNullable others = Compile.isNullable members :=
        flag_reordered (get?_reordered hschema) "nullable"
      rw [hnode, htwin, hnullable]
      dsimp only [scopeOf, KeyGroups.sortedFor]
      rw [hsame.supplements]
      exact .some (.intro hsame.orderless (shapes_alike h hschema hshape hbare))

lemma copies_alike (h : Copies engine options document other validator twin) :
    Alike (StandAlike options document other validator twin) validator twin := by
  refine ⟨⟨.root, [], document, other, h.compiled.root, h.copied.root, h.reordered⟩, ?_,
    fun id copy => nodes_alike h⟩
  have hnames := keys_reordered (entriesIn_reordered (definitions?_reordered h.reordered))
  rw [definitions_size h.compiled, definitions_size h.copied, definitionNames_eq,
    definitionNames_eq, hnames.2.2.length_eq]

end Documents

/-- Two documents that compile or fail alike, and find the same errors in values that are equal up
to the order of keys. -/
structure SameVerdicts (options : Options) (document other : Json) : Prop where
  compiles : (∃ validator, compile options document = .ok validator) ↔
    ∃ twin, compile options other = .ok twin
  /-- Each error of the first is one of the second, as often, but the order can be another. -/
  errors : ∀ validator twin, compile options document = .ok validator →
    compile options other = .ok twin → ∀ value reordered, Reordered value reordered →
      (validator.validate value).toList.Perm (twin.validate reordered).toList

/-- With extensions of the library, verdicts do not depend on the order of keys in documents and
values. -/
theorem verdicts_reordered {engine : PatternEngine} {options : Options}
    (hlibrary : ∀ extension ∈ options.extensions, extension ∈ libraryExtensions engine)
    {document other : Json} (h : Reordered document other) :
    SameVerdicts options document other := by
  constructor
  · rw [compile_ok_iff, compile_ok_iff]
    exact documentErrors_reordered hlibrary h
  · intro validator twin hcompile htwin value reordered hv
    have hcompiled := compiled_stands hcompile
    have hcopied := compiled_stands htwin
    have halike := copies_alike ⟨hlibrary, h, hcompiled, hcopied⟩
    rw [validate_entered hcompiled, validate_entered hcopied]
    exact entered_alike halike hv

/-- A shelf holds one book, which is defined behind an alias. -/
def shelfDocument : Json :=
  .object
    [("definitions", .object
      [("alias", .object [("ref", .string "book"), ("nullable", .bool true)]),
        ("book", .object
          [("properties", .object
            [("title", .object
              [("type", .string "string"),
                ("x:checks", .object
                  [("minLength", .number (.int 1)), ("maxLength", .number (.int 9))])])]),
            ("optionalProperties", .object [("read", .object [("type", .string "timestamp")])])])]),
      ("elements", .object [("ref", .string "alias")]),
      ("x:checks", .object [("maxElements", .number (.int 2)), ("uniqueElements", .bool true)])]

/-- The same document with all its keys the other way round. -/
def turnedShelf : Json :=
  .object
    [("x:checks", .object [("uniqueElements", .bool true), ("maxElements", .number (.int 2))]),
      ("elements", .object [("ref", .string "alias")]),
      ("definitions", .object
        [("book", .object
          [("optionalProperties", .object [("read", .object [("type", .string "timestamp")])]),
            ("properties", .object
              [("title", .object
                [("x:checks", .object
                    [("maxLength", .number (.int 9)), ("minLength", .number (.int 1))]),
                  ("type", .string "string")])])]),
          ("alias", .object [("nullable", .bool true), ("ref", .string "book")])])]

def oddBook : Json :=
  .object [("title", .string ""), ("read", .string "2016-12-31T23:59:60Z")]

def turnedBook : Json :=
  .object [("read", .string "2016-12-31T23:59:60Z"), ("title", .string "")]

/-- Two copies of a book are not unique elements however their keys stand, and the faults of each
are found in the order of its keys. -/
theorem turnedShelf_reordered :
    ∃ validator twin, compile literalLibrary shelfDocument = .ok validator ∧
      compile literalLibrary turnedShelf = .ok twin ∧
      Reordered shelfDocument turnedShelf ∧
      SameVerdicts literalLibrary shelfDocument turnedShelf ∧
      (validator.validate (.array [oddBook, turnedBook])).toList.map (·.instancePath) =
        [[], ["0", "title"], ["0", "read"], ["1", "read"], ["1", "title"]] ∧
      (twin.validate (.array [turnedBook, oddBook])).toList.map (·.instancePath) =
        [[], ["0", "read"], ["0", "title"], ["1", "title"], ["1", "read"]] := by
  have hreordered : Reordered shelfDocument turnedShelf := by decide
  have hsame := verdicts_reordered library_literal hreordered
  have hfound : (compile literalLibrary shelfDocument).toOption.map
      (fun validator => (validator.validate (.array [oddBook, turnedBook])).toList.map
        (·.instancePath)) =
          some [[], ["0", "title"], ["0", "read"], ["1", "read"], ["1", "title"]] := by
    decide +kernel
  have hturned : (compile literalLibrary turnedShelf).toOption.map
      (fun twin => (twin.validate (.array [turnedBook, oddBook])).toList.map (·.instancePath)) =
        some [[], ["0", "read"], ["0", "title"], ["1", "title"], ["1", "read"]] := by
    decide +kernel
  obtain ⟨validator, h, hfound⟩ := compiles_with hfound
  obtain ⟨twin, htwin, hturned⟩ := compiles_with hturned
  exact ⟨validator, twin, h, htwin, hreordered, hsame, hfound, hturned⟩

end JsonTypeDefinition.Proofs
