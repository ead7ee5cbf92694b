import JsonTypeDefinition.Proofs.CoreErrors
import JsonTypeDefinition.Proofs.Entries
import Mathlib.Data.List.Forall2

/-!
# Instance errors under extensions

A document with extensions and the plain document compile to validators whose nodes differ in their
supplements only. The walks of a value through the two enter the same places side by side, and what
the first finds there without the errors of extensions is what the second finds.
-/

namespace JsonTypeDefinition.Proofs

def isCoreError (error : InstanceError) : Bool :=
  !isExtensionCode error.violation.code

/-- Shapes that differ in no more than the nodes they lead to, which `pairs` relates. -/
inductive SameShape (pairs : NodeId → NodeId → Prop) (validator plain : Validator) :
    Shape → Shape → Prop where
  | empty : SameShape pairs validator plain .empty .empty
  | type (type : Primitive) : SameShape pairs validator plain (.type type) (.type type)
  | enum (variants : List String) :
      SameShape pairs validator plain (.enum variants) (.enum variants)
  | elements {sub other : NodeId} (hsub : pairs sub other) :
      SameShape pairs validator plain (.elements sub) (.elements other)
  | properties {required : List String} {subs others : List (String × NodeId)}
      {additional hasRequiredKey : Bool} {tag : Option String}
      (hsubs : ∀ key, Option.Rel pairs (subs.lookup key) (others.lookup key)) :
      SameShape pairs validator plain
        (.properties ⟨required, subs, additional, hasRequiredKey, tag⟩)
        (.properties ⟨required, others, additional, hasRequiredKey, tag⟩)
  | values {sub other : NodeId} (hsub : pairs sub other) :
      SameShape pairs validator plain (.values sub) (.values other)
  | discriminator {tag : String} {mapping others : List (String × NodeId)}
      (hmapping : ∀ key, Option.Rel pairs (mapping.lookup key) (others.lookup key)) :
      SameShape pairs validator plain (.discriminator tag mapping) (.discriminator tag others)
  | ref {index : Nat}
      (hindex : Option.Rel pairs validator.definitions[index]? plain.definitions[index]?) :
      SameShape pairs validator plain (.ref index) (.ref index)

/-- A node with supplements of an extension's own, and the same node without supplements. -/
inductive Twin (pairs : NodeId → NodeId → Prop) (validator plain : Validator) :
    Node → Node → Prop where
  | intro {path : Path} {nullable : Bool} {supplements : List Supplement} {shape other : Shape}
      (hown : ∀ supplement ∈ supplements, IsOwn supplement)
      (hshape : SameShape pairs validator plain shape other) :
      Twin pairs validator plain ⟨path, nullable, supplements, shape⟩ ⟨path, nullable, [], other⟩

/-- The nodes of two validators, as far as walks get to them, are twins. -/
structure Mirrors (pairs : NodeId → NodeId → Prop) (validator plain : Validator) : Prop where
  root : pairs validator.root plain.root
  size : plain.definitions.size = validator.definitions.size
  nodes : ∀ id other, pairs id other → Option.Rel (Twin pairs validator plain)
    validator.nodes[id]? plain.nodes[other]?

structure Beside (pairs : NodeId → NodeId → Prop) (entry other : Entry) : Prop where
  ids : pairs entry.id other.id
  place : other.place = entry.place
  value : other.value = entry.value

section Walks

variable {pairs : NodeId → NodeId → Prop} {validator plain : Validator} {node twin : Node}
  {entry other : Entry}

lemma rel_isNone {a b : Option NodeId} (h : Option.Rel pairs a b) : b.isNone = a.isNone := by
  cases h <;> rfl

lemma rel_isSome {a b : Option NodeId} (h : Option.Rel pairs a b) : b.isSome = a.isSome := by
  cases h <;> rfl

lemma ownErrors_twin (h : Twin pairs validator plain node twin) (place : Path) (value : Json) :
    ownErrors twin place value = ownErrors node place value := by
  cases h with
  | intro _ hshape =>
    cases hshape with
    | @properties required subs others _ _ _ hsubs =>
      have hnone : ∀ key, (others.lookup key).isNone = (subs.lookup key).isNone :=
        fun key => rel_isNone (hsubs key)
      simp only [ownErrors, hnone]
    | @discriminator tag mapping others hmapping =>
      have hsome : ∀ key, (others.lookup key).isSome = (mapping.lookup key).isSome :=
        fun key => rel_isSome (hmapping key)
      simp only [ownErrors, hsome]
      rfl
    | _ => rfl

structure LegBeside (pairs : NodeId → NodeId → Prop) (leg other : Leg) : Prop where
  ids : pairs leg.id other.id
  down : other.down = leg.down
  value : other.value = leg.value

lemma optional_beside {found other : Option NodeId} (h : Option.Rel pairs found other)
    (opens : Bool) (down : Path) (value : Json) :
    List.Forall₂ (LegBeside pairs) (found.toList.map fun sub => ⟨opens, down, sub, value⟩)
      (other.toList.map fun sub => ⟨opens, down, sub, value⟩) := by
  cases h with
  | none => exact .nil
  | some hsub => exact .cons ⟨hsub, rfl, rfl⟩ .nil

lemma selected?_beside {mapping others : List (String × NodeId)}
    (h : ∀ key, Option.Rel pairs (mapping.lookup key) (others.lookup key)) (tag : String)
    (value : Json) : Option.Rel pairs (selected? tag mapping value) (selected? tag others value) := by
  unfold selected?
  rcases value.object? with _ | members
  · exact .none
  · simp only [Option.bind_eq_bind, Option.bind_some, ← Option.bind_assoc]
    rcases (Members.get? members tag).bind Json.string? with _ | key
    · exact .none
    · exact h key

lemma legs_beside (h : Twin pairs validator plain node twin) (value : Json) :
    List.Forall₂ (LegBeside pairs) (legs validator node value) (legs plain twin value) := by
  cases h with
  | intro _ hshape =>
    cases hshape with
    | empty | type | enum => exact .nil
    | elements hsub =>
      simp only [legs, List.forall₂_map_left_iff, List.forall₂_map_right_iff]
      exact List.forall₂_same.mpr fun _ _ => ⟨hsub, rfl, rfl⟩
    | values hsub =>
      simp only [legs, List.forall₂_map_left_iff, List.forall₂_map_right_iff]
      exact List.forall₂_same.mpr fun _ _ => ⟨hsub, rfl, rfl⟩
    | properties hsubs =>
      refine List.rel_flatMap (R := Eq) (List.forall₂_same.mpr fun _ _ => rfl) ?_
      rintro part _ rfl
      exact optional_beside (hsubs part.1) _ _ _
    | discriminator hmapping => exact optional_beside (selected?_beside hmapping _ value) _ _ _
    | ref hindex => exact optional_beside hindex _ _ _

lemma node?_beside (hm : Mirrors pairs validator plain) (h : Beside pairs entry other) :
    Option.Rel (Twin pairs validator plain) (entry.node? validator) (other.node? plain) := by
  have hnodes := hm.nodes entry.id other.id h.ids
  unfold Entry.node?
  rw [h.value]
  generalize validator.nodes[entry.id]? = found at hnodes ⊢
  generalize plain.nodes[other.id]? = twin at hnodes ⊢
  cases hnodes with
  | none => exact .none
  | some htwin =>
    cases htwin with
    | intro hown hshape =>
      simp only [Option.filter_some]
      split
      · exact .some (.intro hown hshape)
      · exact .none

lemma onward_beside (hm : Mirrors pairs validator plain) (h : Beside pairs entry other) :
    List.Forall₂ (Beside pairs) (onward validator entry) (onward plain other) := by
  have hnode := node?_beside hm h
  unfold onward
  generalize entry.node? validator = found at hnode ⊢
  generalize other.node? plain = twin at hnode ⊢
  cases hnode with
  | none => exact .nil
  | some htwin =>
    rw [Option.elim_some, Option.elim_some, h.value]
    refine List.rel_map (fun leg leg' hleg => ?_) (legs_beside htwin entry.value)
    refine ⟨hleg.ids, ?_, hleg.value⟩
    dsimp only [Leg.entry]
    rw [h.place, hleg.down]

lemma entries_beside (hm : Mirrors pairs validator plain) (fuel : Nat) : ∀ {entry other : Entry},
    Beside pairs entry other →
      List.Forall₂ (Beside pairs) (entries validator fuel entry) (entries plain fuel other) := by
  induction fuel with
  | zero => exact fun _ => .nil
  | succ fuel ih =>
    intro entry other h
    exact .cons h (List.rel_flatMap (onward_beside hm h) fun _ _ => ih)

lemma core_own (validator : Validator) (node : Node) (place : Path) (value : Json) :
    (ownErrors node place value).filter isCoreError = ownErrors node place value := by
  refine List.filter_eq_self.mpr fun error he => ?_
  have hviolation : ofExtension error.violation = false := by
    cases ownErrors_cases validator he with
    | form _ _ hcore => exact hcore
    | tag _ _ _ _ _ _ hcore => exact hcore
    | _ => rfl
  rw [isCoreError, isExtensionCode_violation, hviolation]
  rfl

lemma core_supplements {node : Node} (hown : ∀ supplement ∈ node.supplements, IsOwn supplement)
    (place : Path) (value : Json) :
    (supplementErrors node place value).filter isCoreError = [] := by
  refine List.filter_eq_nil_iff.mpr fun error he => ?_
  obtain ⟨supplement, hs, he⟩ := List.mem_flatMap.mp he
  obtain ⟨violation, hviolation, rfl⟩ := List.mem_map.mp he
  rw [isCoreError, isExtensionCode_violation, hown supplement hs value violation hviolation]
  exact Bool.false_ne_true

lemma nodeErrors_twin (h : Twin pairs validator plain node twin) (place : Path) (value : Json) :
    nodeErrors twin place value = (nodeErrors node place value).filter isCoreError := by
  have hbare : supplementErrors twin place value = [] := by
    cases h with
    | intro _ _ => rfl
  have hown : (supplementErrors node place value).filter isCoreError = [] := by
    cases h with
    | intro hown _ => exact core_supplements hown place value
  rw [nodeErrors, nodeErrors, List.filter_append, core_own validator, ownErrors_twin h, hbare]
  split <;> split <;> simp [hown]

lemma entryErrors_beside (hm : Mirrors pairs validator plain) (h : Beside pairs entry other) :
    entryErrors plain other = (entryErrors validator entry).filter isCoreError := by
  have hnode := node?_beside hm h
  unfold entryErrors
  generalize entry.node? validator = found at hnode ⊢
  generalize other.node? plain = twin at hnode ⊢
  cases hnode with
  | none => rfl
  | some htwin =>
    rw [Option.elim_some, Option.elim_some, h.place, h.value]
    exact nodeErrors_twin htwin entry.place entry.value

lemma found_beside (hm : Mirrors pairs validator plain) {found others : List Entry}
    (h : List.Forall₂ (Beside pairs) found others) :
    others.flatMap (entryErrors plain) =
      (found.flatMap (entryErrors validator)).filter isCoreError := by
  induction h with
  | nil => rfl
  | cons hentry _ ih =>
    rw [List.flatMap_cons, List.flatMap_cons, List.filter_append, ih, entryErrors_beside hm hentry]

theorem entered_core (hm : Mirrors pairs validator plain) (value : Json) :
    (entered plain value).flatMap (entryErrors plain) =
      ((entered validator value).flatMap (entryErrors validator)).filter isCoreError := by
  have hfuel : plain.fuelFor value = validator.fuelFor value := by
    rw [Validator.fuelFor, Validator.fuelFor, hm.size]
  unfold entered
  rw [hfuel]
  exact found_beside hm (entries_beside hm _ ⟨hm.root, rfl, rfl⟩)

end Walks

section Documents

variable {options : Options} {document : Json} {validator plain : Validator}

/-- A node stands for a schema, and a node of the plain document for what is left of it. -/
def Paired (options : Options) (document : Json) (validator plain : Validator)
    (id other : NodeId) : Prop :=
  ∃ root position path schema,
    StandsFor (scopeOf options document) validator.nodes position path schema id ∧
      StandsFor (plainScope (scopeOf options document)) plain.nodes position path
        (withoutDeclared options root schema) other

/-- The two validators that a document with extensions and its plain document compile to. -/
structure Counterparts (options : Options) (document : Json) (validator plain : Validator) :
    Prop where
  apart : KeepApart options
  compiled : IsCompiled options document validator
  plainCompiled : IsCompiled {} (withoutDeclared options true document) plain

lemma subs_paired {position : Position} {path : Path} {found : Option Json}
    {subs others : List (String × NodeId)}
    (h : SubsStand (scopeOf options document) validator.nodes position path found subs)
    (ho : SubsStand (plainScope (scopeOf options document)) plain.nodes position path
      (found.map (stripNamed (isDeclared options))) others) (name : String) :
    Option.Rel (Paired options document validator plain) (subs.lookup name)
      (others.lookup name) := by
  have hplain := subsStand_lookup ho name
  rw [entriesIn_stripNamed, get?_stripEntries] at hplain
  rcases subsStand_lookup h name with ⟨hl, hv⟩ | ⟨id, value, hl, hv, hstands⟩
  · rcases hplain with ⟨hother, -⟩ | ⟨other, later, -, hlater, -⟩
    · rw [hl, hother]
      exact .none
    · rw [hv] at hlater
      cases hlater
  · rw [hv] at hplain
    rcases hplain with ⟨-, hnone⟩ | ⟨other, later, hother, hlater, hplainStands⟩
    · cases hnone
    · cases hlater
      rw [hl, hother]
      exact .some ⟨false, position, _, value, hstands, hplainStands⟩

lemma definition_paired (h : Counterparts options document validator plain) {name : String}
    {index : Nat} (hindex : (Compile.definitionNames document).idxOf? name = some index) :
    Option.Rel (Paired options document validator plain) validator.definitions[index]?
      plain.definitions[index]? := by
  obtain ⟨value, id, hv, hid, hstands⟩ := definition_stands h.compiled hindex
  rw [← definitionNames_plain h.apart] at hindex
  obtain ⟨later, other, hlater, hother, hplain⟩ := definition_stands h.plainCompiled hindex
  rw [definitions?_plain h.apart, entriesIn_stripNamed, get?_stripEntries, hv] at hlater
  cases hlater
  rw [scopeOf_plain h.apart] at hplain
  rw [hid, hother]
  exact .some ⟨false, .definition, _, value, hstands, hplain⟩

lemma lookup_paired {pairs : NodeId → NodeId → Prop} {subs others more rest : List (String × NodeId)}
    {key : String} (h : Option.Rel pairs (subs.lookup key) (others.lookup key))
    (hm : Option.Rel pairs (more.lookup key) (rest.lookup key)) :
    Option.Rel pairs ((subs ++ more).lookup key) ((others ++ rest).lookup key) := by
  rw [List.lookup_append, List.lookup_append]
  generalize subs.lookup key = found at h ⊢
  generalize others.lookup key = other at h ⊢
  cases h with
  | none => exact hm
  | some hsub => exact .some hsub

lemma properties_paired (h : Counterparts options document validator plain) {root : Bool}
    {path way : Path} {members : Members} {required optional others more : List (String × NodeId)}
    (hform : form? members = some .properties)
    (hrequired : SubsStand (scopeOf options document) validator.nodes .nested path
      (members.get? "properties") required)
    (hoptional : SubsStand (scopeOf options document) validator.nodes .nested way
      (members.get? "optionalProperties") optional)
    (hothers : SubsStand (plainScope (scopeOf options document)) plain.nodes .nested path
      ((plainMembers options root members).get? "properties") others)
    (hmore : SubsStand (plainScope (scopeOf options document)) plain.nodes .nested way
      ((plainMembers options root members).get? "optionalProperties") more)
    (tag : Option String) :
    SameShape (Paired options document validator plain) validator plain
      (.properties ⟨required.map Prod.fst, required ++ optional, Compile.allowsAdditional members,
        members.has "properties", tag⟩)
      (.properties ⟨others.map Prod.fst, others ++ more,
        Compile.allowsAdditional (plainMembers options root members),
        (plainMembers options root members).has "properties", tag⟩) := by
  rw [get?_content h.apart hform content_properties (by decide)] at hothers
  rw [get?_content h.apart hform content_optional (by decide)] at hmore
  have hnames : others.map Prod.fst = required.map Prod.fst := by
    rw [subs_names hothers, stripContent, entriesIn_stripNamed, keys_stripEntries,
      ← subs_names hrequired]
  have hadditional : Compile.allowsAdditional (plainMembers options root members) =
      Compile.allowsAdditional members := by
    rw [Compile.allowsAdditional, Compile.allowsAdditional, get?_flat h.apart (by decide)]
  rw [hnames, hadditional, has_plain h.apart (by decide)]
  refine .properties fun key => lookup_paired ?_ ?_
  · exact subs_paired hrequired hothers key
  · exact subs_paired hoptional hmore key

lemma shapes_paired (h : Counterparts options document validator plain) {root : Bool}
    {position : Position} {path : Path} {members : Members} {form : Form} {shape other : Shape}
    (hform : form? members = some form)
    (hshape : HasShape (scopeOf options document) validator.nodes position path members form shape)
    (hother : HasShape (plainScope (scopeOf options document)) plain.nodes position path
      (plainMembers options root members) form other) :
    SameShape (Paired options document validator plain) validator plain shape other := by
  have hflat : ∀ key ∈ flatKeys,
      (plainMembers options root members).get? key = members.get? key :=
    fun key => get?_flat h.apart
  cases hshape with
  | empty =>
    cases hother
    exact .empty
  | type hname htype =>
    cases hother with
    | type hother hsame =>
      rw [hflat "type" (by decide), hname] at hother
      cases hother
      rw [htype] at hsame
      cases hsame
      exact .type _
  | enum hvariants =>
    cases hother with
    | enum hother =>
      rw [hflat "enum" (by decide), hvariants] at hother
      cases hother
      exact .enum _
  | elements hvalue hsub =>
    cases hother with
    | elements hother hplain =>
      rw [get?_content h.apart hform content_elements (by decide), hvalue] at hother
      cases hother
      exact .elements ⟨false, .nested, _, _, hsub, hplain⟩
  | properties hrequired hoptional =>
    cases hother with
    | properties hothers hmore =>
      exact properties_paired h hform hrequired hoptional hothers hmore _
  | values hvalue hsub =>
    cases hother with
    | values hother hplain =>
      rw [get?_content h.apart hform content_values (by decide), hvalue] at hother
      cases hother
      exact .values ⟨false, .nested, _, _, hsub, hplain⟩
  | discriminator htag hmapping hsubs =>
    cases hother with
    | discriminator htags hentries hothers =>
      rw [hflat "discriminator" (by decide), htag] at htags
      cases htags
      rw [get?_content h.apart hform content_mapping (by decide), hmapping] at hentries
      cases hentries
      exact .discriminator (subs_paired hsubs hothers)
  | ref hname hindex =>
    cases hother with
    | ref hother hsame =>
      rw [hflat "ref" (by decide), hname] at hother
      cases hother
      cases hindex.symm.trans hsame
      exact .ref (definition_paired h hindex)

lemma paired_twins (h : Counterparts options document validator plain) {id other : NodeId}
    (hpaired : Paired options document validator plain id other) :
    Option.Rel (Twin (Paired options document validator plain) validator plain)
      validator.nodes[id]? plain.nodes[other]? := by
  obtain ⟨root, position, path, schema, hstands, hplain⟩ := hpaired
  cases hstands with
  | @object _ _ members keys shape _ hkeys _ _ hnode hshape =>
    rw [withoutDeclared_object] at hplain
    cases hplain with
    | @object _ _ _ others bare _ hothers _ _ htwin hbare =>
      have hsorted : KeyGroups.ofKeys (Members.keys (plainMembers options root members)) [] =
          .ofForm others := hothers
      rw [ofKeys_plain h.apart] at hsorted
      cases hkeys.symm.trans hsorted
      have hnullable : Compile.isNullable (plainMembers options root members) =
          Compile.isNullable members := by
        rw [Compile.isNullable, Compile.isNullable, get?_flat h.apart (by decide)]
      rw [hnode, htwin, hnullable]
      refine .some (.intro (h.apart.own _ _ _).supplements ?_)
      exact shapes_paired h (form?_of_ofKeys hkeys) hshape hbare

lemma counterparts_mirror (h : Counterparts options document validator plain) :
    Mirrors (Paired options document validator plain) validator plain := by
  refine ⟨?_, ?_, fun id other => paired_twins h⟩
  · have hroot := h.plainCompiled.root
    rw [scopeOf_plain h.apart] at hroot
    exact ⟨true, .root, [], document, h.compiled.root, hroot⟩
  · rw [definitions_size h.compiled, definitions_size h.plainCompiled, definitionNames_plain h.apart]

end Documents

/-- What the extensions of a validator do to the errors of the core in a value: nothing. -/
structure CoreViolationsKept (validator plain : Validator) (value : Json) : Prop where
  /-- Those that are left are, in order, those of the plain validator. -/
  core : (validator.validate value).toList.filter isCoreError = (plain.validate value).toList
  adds : List.Sublist (plain.validate value).toList (validator.validate value).toList

/-- A document that compiles with extensions of the library compiles without them once the checks
are out of its schema objects, and then reports the same of every value but for the errors of
extensions. -/
theorem validate_keeps_core {engine : PatternEngine} {options : Options} {document : Json}
    {validator : Validator}
    (hlibrary : ∀ extension ∈ options.extensions, extension ∈ libraryExtensions engine)
    (h : compile options document = .ok validator) :
    ∃ plain, compile {} (plainDocument options document) = .ok plain ∧
      ∀ value, CoreViolationsKept validator plain value := by
  have hapart := keepApart_library hlibrary
  have hfaultless : documentErrors {} (withoutDeclared options true document) = [] := by
    rw [documentErrors_core hapart, (compile_ok_iff options document).mp ⟨validator, h⟩]
    rfl
  obtain ⟨plain, hplain, hplainCompiled⟩ := compile_faultless hfaultless
  have hcompiled := compiled_stands h
  have hmirror := counterparts_mirror ⟨hapart, hcompiled, hplainCompiled⟩
  rw [plainDocument_eq hlibrary]
  refine ⟨plain, hplain, fun value => ?_⟩
  have hcore : (validator.validate value).toList.filter isCoreError =
      (plain.validate value).toList := by
    rw [validate_entered hcompiled, validate_entered hplainCompiled, entered_core hmirror]
  exact ⟨hcore, hcore ▸ List.filter_sublist⟩

/-- Branches with a date each, with checks on every level. -/
def branchDocument : Json :=
  .object
    [("definitions", .object [("branch", .object
      [("properties", .object
        [("weight", .object
            [("type", .string "int8"), ("x:checks", .object [("minimum", .number (.int 0))])]),
          ("cut", .object [("type", .string "timestamp")])]),
        ("optionalProperties", .object [("branches", .object
          [("elements", .object [("ref", .string "branch")]),
            ("x:checks", .object [("maxElements", .number (.int 1))])])]),
        ("x:checks", .object [("maxProperties", .number (.int 2))])])]),
      ("ref", .string "branch")]

/-- A branch that breaks all checks, with two more that are no branches. -/
def oddBranch : Json :=
  .object
    [("weight", .number (.int (-1))), ("cut", .string "2016-12-31T23:59:60Z"),
      ("branches", .array
        [.object [("weight", .null), ("color", .null)], .bool true])]

/-- Where the errors of the branch are, with their codes. The last four are of the core. -/
def oddBranchErrors : List ((Path × Path) × String) :=
  [((["definitions", "branch"], []), "EXTENSION:X_CHECKS:OUT_OF_BOUND"),
    ((["definitions", "branch", "properties", "weight", "type"], ["weight"]),
      "EXTENSION:X_CHECKS:OUT_OF_BOUND"),
    ((["definitions", "branch", "properties", "cut", "type"], ["cut"]),
      "EXTENSION:DISALLOW_LEAP_SECONDS:TYPE_FORM:LEAP_SECONDS_NOT_ALLOWED_ON_TIMESTAMP"),
    ((["definitions", "branch", "optionalProperties", "branches", "elements"], ["branches"]),
      "EXTENSION:X_CHECKS:OUT_OF_BOUND"),
    ((["definitions", "branch", "properties", "cut"], ["branches", "0"]),
      "PROPERTIES_FORM:MISSING_REQUIRED_PROPERTY"),
    ((["definitions", "branch"], ["branches", "0", "color"]),
      "PROPERTIES_FORM:UNEXPECTED_ADDITIONAL_PROPERTY"),
    ((["definitions", "branch", "properties", "weight", "type"], ["branches", "0", "weight"]),
      "TYPE_FORM:TYPE_MISMATCH"),
    ((["definitions", "branch", "properties"], ["branches", "1"]), "PROPERTIES_FORM:NOT_OBJECT")]

theorem oddBranch_keeps_core :
    ∃ validator plain, compile literalLibrary branchDocument = .ok validator ∧
      compile {} (plainDocument literalLibrary branchDocument) = .ok plain ∧
      CoreViolationsKept validator plain oddBranch ∧
      (validator.validate oddBranch).toList.map (fun error =>
        (location error, error.violation.code)) = oddBranchErrors ∧
      (plain.validate oddBranch).toList.map (fun error =>
        (location error, error.violation.code)) = oddBranchErrors.drop 4 := by
  have hfound : (compile literalLibrary branchDocument).toOption.map
      (fun validator => (validator.validate oddBranch).toList.map fun error =>
        (location error, error.violation.code)) = some oddBranchErrors := by
    decide +kernel
  have hleft : (compile {} (plainDocument literalLibrary branchDocument)).toOption.map
      (fun plain => (plain.validate oddBranch).toList.map fun error =>
        (location error, error.violation.code)) = some (oddBranchErrors.drop 4) := by
    decide +kernel
  obtain ⟨validator, h, hfound⟩ := compiles_with hfound
  obtain ⟨plain, hplain, hkept⟩ := validate_keeps_core library_literal h
  rw [hplain] at hleft
  exact ⟨validator, plain, h, hplain, hkept oddBranch, hfound, Option.some.inj hleft⟩

end JsonTypeDefinition.Proofs
