import JsonTypeDefinition.Proofs.WalkTermination

/-!
# Validation straight from the document

`interpret` checks a value against a schema document as it stands, without nodes: it looks up the
keys of the schema object it is at and follows names to definitions. What a compiled document
reports without limits is what the interpreter reports.
-/

namespace JsonTypeDefinition.Proofs

/-- The form whose key a schema object holds. -/
def formOf (members : Members) : Form :=
  if members.has "type" then .type
  else if members.has "enum" then .enum
  else if members.has "elements" then .elements
  else if members.has "properties" || members.has "optionalProperties" then .properties
  else if members.has "values" then .values
  else if members.has "discriminator" then .discriminator
  else if members.has "ref" then .ref
  else .empty

def isSet (members : Members) (key : String) : Bool :=
  match members.get? key with
  | some (.bool b) => b
  | _ => false

def isOfType (type : Primitive) : Json → Bool
  | .bool _ => type == .boolean
  | .string s => type == .string || (type == .timestamp && Timestamp.isTimestamp s)
  | .number n =>
    match type.range? with
    | some (low, high) => isWhole n.value && low ≤ n.value && n.value ≤ high
    | none => type == .float32 || type == .float64
  | _ => false

def typeViolation (type : Primitive) : Json → Violation
  | .number n =>
    if type.isInteger && !isWhole n.value then .notWhole type else .typeMismatch type .number
  | value => .typeMismatch type value.kind

def typeErrors (P I : Path) (members : Members) (value : Json) : List InstanceError :=
  match ((members.get? "type").bind Json.string?).bind Primitive.ofName? with
  | some type =>
    if isOfType type value then [] else [⟨P ++ ["type"], I, typeViolation type value⟩]
  | none => []

def enumErrors (P I : Path) (members : Members) : Json → List InstanceError
  | .string s =>
    let variants := ((members.get? "enum").bind Json.array?).getD []
    if variants.any fun variant => variant.string? = some s then []
    else [⟨P ++ ["enum"], I, .enumOtherVariant s⟩]
  | value => [⟨P ++ ["enum"], I, .enumNotString value.kind⟩]

/-- The schema of a property under one of the two keys, with its path. -/
def propertyUnder? (P : Path) (members : Members) (under key : String) : Option (Path × Json) :=
  ((entriesIn (members.get? under)).get? key).map fun schema => (P ++ [under, key], schema)

def property? (P : Path) (members : Members) (key : String) : Option (Path × Json) :=
  (propertyUnder? P members "properties" key).or (propertyUnder? P members "optionalProperties" key)

/-- The errors of the keys of an object: the required ones that it misses, in schema order, then
its own that are neither declared nor the tag, unless any may occur. -/
def keyErrors (P I : Path) (tag : Option String) (members parts : Members) : List InstanceError :=
  let required := Members.keys (entriesIn (members.get? "properties"))
  let missing := required.filter fun key => !parts.has key
  let unexpected := (Members.keys parts).filter fun key =>
    !isSet members "additionalProperties" && (property? P members key).isNone && tag != some key
  missing.map (fun key => ⟨P ++ ["properties", key], I, .propertyMissing key⟩) ++
    unexpected.map fun key => ⟨P, I ++ [key], .propertyUnexpected key⟩

/-- The errors of a value at `I` under the schema object at `P`, by its form. `interpret` takes
parts of the value, or all of it, on to other schemas. -/
def interpretForm (definitions : Members)
    (interpret : Option String → Path → Path → Json → Json → Option (List InstanceError))
    (tag : Option String) (P I : Path) (members : Members) (value : Json) :
    Form → Option (List InstanceError)
  | .empty => some []
  | .type => some (typeErrors P I members value)
  | .enum => some (enumErrors P I members value)
  | .elements =>
    match value with
    | .array items => do
      let found ← items.zipIdx.mapM fun (item, i) =>
        interpret none (P ++ ["elements"]) (I ++ [toString i]) (Compile.field members "elements")
          item
      return found.flatten
    | _ => some [⟨P ++ ["elements"], I, .notArray value.kind⟩]
  | .properties =>
    match value with
    | .object parts => do
      let found ← parts.mapM fun (key, part) =>
        match property? P members key with
        | some (path, schema) => interpret none path (I ++ [key]) schema part
        | none => some []
      return keyErrors P I tag members parts ++ found.flatten
    | _ =>
      let key := if members.has "properties" then "properties" else "optionalProperties"
      some [⟨P ++ [key], I, .propertiesNotObject value.kind⟩]
  | .values =>
    match value with
    | .object parts => do
      let found ← parts.mapM fun (key, part) =>
        interpret none (P ++ ["values"]) (I ++ [key]) (Compile.field members "values") part
      return found.flatten
    | _ => some [⟨P ++ ["values"], I, .valuesNotObject value.kind⟩]
  | .discriminator =>
    match members.get? "discriminator", value with
    | some (.string key), .object parts =>
      match Members.get? parts key with
      | none => some [⟨P ++ ["discriminator"], I, .tagMissing key⟩]
      | some (.string s) =>
        match (entriesIn (members.get? "mapping")).get? s with
        | some entry => interpret (some key) (P ++ ["mapping", s]) I entry value
        | none => some [⟨P ++ ["mapping"], I ++ [key], .tagUnmapped s⟩]
      | some other => some [⟨P ++ ["discriminator"], I ++ [key], .tagNotString other.kind⟩]
    | _, _ => some [⟨P ++ ["discriminator"], I, .discriminatorNotObject value.kind⟩]
  | .ref =>
    match members.get? "ref" with
    | some (.string name) =>
      interpret none ["definitions", name] I ((definitions.get? name).getD .null) value
    | _ => some []

/-- The errors of a value at `I` under the schema at `P`, where `tag` is that of the discriminator
around a mapping entry. There is no answer where `fuel` schemas inside one another do not do. -/
def interpret (definitions : Members) :
    Nat → Option String → Path → Path → Json → Json → Option (List InstanceError)
  | 0, _, _, _, _, _ => none
  | fuel + 1, tag, P, I, schema, value =>
    let members := schema.object?.getD []
    if isSet members "nullable" && value.kind = .null then some []
    else interpretForm definitions (interpret definitions fuel) tag P I members value
      (formOf members)

lemma interpret_object (definitions : Members) (fuel : Nat) (tag : Option String) (P I : Path)
    (members : Members) (value : Json) :
    interpret definitions (fuel + 1) tag P I (.object members) value =
      if isSet members "nullable" && value.kind = .null then some []
      else interpretForm definitions (interpret definitions fuel) tag P I members value
        (formOf members) :=
  rfl

/-- The errors that are found in events, unless fuel runs out. -/
def collect : List Event → Option (List InstanceError)
  | [] => some []
  | .found errors :: rest => (collect rest).map (errors ++ ·)
  | .opened _ :: rest => collect rest
  | .exhausted :: _ => none

lemma collect_append (events later : List Event) :
    collect (events ++ later) =
      (collect events).bind fun errors => (collect later).map (errors ++ ·) := by
  induction events with
  | nil => simp [collect]
  | cons event rest ih =>
    rw [List.cons_append]
    cases event with
    | found errors =>
      rw [collect, collect, ih]
      cases collect rest <;> cases collect later <;> simp
    | opened places => exact ih
    | exhausted => rfl

lemma collect_found (errors : List InstanceError) :
    collect (errors.map fun error => .found [error]) = some errors := by
  induction errors with
  | nil => rfl
  | cons error rest ih =>
    rw [List.map_cons, collect, ih]
    rfl

lemma collect_flatMap {α : Type} (items : List α) (eventsOf : α → List Event) :
    collect (items.flatMap eventsOf) =
      (items.mapM fun item => collect (eventsOf item)).map List.flatten := by
  induction items with
  | nil => rfl
  | cons item rest ih =>
    rw [List.flatMap_cons, collect_append, ih, List.mapM_cons]
    cases collect (eventsOf item) with
    | none => rfl
    | some errors => cases rest.mapM fun item => collect (eventsOf item) <;> rfl

lemma collect_parts {α : Type} (own : List InstanceError) {items : List α}
    {answer : α → Option (List InstanceError)} {eventsOf : α → List Event}
    (h : ∀ item, answer item = collect (eventsOf item)) :
    (do
      let found ← items.mapM answer
      return own ++ found.flatten) = (collect (items.flatMap eventsOf)).map (own ++ ·) := by
  rw [collect_flatMap, ← funext h]
  cases items.mapM answer <;> rfl

lemma collect_visit {node : Node} (hnode : node.supplements = []) (places : List Path)
    (place : Path) (value : Json) (later : List Event) :
    collect (visit node places place value ++ later) =
      (collect later).map (ownErrors node place value ++ ·) := by
  have hsupplements : (if runsSupplements node value then supplementEvents node place value
      else []) = [] := by
    rw [supplementEvents, hnode]
    exact ite_self _
  have hopen : collect (openEvents node places place) = some [] := by
    unfold openEvents
    split <;> rfl
  rw [visit, hsupplements, List.nil_append, collect_append, collect_append, collect_found, hopen]
  simp

lemma collect_isSome {events : List Event} (h : .exhausted ∉ events) :
    ∃ found, collect events = some found := by
  induction events with
  | nil => exact ⟨[], rfl⟩
  | cons event rest ih =>
    obtain ⟨found, hfound⟩ := ih fun he => h (List.mem_cons_of_mem _ he)
    cases event with
    | found errors => exact ⟨errors ++ found, by rw [collect, hfound, Option.map_some]⟩
    | opened places => exact ⟨found, hfound⟩
    | exhausted => exact absurd List.mem_cons_self h

lemma last_of_collect {events : List Event} {found : List InstanceError}
    (h : collect events = some found) : .exhausted ∉ events := by
  induction events generalizing found with
  | nil => exact List.not_mem_nil
  | cons event rest ih =>
    cases event with
    | found errors =>
      obtain ⟨later, hlater, -⟩ := Option.map_eq_some_iff.mp h
      simpa using ih hlater
    | opened places => simpa using ih h
    | exhausted => cases h

lemma replay_collect {events : List Event} {found : List InstanceError}
    (h : collect events = some found) (errors : Array InstanceError) :
    replay {} errors events = (.ok (), errors ++ found.toArray) := by
  induction events generalizing errors found with
  | nil =>
    cases h
    simp [replay]
  | cons event rest ih =>
    cases event with
    | found more =>
      obtain ⟨later, hlater, rfl⟩ := Option.map_eq_some_iff.mp h
      change replay {} (errors ++ more.toArray) rest = _
      rw [ih hlater]
      simp
    | opened places => exact ih h errors
    | exhausted => cases h

section Members

variable {members : Members} {form : Form}

lemma formOf_eq (h : HasForm (Members.keys members) form) : formOf members = form := by
  have hkey : ∀ key other, members.has key = true → Form.ofKey? key = some other → other = form :=
    fun key other hk => h.only key (has_iff_mem_keys.mp hk) other
  unfold formOf
  split_ifs with htype henum helements hproperties hvalues hdiscriminator href
  · exact hkey "type" .type htype (by decide)
  · exact hkey "enum" .enum henum (by decide)
  · exact hkey "elements" .elements helements (by decide)
  · rcases Bool.or_eq_true_iff.mp hproperties with hp | hp
    · exact hkey "properties" .properties hp (by decide)
    · exact hkey "optionalProperties" .properties hp (by decide)
  · exact hkey "values" .values hvalues (by decide)
  · exact hkey "discriminator" .discriminator hdiscriminator (by decide)
  · exact hkey "ref" .ref href (by decide)
  · by_contra hne
    obtain ⟨key, hk, ho⟩ := h.some_key fun he => hne he.symm
    have hhas := has_iff_mem_keys.mpr hk
    have hmem := ofKey?_eq_some_iff.mp ho
    cases form <;> simp only [formKeys, List.mem_cons, List.not_mem_nil, or_false] at hmem
    case properties =>
      rcases hmem with rfl | rfl
      · exact hproperties (by rw [hhas, Bool.true_or])
      · exact hproperties (by rw [hhas, Bool.or_true])
    all_goals
      subst hmem
      contradiction

lemma isSet_nullable {keys : FormKeys} (h : Compile.commonFaults keys members = []) :
    Compile.isNullable members = isSet members "nullable" := by
  have hflag := (List.append_eq_nil_iff.mp h).2
  unfold Compile.flagFaults at hflag
  unfold Compile.isNullable isSet
  rcases hn : members.get? "nullable" with _ | value
  · rfl
  · rw [hn] at hflag
    cases value with
    | bool b => rfl
    | _ => cases hflag

lemma isSet_additional (members : Members) :
    Compile.allowsAdditional members = isSet members "additionalProperties" := by
  unfold Compile.allowsAdditional isSet
  rcases members.get? "additionalProperties" with _ | value
  · rfl
  · cases value with
    | bool b => cases b <;> rfl
    | _ => rfl

lemma violation?_number (type : Primitive) (n : Number) :
    type.violation? (.number n) =
      if isOfType type (.number n) then none else some (typeViolation type (.number n)) := by
  unfold Primitive.violation? isOfType typeViolation Primitive.isInteger
  cases hrange : type.range? with
  | some bounds =>
    obtain ⟨low, high⟩ := bounds
    dsimp only [Json.number?, Json.kind, Option.isSome_some]
    by_cases hwhole : isWhole n.value = true
    · by_cases hlow : (low : Rat) ≤ n.value
      · by_cases hhigh : n.value ≤ (high : Rat)
        · simp [hwhole, hlow, hhigh, Rat.not_lt.mpr hlow, Rat.not_lt.mpr hhigh]
        · simp [hwhole, hhigh, Rat.not_le.mp hhigh]
      · simp [hwhole, hlow, Rat.not_le.mp hlow]
    · simp [hwhole]
  | none =>
    cases type with
    | int8 | uint8 | int16 | uint16 | int32 | uint32 => cases hrange
    | _ => rfl

lemma violation?_eq (type : Primitive) (value : Json) :
    type.violation? value =
      if isOfType type value then none else some (typeViolation type value) := by
  cases value with
  | number n => exact violation?_number type n
  | _ => cases type <;> rfl

lemma contains_strings (variants : List Json) (s : String) :
    (variants.filterMap Json.string?).contains s =
      variants.any fun variant => variant.string? = some s := by
  rw [Bool.eq_iff_iff]
  simp

lemma property?_lookup {scope : Scope} {nodes : Array Node} {P : Path}
    {required optional : List (String × NodeId)}
    (hrequired : SubsStand scope nodes .nested (P ++ ["properties"]) (members.get? "properties")
      required)
    (hoptional : SubsStand scope nodes .nested (P ++ ["optionalProperties"])
      (members.get? "optionalProperties") optional) (key : String) :
    ((required ++ optional).lookup key = none ∧ property? P members key = none) ∨
      ∃ id path sub, (required ++ optional).lookup key = some id ∧
        property? P members key = some (path, sub) ∧
          StandsFor scope nodes .nested path sub id := by
  unfold property? propertyUnder?
  rw [List.lookup_append]
  rcases subsStand_lookup hrequired key with ⟨hl, hv⟩ | ⟨id, sub, hl, hv, hstands⟩
  · rw [hl, hv]
    rcases subsStand_lookup hoptional key with ⟨hl, hv⟩ | ⟨id, sub, hl, hv, hstands⟩
    · exact .inl ⟨by rw [hl]; rfl, by rw [hv]; rfl⟩
    · rw [List.append_assoc] at hstands
      exact .inr ⟨id, _, sub, by rw [hl]; rfl, by rw [hv]; rfl, hstands⟩
  · rw [List.append_assoc] at hstands
    exact .inr ⟨id, _, sub, by rw [hl]; rfl, by rw [hv]; rfl, hstands⟩

lemma ownErrors_type {node : Node} {type : Primitive} {name : String}
    (hshape : node.shape = .type type) (hname : members.get? "type" = some (.string name))
    (htype : Primitive.ofName? name = some type) (I : Path) (value : Json) :
    ownErrors node I value = typeErrors node.schemaPath I members value := by
  simp only [ownErrors, hshape, typeErrors, hname, Option.bind_some, Json.string?, htype,
    violation?_eq, Node.formPath]
  split_ifs <;> rfl

lemma ownErrors_enum {node : Node} {variants : List Json}
    (hshape : node.shape = .enum (variants.filterMap Json.string?))
    (hvariants : members.get? "enum" = some (.array variants)) (I : Path) (value : Json) :
    ownErrors node I value = enumErrors node.schemaPath I members value := by
  simp only [ownErrors, hshape, Node.formPath]
  cases value with
  | string s =>
    simp only [enumErrors, hvariants, Option.bind_some, Json.array?, Option.getD_some,
      contains_strings]
    rfl
  | _ => rfl

lemma ownErrors_properties {scope : Scope} {nodes : Array Node} {node : Node}
    {required optional : List (String × NodeId)} {tag : Option String}
    (hshape : node.shape = .properties ⟨required.map Prod.fst, required ++ optional,
      Compile.allowsAdditional members, members.has "properties", tag⟩)
    (hrequired : SubsStand scope nodes .nested (node.schemaPath ++ ["properties"])
      (members.get? "properties") required)
    (hoptional : SubsStand scope nodes .nested (node.schemaPath ++ ["optionalProperties"])
      (members.get? "optionalProperties") optional) (I : Path) (parts : Members) :
    ownErrors node I (.object parts) = keyErrors node.schemaPath I tag members parts := by
  have hdeclared : ∀ key, ((required ++ optional).lookup key).isNone =
      (property? node.schemaPath members key).isNone := by
    intro key
    rcases property?_lookup hrequired hoptional key with ⟨hl, hp⟩ | ⟨id, path, sub, hl, hp, -⟩
    · rw [hl, hp]
      rfl
    · rw [hl, hp]
      rfl
  simp only [ownErrors, hshape, keyErrors, subs_names hrequired, isSet_additional, hdeclared]

end Members

section Levels

variable {document : Json} {validator : Validator} {fuel : Nat}

/-- What the induction assumes of the interpreter with less fuel. -/
def Agrees (document : Json) (validator : Validator) (fuel : Nat) : Prop :=
  ∀ position path schema id,
    StandsFor (scopeOf {} document) validator.nodes position path schema id →
    ∀ places place value,
      interpret (entriesIn (Compile.definitions? document)) fuel position.tag? path place schema
        value = collect (trace validator fuel places id place value)

lemma agrees_properties (h : Agrees document validator fuel) {node : Node} {members : Members}
    {required optional : List (String × NodeId)} {tag : Option String} {path : Path}
    (hpath : node.schemaPath = path)
    (hshape : node.shape = .properties ⟨required.map Prod.fst, required ++ optional,
      Compile.allowsAdditional members, members.has "properties", tag⟩)
    (hrequired : SubsStand (scopeOf {} document) validator.nodes .nested (path ++ ["properties"])
      (members.get? "properties") required)
    (hoptional : SubsStand (scopeOf {} document) validator.nodes .nested
      (path ++ ["optionalProperties"]) (members.get? "optionalProperties") optional)
    (places : List Path) (place : Path) (parts : Members) :
    interpretForm (entriesIn (Compile.definitions? document))
        (interpret (entriesIn (Compile.definitions? document)) fuel) tag path place members
        (.object parts) .properties =
      (collect (legEvents validator fuel places node place (.object parts))).map
        (ownErrors node place (.object parts) ++ ·) := by
  subst hpath
  rw [ownErrors_properties hshape hrequired hoptional]
  simp only [interpretForm, legEvents, legs, hshape, Json.object?, Option.getD_some,
    List.flatMap_assoc]
  apply collect_parts
  intro part
  rw [flatMap_optional]
  rcases property?_lookup hrequired hoptional part.1 with
    ⟨hl, hp⟩ | ⟨sub, path, schema, hl, hp, hsub⟩
  · rw [hl, hp]
    rfl
  · rw [hl, hp]
    exact h .nested path schema sub hsub places (place ++ [part.1]) part.2

lemma agrees_discriminator (h : Agrees document validator fuel) {node : Node}
    {members entries : Members} {tag : String} {subs : List (String × NodeId)} {path : Path}
    (hpath : node.schemaPath = path) (hshape : node.shape = .discriminator tag subs)
    (htag : members.get? "discriminator" = some (.string tag))
    (hmapping : members.get? "mapping" = some (.object entries))
    (hsubs : SubsStand (scopeOf {} document) validator.nodes (.mapping (some tag))
      (path ++ ["mapping"]) (some (.object entries)) subs)
    (outer : Option String) (places : List Path) (place : Path) (parts : Members) :
    interpretForm (entriesIn (Compile.definitions? document))
        (interpret (entriesIn (Compile.definitions? document)) fuel) outer path place members
        (.object parts) .discriminator =
      (collect (legEvents validator fuel places node place (.object parts))).map
        (ownErrors node place (.object parts) ++ ·) := by
  subst hpath
  have hentries : entriesIn (members.get? "mapping") = entries := by
    rw [hmapping]
    rfl
  have hform : node.formPath = node.schemaPath ++ ["discriminator"] := by
    rw [Node.formPath, hshape]
    rfl
  simp only [interpretForm, htag, hentries, legEvents, legs, ownErrors, selected?, hshape, hform,
    Json.object?, Option.bind_eq_bind, Option.bind_some, flatMap_optional, List.append_nil]
  cases Members.get? parts tag with
  | none => rfl
  | some found =>
    cases found with
    | string s =>
      simp only [Json.string?, Option.bind_some]
      rcases subsStand_lookup hsubs s with ⟨hl, hv⟩ | ⟨sub, schema, hl, hv, hsub⟩
      · have hentry : entries.get? s = none := hv
        rw [hl, hentry]
        rfl
      · have hentry : entries.get? s = some schema := hv
        rw [List.append_assoc] at hsub
        rw [hl, hentry]
        have hsame := h (.mapping (some tag)) _ schema sub hsub places place (.object parts)
        exact hsame.trans (Option.map_id' ..).symm
    | _ => rfl

lemma agrees_succ (hcompiled : IsCompiled {} document validator)
    (h : Agrees document validator fuel) : Agrees document validator (fuel + 1) := by
  intro position path schema id hstands places place value
  cases hstands with
  | @object _ _ members keys shape _ hkeys hplace hcommon hnode hshape =>
    have hform := formOf_eq (hasForm_of_ofKeys hkeys).1
    -- The node takes any true value for a flag; without faults there is none but `true`.
    rw [trace_node hnode, interpret_object, hform, ← isSet_nullable hcommon]
    dsimp only
    split
    · rfl
    rw [collect_visit rfl]
    generalize keys.form = form at hshape ⊢
    cases hshape with
    | empty => rfl
    | type hname htype =>
      rw [interpretForm, ownErrors_type rfl hname htype]
      exact congrArg some (List.append_nil _).symm
    | enum hvariants =>
      rw [interpretForm, ownErrors_enum rfl hvariants]
      exact congrArg some (List.append_nil _).symm
    | elements hvalue hsub =>
      cases value with
      | array items =>
        simp only [interpretForm, Compile.field, hvalue, Option.getD_some, legEvents, legs,
          Json.array?, List.flatMap_map]
        exact collect_parts [] fun item => h .nested _ _ _ hsub _ _ _
      | _ => rfl
    | properties hrequired hoptional =>
      cases value with
      | object parts =>
        apply agrees_properties h
        · rfl
        · rfl
        · exact hrequired
        · exact hoptional
      | _ => rfl
    | values hvalue hsub =>
      cases value with
      | object parts =>
        simp only [interpretForm, Compile.field, hvalue, Option.getD_some, legEvents, legs,
          Json.object?, List.flatMap_map]
        exact collect_parts [] fun part => h .nested _ _ _ hsub _ _ _
      | _ => rfl
    | discriminator htag hmapping hsubs =>
      cases value with
      | object parts =>
        apply agrees_discriminator h
        · rfl
        · rfl
        · exact htag
        · exact hmapping
        · exact hsubs
      | _ =>
        simp only [interpretForm, htag]
        rfl
    | ref hname hindex =>
      obtain ⟨later, sub, hv, hsub, hlater⟩ := definition_stands hcompiled hindex
      simp only [interpretForm, hname, hv, Option.getD_some, legEvents, legs, hsub,
        flatMap_optional, List.append_nil]
      have hsame := h .definition _ later sub hlater (place :: places) place value
      exact hsame.trans (Option.map_id' ..).symm

lemma interpret_eq (hcompiled : IsCompiled {} document validator) (fuel : Nat) :
    Agrees document validator fuel := by
  induction fuel with
  | zero => exact fun _ _ _ _ _ _ _ _ => rfl
  | succ fuel ih => exact agrees_succ hcompiled ih

end Levels

/-- What a compiled document reports for a value is what the interpreter finds in the value, with
as much fuel as the definitions take at each level of the value, or more. -/
theorem validate_interprets {document : Json} {validator : Validator}
    (h : compile {} document = .ok validator) (value : Json) {fuel : Nat}
    (hfuel : value.levels * ((Compile.definitionNames document).length + 2) ≤ fuel) :
    interpret (entriesIn (Compile.definitions? document)) fuel none [] [] document value =
      some (validator.validate value).toList := by
  have hcompiled := compiled_stands h
  have hinterpret := interpret_eq hcompiled fuel .root [] document _ hcompiled.root [] [] value
  have hlasts : .exhausted ∉ events validator value := events_last hcompiled
  have hmore : rootTrace validator fuel value = events validator value := by
    apply trace_of_le validator _ hlasts
    rwa [Validator.fuelFor, definitions_size hcompiled]
  obtain ⟨found, hfound⟩ := collect_isSome hlasts
  have hvalidate : validator.validate value = found.toArray := by
    rw [Validator.validate, run_replays, replay_collect hfound, Array.empty_append]
  rw [hvalidate, ← hfound, ← hmore]
  exact hinterpret

/-- Trees whose leaves have a name. -/
def treeDocument : Json :=
  .object
    [("definitions", .object [("tree", .object
      [("discriminator", .string "kind"),
        ("mapping", .object
          [("leaf", .object [("properties", .object
            [("name", .object [("type", .string "string"), ("nullable", .bool true)])])]),
            ("fork", .object [("properties", .object
              [("parts", .object [("elements", .object [("ref", .string "tree")])])])])])])]),
      ("ref", .string "tree")]

/-- A fork with a leaf whose name is `name` and a part that is no tree. -/
def forkWithLeaf (name : Json) : Json :=
  .object [("kind", .string "fork"), ("parts", .array
    [.object [("kind", .string "leaf"), ("name", name), ("color", .null)], .bool true])]

theorem treeDocument_interprets :
    ∃ validator, compile {} treeDocument = .ok validator ∧
      interpret (entriesIn (Compile.definitions? treeDocument)) 12 none [] [] treeDocument
        (forkWithLeaf (.bool false)) =
          some (validator.validate (forkWithLeaf (.bool false))).toList ∧
      (validator.validate (forkWithLeaf (.bool false))).toList =
        [⟨["definitions", "tree", "mapping", "leaf"], ["parts", "0", "color"],
            .propertyUnexpected "color"⟩,
          ⟨["definitions", "tree", "mapping", "leaf", "properties", "name", "type"],
            ["parts", "0", "name"], .typeMismatch .string .boolean⟩,
          ⟨["definitions", "tree", "discriminator"], ["parts", "1"],
            .discriminatorNotObject .boolean⟩] := by
  have hok : (compile {} treeDocument).isOk := by decide +kernel
  obtain ⟨validator, h⟩ := compiles_of_isOk hok
  have hfuel : (forkWithLeaf (.bool false)).levels *
      ((Compile.definitionNames treeDocument).length + 2) ≤ 12 := by
    decide
  have hinterpret := validate_interprets h (forkWithLeaf (.bool false)) hfuel
  exact ⟨validator, h, hinterpret, Option.some.inj (hinterpret.symm.trans rfl)⟩

end JsonTypeDefinition.Proofs
