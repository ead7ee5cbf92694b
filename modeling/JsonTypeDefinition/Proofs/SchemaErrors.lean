import JsonTypeDefinition.Proofs.SchemaForms

/-!
# The errors of a schema

A compilation reports the same errors whatever was gathered before it: `errorsOf` lists them, and
`errorsOf_object` says what they are for an object, form by form.
-/

namespace JsonTypeDefinition.Proofs

/-- `build` reports `errors` after those gathered before, and its result is as `answer` says. -/
def Lists {α : Type} (build : Build α) (errors : List SchemaError) (answer : α → Prop) : Prop :=
  ∀ b, (build.run b).2.errors = b.errors ++ errors.toArray ∧ answer (build.run b).1

section Rules

variable {α β : Type}

lemma lists_pure {a : α} {answer : α → Prop} (h : answer a) : Lists (pure a) [] answer := by
  intro b
  exact ⟨Array.append_empty.symm, h⟩

lemma lists_bind {build : Build α} {next : α → Build β} {errors more : List SchemaError}
    {p : α → Prop} {q : β → Prop} (hb : Lists build errors p)
    (hn : ∀ a, p a → Lists (next a) more q) : Lists (build >>= next) (errors ++ more) q := by
  intro b
  obtain ⟨he, ha⟩ := hb b
  obtain ⟨hm, hq⟩ := hn _ ha (build.run b).2
  have hrun : (build >>= next).run b = (next (build.run b).1).run (build.run b).2 := rfl
  rw [hrun]
  refine ⟨?_, hq⟩
  rw [hm, he, Array.append_assoc, List.append_toArray errors more]

lemma lists_map {build : Build α} {errors : List SchemaError} {p : α → Prop} {q : β → Prop}
    {f : α → β} (hb : Lists build errors p) (hf : ∀ a, p a → q (f a)) :
    Lists (build >>= fun a => pure (f a)) errors q := by
  have h := lists_bind hb fun a ha => lists_pure (hf a ha)
  rwa [List.append_nil] at h

lemma lists_report (path : Path) (faults : List SchemaFault) :
    Lists (Build.report path faults) (faults.map (SchemaError.mk path)) fun _ => True :=
  fun _ => ⟨rfl, trivial⟩

lemma lists_add (node : Node) : Lists (Build.add node) [] fun _ => True := by
  intro b
  refine ⟨?_, trivial⟩
  rw [run_add]
  split <;> simp

lemma lists_noteReference (position : Position) (target : String) :
    Lists (Build.noteReference position target) [] fun _ => True := by
  intro b
  refine ⟨?_, trivial⟩
  rw [run_noteReference]
  dsimp only
  split <;> exact Array.append_empty.symm

lemma lists_weaken {build : Build α} {errors : List SchemaError} {p q : α → Prop}
    (h : Lists build errors p) (hpq : ∀ a, p a → q a) : Lists build errors q :=
  fun b => ⟨(h b).1, hpq _ (h b).2⟩

end Rules

def errorsOf (scope : Scope) (position : Position) (path : Path) (value : Json) :
    List SchemaError :=
  ((Compile.schema scope position path value).run {}).2.errors.toList

/-- The errors of schemas by name, each at `path` and its name. -/
def errorsOfEntries (scope : Scope) (position : Position) (path : Path) (entries : Members) :
    List SchemaError :=
  entries.flatMap fun (name, value) => errorsOf scope position (path ++ [name]) value

def errorsOfSub (scope : Scope) (path : Path) : Option Json → List SchemaError
  | none => [⟨path, .notObject .null⟩]
  | some value => errorsOf scope .nested path value

def typeFaults : Json → List SchemaFault
  | .string name => if (Primitive.ofName? name).isNone then [.unknownType name] else []
  | other => [.typeNotString other.kind]

def enumFaults : Json → List SchemaFault
  | .array [] => [.enumEmpty]
  | .array variants =>
    (if variants.any fun variant => variant.string?.isNone then [.enumOfOtherThanStrings]
      else []) ++
      match Compile.repeatedVariants variants with
      | [] => []
      | repeated => [.enumRepeats repeated]
  | other => [.enumNotArray other.kind]

def refFaults (definitions : List String) : Json → List SchemaFault
  | .string name => if name ∈ definitions then [] else [.refUndefined name]
  | other => [.refNotString other.kind]

def sectionFaults (fault : Json.Kind → SchemaFault) : Option Json → List SchemaFault
  | some (.object _) => []
  | some other => [fault other.kind]
  | none => []

def sharedFaults (required optional : List String) : List SchemaFault :=
  match optional.filter required.contains with
  | [] => []
  | keys => [.propertiesOverlap keys]

def mappingFaults : Option Json → List SchemaFault
  | some (.object _) => []
  | some other => [.mappingNotObject other.kind]
  | none => [.mappingMissing]

/-- The errors that come with the form of a schema object. -/
def formErrors (scope : Scope) (path : Path) (members : Members) : Form → List SchemaError
  | .empty => []
  | .type => (typeFaults (Compile.field members "type")).map (SchemaError.mk (path ++ ["type"]))
  | .enum => (enumFaults (Compile.field members "enum")).map (SchemaError.mk (path ++ ["enum"]))
  | .elements => errorsOfSub scope (path ++ ["elements"]) (members.get? "elements")
  | .properties =>
    let required := members.get? "properties"
    let optional := members.get? "optionalProperties"
    errorsOfEntries scope .nested (path ++ ["properties"]) (entriesIn required) ++
      ((sectionFaults .propertiesNotObject required).map
        (SchemaError.mk (path ++ ["properties"])) ++
      (errorsOfEntries scope .nested (path ++ ["optionalProperties"]) (entriesIn optional) ++
      ((sectionFaults .optionalPropertiesNotObject optional ++
        sharedFaults (Members.keys (entriesIn required)) (Members.keys (entriesIn optional))).map
        (SchemaError.mk (path ++ ["optionalProperties"])) ++
      (Compile.additionalFaults members).map (SchemaError.mk (path ++ ["additionalProperties"])))))
  | .values => errorsOfSub scope (path ++ ["values"]) (members.get? "values")
  | .discriminator =>
    (Compile.discriminatorFaults members).map (SchemaError.mk path) ++
      (errorsOfEntries scope (.mapping (Compile.field members "discriminator").string?)
        (path ++ ["mapping"]) (entriesIn (members.get? "mapping")) ++
      (mappingFaults (members.get? "mapping")).map (SchemaError.mk path))
  | .ref =>
    (refFaults scope.definitions (Compile.field members "ref")).map
      (SchemaError.mk (path ++ ["ref"]))

/-- Whether the form of a schema object is beyond use, so that no hook sees the object. -/
def abandons (members : Members) : Form → Bool
  | .enum =>
    match Compile.field members "enum" with
    | .array variants => variants.isEmpty || !(Compile.repeatedVariants variants).isEmpty
    | _ => true
  | .discriminator => ((members.get? "mapping").bind Json.object?).isNone
  | .ref => (Compile.field members "ref").string?.isNone
  | _ => false

def hookErrors (scope : Scope) (path : Path) (members : Members) (form : Form) :
    List SchemaError :=
  if abandons members form then []
  else (scope.options.contribution form members (form.path path)).faults.map
    (SchemaError.mk (form.path path))

def objectErrors (scope : Scope) (position : Position) (path : Path) (members : Members) :
    List SchemaError :=
  match KeyGroups.ofKeys (Members.keys members) scope.options.declared with
  | .ambiguous keys => [⟨path, .ambiguousForm keys⟩]
  | .ofForm keys =>
    (Compile.placeFaults position keys members ++ Compile.commonFaults keys members).map
      (SchemaError.mk path) ++
    (formErrors scope path members keys.form ++ hookErrors scope path members keys.form)

section Levels

variable {scope : Scope} {position : Position} {path : Path} {members : Members}

/-- Whether hooks see the object of a draft. -/
def isSeen : Draft → Bool
  | .abandoned => false
  | _ => true

lemma lists_finish (form : Form) (draft : Draft) (h : isSeen draft = !abandons members form) :
    Lists (Compile.finish scope form path members draft) (hookErrors scope path members form)
      fun _ => True := by
  cases draft with
  | abandoned =>
    have ha : abandons members form = true := by simpa [isSeen] using h
    rw [hookErrors, if_pos ha]
    exact lists_pure trivial
  | faulty =>
    have ha : abandons members form = false := by simpa [isSeen] using h
    rw [hookErrors, ha]
    exact lists_map (lists_report _ _) fun _ _ => trivial
  | ready shape =>
    have ha : abandons members form = false := by simpa [isSeen] using h
    rw [hookErrors, ha, ← List.append_nil (List.map _ _)]
    exact lists_bind (lists_report _ _) fun _ _ => lists_add _

lemma isSeen_ofOption (shape : Option Shape) : isSeen (Draft.ofOption shape) = true := by
  cases shape <;> rfl

lemma lists_typeDraft (path : Path) (members : Members) :
    Lists (Compile.typeDraft path members)
      ((typeFaults (Compile.field members "type")).map (SchemaError.mk path))
      fun draft => isSeen draft = true := by
  unfold Compile.typeDraft typeFaults
  cases Compile.field members "type" with
  | string name =>
    dsimp only
    cases Primitive.ofName? name with
    | none => exact lists_map (lists_report path _) fun _ _ => rfl
    | some type => exact lists_pure rfl
  | _ => exact lists_map (lists_report path _) fun _ _ => rfl

lemma lists_enumDraft (path : Path) (members : Members) :
    Lists (Compile.enumDraft path members)
      ((enumFaults (Compile.field members "enum")).map (SchemaError.mk path))
      fun draft => isSeen draft = !abandons members .enum := by
  unfold Compile.enumDraft enumFaults abandons
  cases Compile.field members "enum" with
  | array variants =>
    cases variants with
    | nil => exact lists_map (lists_report path _) fun _ _ => rfl
    | cons variant rest =>
      dsimp only
      rw [List.map_append]
      refine lists_bind (lists_report path _) fun _ _ => ?_
      cases Compile.repeatedVariants (variant :: rest) with
      | nil => exact lists_pure rfl
      | cons repeated more => exact lists_map (lists_report path _) fun _ _ => rfl
  | _ => exact lists_map (lists_report path _) fun _ _ => rfl

lemma idxOf?_isNone (name : String) (names : List String) :
    (names.idxOf? name).isNone = true ↔ name ∉ names := by
  rw [Option.isNone_iff_eq_none, List.idxOf?_eq_none_iff]

lemma lists_refDraft (scope : Scope) (position : Position) (path : Path) (members : Members) :
    Lists (Compile.refDraft scope position path members)
      ((refFaults scope.definitions (Compile.field members "ref")).map (SchemaError.mk path))
      fun draft => isSeen draft = !abandons members .ref := by
  unfold Compile.refDraft refFaults abandons
  cases Compile.field members "ref" with
  | string name =>
    dsimp only
    have hf : (if name ∈ scope.definitions then [] else [SchemaFault.refUndefined name]) =
        if (scope.definitions.idxOf? name).isNone then [SchemaFault.refUndefined name] else [] := by
      simp only [idxOf?_isNone]
      split_ifs <;> simp_all
    rw [hf, ← List.append_nil (List.map _ _)]
    refine lists_bind (lists_report path _) fun _ _ => ?_
    exact lists_map (lists_noteReference position name) fun _ _ => isSeen_ofOption _
  | _ => exact lists_map (lists_report path _) fun _ _ => rfl

/-- How the section that was compiled answers to the look-up of its schemas. -/
def Answers (found : Option Json) (compiled : Section) : Prop :=
  match found with
  | none => compiled = .absent
  | some (.object entries) =>
    ∃ subs, compiled = .entries subs ∧ subs.map Prod.fst = Members.keys entries
  | some other => compiled = .notObject other.kind

lemma answers_names {found : Option Json} {compiled : Section} (h : Answers found compiled) :
    compiled.names = Members.keys (entriesIn found) := by
  unfold Answers at h
  split at h
  · rw [h]; rfl
  · obtain ⟨subs, rfl, hs⟩ := h
    exact hs
  · rw [h]
    unfold entriesIn
    split <;> simp_all [Section.names, Members.keys]

lemma answers_faults {found : Option Json} {compiled : Section} (h : Answers found compiled)
    (fault : Json.Kind → SchemaFault) : compiled.faults fault = sectionFaults fault found := by
  unfold Answers at h
  split at h
  · rw [h]; rfl
  · obtain ⟨subs, rfl, -⟩ := h
    rfl
  · rw [h]
    unfold sectionFaults
    split <;> simp_all [Section.faults]

lemma answers_overlap {found other : Option Json} {required optional : Section}
    (hr : Answers found required) (ho : Answers other optional) :
    Compile.overlapFaults required optional =
      sharedFaults (Members.keys (entriesIn found)) (Members.keys (entriesIn other)) := by
  rw [Compile.overlapFaults, answers_names hr, answers_names ho]
  rfl

lemma lists_discriminatorDraft {found : Option Json} {mapping : Section}
    (h : Answers found mapping) (path : Path) (tag : Option String) :
    Lists (Compile.discriminatorDraft path tag mapping)
      ((mappingFaults found).map (SchemaError.mk path))
      fun draft => isSeen draft = (found.bind Json.object?).isSome := by
  unfold Answers at h
  split at h
  · rw [h]
    exact lists_map (lists_report path _) fun _ _ => rfl
  · obtain ⟨subs, rfl, -⟩ := h
    exact lists_pure (isSeen_ofOption _)
  · rename_i other hother
    rw [h]
    cases other with
    | object entries => exact absurd rfl (hother entries)
    | _ => exact lists_map (lists_report path _) fun _ _ => rfl

def ListedBelow (scope : Scope) (members : Members) : Prop :=
  ∀ value, sizeOf value < sizeOf (Json.object members) → ∀ position path,
    Lists (Compile.schema scope position path value) (errorsOf scope position path value)
      fun _ => True

lemma lists_schemas {entries : Members}
    (h : ∀ name value, (name, value) ∈ entries → ∀ position path,
      Lists (Compile.schema scope position path value) (errorsOf scope position path value)
        fun _ => True) (position : Position) (path : Path) :
    Lists (Compile.schemas scope position path entries)
      (errorsOfEntries scope position path entries)
      fun subs => subs.map Prod.fst = Members.keys entries := by
  induction entries with
  | nil => exact lists_pure rfl
  | cons entry rest ih =>
    obtain ⟨name, value⟩ := entry
    have ih' := ih fun name value hm => h name value (List.mem_cons_of_mem _ hm)
    refine lists_bind (h name value List.mem_cons_self position (path ++ [name])) fun sub _ => ?_
    refine lists_map ih' fun subs hs => ?_
    rw [List.map_cons, hs]
    rfl

lemma lists_buildSub (h : ListedBelow scope members) (path : Path) (key : String) :
    Lists (buildSub scope path (members.get? key)) (errorsOfSub scope path (members.get? key))
      fun _ => True := by
  cases hf : members.get? key with
  | none => exact lists_map (lists_report path _) fun _ _ => trivial
  | some value => exact h value (sizeOf_member_lt (get?_mem hf)) .nested path

lemma lists_buildSection (h : ListedBelow scope members) (position : Position) (path : Path)
    (key : String) :
    Lists (buildSection scope position path (members.get? key))
      (errorsOfEntries scope position path (entriesIn (members.get? key)))
      (Answers (members.get? key)) := by
  have he : ∀ name value, (name, value) ∈ entriesIn (members.get? key) → ∀ position path,
      Lists (Compile.schema scope position path value) (errorsOf scope position path value)
        fun _ => True := fun name value hm => h value (sizeOf_entry_lt hm)
  cases hf : members.get? key with
  | none => exact lists_pure rfl
  | some found =>
    rw [hf] at he
    cases found with
    | object entries =>
      exact lists_map (lists_schemas he position path) fun subs hk => ⟨subs, rfl, hk⟩
    | _ => exact lists_pure rfl

lemma lists_formDraft (h : ListedBelow scope members) (position : Position) (path : Path)
    (form : Form) :
    Lists (formDraft scope position path members form) (formErrors scope path members form)
      fun draft => isSeen draft = !abandons members form := by
  cases form with
  | empty => exact lists_pure rfl
  | type => exact lists_typeDraft _ members
  | enum => exact lists_enumDraft _ members
  | elements => exact lists_map (lists_buildSub h _ _) fun sub _ => isSeen_ofOption _
  | properties =>
    refine lists_bind (lists_buildSection h _ _ _) fun required hr => ?_
    rw [← answers_faults hr]
    refine lists_bind (lists_report _ _) fun _ _ => ?_
    refine lists_bind (lists_buildSection h _ _ _) fun optional ho => ?_
    rw [← answers_faults ho, ← answers_overlap hr ho]
    refine lists_bind (lists_report _ _) fun _ _ => ?_
    exact lists_map (lists_report _ _) fun _ _ => rfl
  | values => exact lists_map (lists_buildSub h _ _) fun sub _ => isSeen_ofOption _
  | discriminator =>
    refine lists_bind (lists_report _ _) fun _ _ => ?_
    refine lists_bind (lists_buildSection h _ _ _) fun mapping hm => ?_
    refine lists_weaken (lists_discriminatorDraft hm _ _) fun draft hd => ?_
    rw [hd, abandons, Option.not_isNone]
  | ref => exact lists_refDraft scope position _ members

lemma lists_object (h : ListedBelow scope members) (position : Position) (path : Path) :
    Lists (Compile.schema scope position path (.object members))
      (objectErrors scope position path members) fun _ => True := by
  rw [schema_object]
  unfold objectErrors
  cases KeyGroups.ofKeys (Members.keys members) scope.options.declared with
  | ambiguous keys => exact lists_map (lists_report path _) fun _ _ => trivial
  | ofForm keys =>
    refine lists_bind (lists_report path _) fun _ _ => ?_
    exact lists_bind (lists_formDraft h position path keys.form) fun draft hd => lists_finish _ _ hd

end Levels

lemma errorsOf_eq {scope : Scope} {position : Position} {path : Path} {value : Json}
    {errors : List SchemaError} {answer : Option NodeId → Prop}
    (h : Lists (Compile.schema scope position path value) errors answer) :
    errorsOf scope position path value = errors := by
  have hrun := (h {}).1
  rw [errorsOf, hrun]
  simp

lemma lists_notObject {value : Json} (h : ∀ members, value ≠ .object members) (scope : Scope)
    (position : Position) (path : Path) :
    Lists (Compile.schema scope position path value) [⟨path, .notObject value.kind⟩]
      fun _ => True := by
  rw [schema_notObject h]
  exact lists_map (lists_report path _) fun _ _ => trivial

theorem schema_lists (scope : Scope) (value : Json) : ∀ (position : Position) (path : Path),
    Lists (Compile.schema scope position path value) (errorsOf scope position path value)
      fun _ => True := by
  induction value using value_induction with
  | step value ih =>
    intro position path
    by_cases ho : ∃ members, value = .object members
    · obtain ⟨members, rfl⟩ := ho
      have hl := lists_object ih position path
      rw [errorsOf_eq hl]
      exact hl
    · have hl := lists_notObject (fun members he => ho ⟨members, he⟩) scope position path
      rw [errorsOf_eq hl]
      exact hl

lemma errorsOf_notObject {value : Json} (h : ∀ members, value ≠ .object members) (scope : Scope)
    (position : Position) (path : Path) :
    errorsOf scope position path value = [⟨path, .notObject value.kind⟩] :=
  errorsOf_eq (lists_notObject h scope position path)

theorem errorsOf_object (scope : Scope) (position : Position) (path : Path) (members : Members) :
    errorsOf scope position path (.object members) = objectErrors scope position path members :=
  errorsOf_eq (lists_object (fun value _ => schema_lists scope value) position path)

end JsonTypeDefinition.Proofs
