import JsonTypeDefinition.Proofs.Acceptance
import JsonTypeDefinition.Proofs.NodeOrErrors
import JsonTypeDefinition.Proofs.ReorderedChecks

/-!
# Documents with their keys in another order

What is wrong with a schema can come in another order if its keys do, and some of it can read
differently. Whether there is anything wrong does not depend on the order of keys.
-/

open Relation

namespace JsonTypeDefinition.Proofs

section Keys

variable {members others : Members} {position : Position} {form : Form} {declared : List String}

lemma contains_reordered (h : Reordered (.object members) (.object others)) (key : String) :
    (Members.keys others).contains key = (Members.keys members).contains key := by
  rw [Bool.eq_iff_iff, List.contains_iff_mem, List.contains_iff_mem]
  exact (keys_reordered h).2.2.mem_iff.symm

lemma hasForm_reordered (h : Reordered (.object members) (.object others))
    (hform : HasForm (Members.keys members) form) : HasForm (Members.keys others) form := by
  have hmem : ∀ key, key ∈ Members.keys others ↔ key ∈ Members.keys members :=
    fun key => (keys_reordered h).2.2.mem_iff.symm
  refine ⟨fun key hk => hform.only key ((hmem key).mp hk), fun hne => ?_⟩
  obtain ⟨key, hk, hkey⟩ := hform.some_key hne
  exact ⟨key, (hmem key).mpr hk, hkey⟩

lemma ofKeys_reordered (h : Reordered (.object members) (.object others)) {keys : FormKeys}
    (hkeys : KeyGroups.ofKeys (Members.keys members) declared = .ofForm keys) :
    KeyGroups.ofKeys (Members.keys others) declared =
      .ofForm (KeyGroups.sortedFor keys.form (Members.keys others) declared) :=
  ofKeys_of_hasForm (keys_reordered h).2.1 (hasForm_reordered h (hasForm_of_ofKeys hkeys).1)
    declared

lemma declaresProperty_reordered (h : Reordered (.object members) (.object others))
    (name : String) :
    Compile.declaresProperty others name = Compile.declaresProperty members name := by
  unfold Compile.declaresProperty
  refine congrArg _ (funext fun key => ?_)
  have hkey := get?_reordered h key
  generalize members.get? key = first at hkey ⊢
  generalize others.get? key = second at hkey ⊢
  cases hkey with
  | none => rfl
  | some hvalue =>
    cases hvalue with
    | object hnodup hkeys hvalues => exact has_reordered (.object hnodup hkeys hvalues) name
    | _ => rfl

lemma placeFaults_reordered (h : Reordered (.object members) (.object others)) :
    Compile.placeFaults position (KeyGroups.sortedFor form (Members.keys others) declared) others =
      Compile.placeFaults position (KeyGroups.sortedFor form (Members.keys members) declared)
        members := by
  unfold Compile.placeFaults KeyGroups.sortedFor
  simp only [contains_reordered h, declaresProperty_reordered h]

lemma flagFaults_reordered (h : Reordered (.object members) (.object others)) (key : String)
    (fault : Json.Kind → SchemaFault) :
    Compile.flagFaults others key fault = Compile.flagFaults members key fault := by
  have hkey := get?_reordered h key
  unfold Compile.flagFaults
  generalize members.get? key = first at hkey ⊢
  generalize others.get? key = second at hkey ⊢
  cases hkey with
  | none => rfl
  | some hvalue => cases hvalue <;> rfl

lemma commonFaults_reordered (h : Reordered (.object members) (.object others))
    (hsilent : Compile.commonFaults (KeyGroups.sortedFor form (Members.keys members) declared)
      members = []) :
    Compile.commonFaults (KeyGroups.sortedFor form (Members.keys others) declared) others = [] := by
  rw [Compile.commonFaults, List.append_eq_nil_iff] at hsilent ⊢
  refine ⟨?_, by rw [flagFaults_reordered h, hsilent.2]⟩
  -- No key is unrecognized; otherwise the faults would name the keys in different orders.
  have hnone := hsilent.1
  simp only [KeyGroups.sortedFor, ite_eq_left_iff, imp_iff_not (List.cons_ne_nil _ _), not_not,
    List.isEmpty_iff, List.filter_eq_nil_iff] at hnone ⊢
  exact fun key hk => hnone key ((keys_reordered h).2.2.mem_iff.mpr hk)

lemma field_reordered (h : Reordered (.object members) (.object others)) (key : String) :
    Reordered (Compile.field members key) (Compile.field others key) := by
  have hkey := get?_reordered h key
  unfold Compile.field
  generalize members.get? key = first at hkey ⊢
  generalize others.get? key = second at hkey ⊢
  cases hkey with
  | none => exact .null
  | some hvalue => exact hvalue

end Keys

section Values

variable {a b : Json} {found other : Option Json}

lemma typeFaults_reordered (h : Reordered a b) : typeFaults b = typeFaults a := by
  cases h <;> rfl

lemma strings_reordered {items others : List Json} (h : Reordered (.array items) (.array others)) :
    others.map Json.string? = items.map Json.string? := by
  cases h with
  | array hlength hitems =>
    refine List.ext_getElem (by simpa using hlength) fun i hi hj => ?_
    rw [List.length_map] at hi hj
    have hitem := hitems i _ _ (List.getElem?_eq_getElem hj) (List.getElem?_eq_getElem hi)
    rw [List.getElem_map, List.getElem_map, (sameOutside_of_reordered hitem).string]

lemma eq_of_strings {items : List Json} {strings : List String}
    (h : items.map Json.string? = strings.map some) : items = strings.map .string := by
  induction items generalizing strings with
  | nil => rw [List.map_eq_nil_iff.mp h.symm, List.map_nil]
  | cons item rest ih =>
    cases strings with
    | nil => cases h
    | cons s strings =>
      obtain ⟨hitem, hrest⟩ := List.cons.inj h
      cases item with
      | string t => rw [Option.some.inj hitem, ih hrest, List.map_cons]
      | _ => cases hitem

lemma enumFaults_reordered (h : Reordered a b) (hsilent : enumFaults a = []) :
    enumFaults b = [] := by
  obtain ⟨variants, rfl, hne, hnodup⟩ := enumFaults_eq_nil_iff.mp hsilent
  cases h with
  | @array _ others hlength hitems =>
    have hstrings := strings_reordered (.array hlength hitems)
    rw [List.map_map] at hstrings
    rw [eq_of_strings hstrings]
    exact enumFaults_eq_nil_iff.mpr ⟨variants, rfl, hne, hnodup⟩

lemma refFaults_reordered {names more : List String} (hnames : ∀ name, name ∈ more ↔ name ∈ names)
    (h : Reordered a b) : refFaults more b = refFaults names a := by
  cases h with
  | string s => simp only [refFaults, hnames]
  | _ => rfl

lemma sectionFaults_reordered {fault : Json.Kind → SchemaFault}
    (h : Option.Rel Reordered found other) :
    sectionFaults fault other = sectionFaults fault found :=
  found_reordered (sectionFaults fault) (fun a b hab => by cases hab <;> rfl) h

lemma mappingFaults_reordered (h : Option.Rel Reordered found other) :
    mappingFaults other = mappingFaults found :=
  found_reordered mappingFaults (fun a b hab => by cases hab <;> rfl) h

lemma discriminatorFaults_reordered {members others : Members}
    (h : Reordered (.object members) (.object others)) :
    Compile.discriminatorFaults others = Compile.discriminatorFaults members := by
  have hfield := field_reordered h "discriminator"
  unfold Compile.discriminatorFaults
  generalize Compile.field members "discriminator" = first at hfield ⊢
  generalize Compile.field others "discriminator" = second at hfield ⊢
  cases hfield <;> rfl

lemma sharedFaults_reordered {first second more rest : List String} (hfirst : first.Perm more)
    (hsecond : second.Perm rest) (hsilent : sharedFaults first second = []) :
    sharedFaults more rest = [] := by
  rw [sharedFaults_eq_nil_iff] at hsilent ⊢
  exact fun name hm hr => hsilent (hfirst.mem_iff.mpr hm) (hsecond.mem_iff.mpr hr)

end Values

/-- Two scopes with the same extensions, all of the library, and definitions of the same names. -/
structure SameScope (engine : PatternEngine) (scope other : Scope) : Prop where
  library : ∀ extension ∈ scope.options.extensions, extension ∈ libraryExtensions engine
  options : other.options = scope.options
  definitions : ∀ name, name ∈ other.definitions ↔ name ∈ scope.definitions

section Schemas

variable {engine : PatternEngine} {scope other : Scope} {members others : Members}
  {position : Position} {path : Path}

def SilentReordered (scope other : Scope) (members : Members) : Prop :=
  ∀ value, sizeOf value < sizeOf (Json.object members) → ∀ reordered, Reordered value reordered →
    ∀ position path, errorsOf scope position path value = [] →
      errorsOf other position path reordered = []

lemma errorsOfSub_reordered (h : Reordered (.object members) (.object others))
    (hbelow : SilentReordered scope other members) {key : String}
    (hsilent : errorsOfSub scope path (members.get? key) = []) :
    errorsOfSub other path (others.get? key) = [] := by
  cases hvalue : members.get? key with
  | none =>
    rw [hvalue] at hsilent
    cases hsilent
  | some value =>
    rw [hvalue] at hsilent
    obtain ⟨reordered, hfound, hreordered⟩ := value_reordered h hvalue
    rw [hfound]
    exact hbelow value (sizeOf_member_lt (get?_mem hvalue)) _ hreordered .nested path hsilent

lemma errorsOfEntries_reordered {entries more : Members}
    (h : Reordered (.object entries) (.object more))
    (hbelow : ∀ name value, (name, value) ∈ entries → ∀ reordered, Reordered value reordered →
      ∀ position path, errorsOf scope position path value = [] →
        errorsOf other position path reordered = [])
    (hsilent : errorsOfEntries scope position path entries = []) :
    errorsOfEntries other position path more = [] := by
  simp only [errorsOfEntries, List.flatMap_eq_nil_iff, Prod.forall] at hsilent ⊢
  intro name reordered hm
  have hfound := get?_of_mem (keys_reordered h).2.1 hm
  obtain ⟨value, hvalue, hback⟩ := value_reordered (reordered_symm h) hfound
  have hmem := get?_mem hvalue
  exact hbelow name value hmem reordered (reordered_symm hback) position _ (hsilent name value hmem)

lemma section_silent (h : Reordered (.object members) (.object others))
    (hbelow : SilentReordered scope other members) {key : String}
    (hsilent : errorsOfEntries scope position path (entriesIn (members.get? key)) = []) :
    errorsOfEntries other position path (entriesIn (others.get? key)) = [] := by
  have hentries := entriesIn_reordered (get?_reordered h key)
  exact errorsOfEntries_reordered hentries
    (fun _ value hm => hbelow value (sizeOf_entry_lt hm)) hsilent

lemma formErrors_reordered (hscope : SameScope engine scope other)
    (h : Reordered (.object members) (.object others))
    (hbelow : SilentReordered scope other members) {form : Form}
    (hsilent : formErrors scope path members form = []) :
    formErrors other path others form = [] := by
  cases form with
  | empty => rfl
  | type =>
    rw [formErrors, typeFaults_reordered (field_reordered h "type")]
    exact hsilent
  | enum =>
    rw [formErrors, List.map_eq_nil_iff] at hsilent ⊢
    exact enumFaults_reordered (field_reordered h "enum") hsilent
  | elements => exact errorsOfSub_reordered h hbelow hsilent
  | values => exact errorsOfSub_reordered h hbelow hsilent
  | ref =>
    rw [formErrors, refFaults_reordered hscope.definitions (field_reordered h "ref")]
    exact hsilent
  | properties =>
    have hkeys : ∀ key, (Members.keys (entriesIn (members.get? key))).Perm
        (Members.keys (entriesIn (others.get? key))) :=
      fun key => (keys_reordered (entriesIn_reordered (get?_reordered h key))).2.2
    simp only [formErrors, List.append_eq_nil_iff, List.map_eq_nil_iff] at hsilent ⊢
    obtain ⟨hrequired, hsection, hoptional, ⟨hother, hshared⟩, hadditional⟩ := hsilent
    refine ⟨section_silent h hbelow hrequired, ?_, section_silent h hbelow hoptional, ⟨?_, ?_⟩, ?_⟩
    · rw [sectionFaults_reordered (get?_reordered h _), hsection]
    · rw [sectionFaults_reordered (get?_reordered h _), hother]
    · exact sharedFaults_reordered (hkeys _) (hkeys _) hshared
    · rw [Compile.additionalFaults, flagFaults_reordered h]
      exact hadditional
  | discriminator =>
    simp only [formErrors, List.append_eq_nil_iff, List.map_eq_nil_iff] at hsilent ⊢
    obtain ⟨htag, hentries, hmapping⟩ := hsilent
    have hname := (sameOutside_of_reordered (field_reordered h "discriminator")).string
    rw [discriminatorFaults_reordered h, mappingFaults_reordered (get?_reordered h _), hname]
    exact ⟨htag, section_silent h hbelow hentries, hmapping⟩

lemma hookErrors_reordered (hscope : SameScope engine scope other)
    (h : Reordered (.object members) (.object others)) {form : Form}
    (hform : formErrors scope path members form = [])
    (hsilent : hookErrors scope path members form = []) :
    hookErrors other path others form = [] := by
  rw [hookErrors, if_neg fun ha => abandons_reports ha _ _ hform, List.map_eq_nil_iff] at hsilent
  rw [hookErrors, hscope.options]
  split_ifs
  · rfl
  · rw [List.map_eq_nil_iff]
    exact (contribution_reordered hscope.library h form _).silent.mp hsilent

lemma objectErrors_reordered (hscope : SameScope engine scope other)
    (h : Reordered (.object members) (.object others))
    (hbelow : SilentReordered scope other members)
    (hsilent : objectErrors scope position path members = []) :
    objectErrors other position path others = [] := by
  unfold objectErrors at hsilent ⊢
  cases hkeys : KeyGroups.ofKeys (Members.keys members) scope.options.declared with
  | ambiguous keys =>
    rw [hkeys] at hsilent
    cases hsilent
  | ofForm keys =>
    have hsorted := (hasForm_of_ofKeys hkeys).2
    rw [hscope.options, ofKeys_reordered h hkeys]
    simp only [hkeys, List.append_eq_nil_iff, List.map_eq_nil_iff] at hsilent ⊢
    obtain ⟨⟨hplace, hcommon⟩, hform, hhooks⟩ := hsilent
    rw [hsorted] at hplace hcommon
    refine ⟨⟨?_, commonFaults_reordered h hcommon⟩, formErrors_reordered hscope h hbelow hform,
      hookErrors_reordered hscope h hform hhooks⟩
    rw [placeFaults_reordered h]
    exact hplace

theorem errorsOf_reordered (hscope : SameScope engine scope other) (value : Json) :
    ∀ reordered, Reordered value reordered → ∀ position path,
      errorsOf scope position path value = [] → errorsOf other position path reordered = [] := by
  induction value using value_induction with
  | step value ih =>
    intro reordered h position path hsilent
    cases h with
    | object hnodup hkeys hvalues =>
      rw [errorsOf_object] at hsilent ⊢
      exact objectErrors_reordered hscope (.object hnodup hkeys hvalues) ih hsilent
    | _ =>
      rw [errorsOf_notObject (by simp)] at hsilent
      cases hsilent

end Schemas

section Documents

variable {engine : PatternEngine} {options : Options} {document other : Json}

lemma definitions?_reordered (h : Reordered document other) :
    Option.Rel Reordered (Compile.definitions? document) (Compile.definitions? other) := by
  cases h with
  | object hnodup hkeys hvalues => exact get?_reordered (.object hnodup hkeys hvalues) "definitions"
  | _ => exact .none

lemma sameScope_reordered
    (hlibrary : ∀ extension ∈ options.extensions, extension ∈ libraryExtensions engine)
    (h : Reordered document other) :
    SameScope engine (scopeOf options document) (scopeOf options other) := by
  refine ⟨hlibrary, rfl, fun name => ?_⟩
  rw [scopeOf, scopeOf, definitionNames_eq, definitionNames_eq]
  exact (keys_reordered (entriesIn_reordered (definitions?_reordered h))).2.2.mem_iff.symm

lemma refersTo_reordered {entries others : Members}
    (h : Reordered (.object entries) (.object others)) {name target : String}
    (hrefers : RefersTo entries name target) : RefersTo others name target := by
  obtain ⟨members, hmembers, hkeys, href⟩ := hrefers
  obtain ⟨found, hfound, hvalue⟩ := value_reordered h hmembers
  cases hvalue with
  | @object _ more hnodup hperm hvalues =>
    have hmore : Reordered (.object members) (.object more) := .object hnodup hperm hvalues
    exact ⟨more, hfound, fun key hk => hkeys key (hperm.mem_iff.mpr hk), get?_string hmore href⟩

lemma find_reordered {scope more : Scope} {entries others : Members}
    (h : Reordered (.object entries) (.object others))
    (hsilent : Cycle.find (edgesOf scope entries) = []) :
    Cycle.find (edgesOf more others) = [] := by
  -- which cycle the search meets first, and where it starts, does depend on the order,
  -- so only the lack of one is carried over
  rw [find_eq_nil_iff (reordered_distinct h)] at hsilent
  rw [find_eq_nil_iff (reordered_distinct (reordered_symm h))]
  have hback : RefersTo others ≤ RefersTo entries :=
    fun _ _ => refersTo_reordered (reordered_symm h)
  exact fun name hname => hsilent name (TransGen.mono hback name name hname)

lemma definitionErrors_reordered {scope more : Scope} (hscope : SameScope engine scope more)
    {found other : Option Json} (h : Option.Rel Reordered found other)
    (hsilent : definitionErrors scope found = []) : definitionErrors more other = [] := by
  cases h with
  | none => rfl
  | some hvalue =>
    cases hvalue with
    | @object entries others hnodup hkeys hvalues =>
      have hentries : Reordered (.object entries) (.object others) := .object hnodup hkeys hvalues
      rw [definitionErrors, List.append_eq_nil_iff, List.map_eq_nil_iff] at hsilent ⊢
      refine ⟨?_, find_reordered hentries hsilent.2⟩
      exact errorsOfEntries_reordered hentries
        (fun _ value _ => errorsOf_reordered hscope value) hsilent.1
    | _ => cases hsilent

theorem documentErrors_reordered
    (hlibrary : ∀ extension ∈ options.extensions, extension ∈ libraryExtensions engine)
    (h : Reordered document other) :
    documentErrors options document = [] ↔ documentErrors options other = [] := by
  have hone : ∀ {document other : Json}, Reordered document other →
      documentErrors options document = [] → documentErrors options other = [] := by
    intro document other h hsilent
    have hscope := sameScope_reordered hlibrary h
    rw [documentErrors, List.append_eq_nil_iff] at hsilent ⊢
    exact ⟨definitionErrors_reordered hscope (definitions?_reordered h) hsilent.1,
      errorsOf_reordered hscope document other h .root [] hsilent.2⟩
  exact ⟨hone h, hone (reordered_symm h)⟩

end Documents

end JsonTypeDefinition.Proofs
