import JsonTypeDefinition.Proofs.Arena
import JsonTypeDefinition.Proofs.Circuits

/-!
# Chains of references

The definitions of a compiled document lead nowhere in a circle by references alone. So references
that follow one another lead through different definitions, and there are no more of them in a row
than definitions.
-/

open Relation

namespace JsonTypeDefinition.Proofs

section References

variable {scope : Scope} {nodes : Array Node} {position : Position} {path : Path}
  {members entries : Members} {name target : String} {value : Json}

/-- A definition that is a reference has an edge, also where its name is repeated later. -/
lemma step_of_reference (hv : entries.get? name = some value)
    (hr : reference? scope value = some target) : Step (edgesOf scope entries) name target := by
  induction entries with
  | nil => cases hv
  | cons entry rest ih =>
    obtain ⟨source, other⟩ := entry
    rw [get?_cons] at hv
    rw [Step, lookup_edgesOf_cons]
    by_cases he : source = name
    · rw [if_pos he] at hv
      cases hv
      rw [if_pos he, hr, Option.some_or]
    · rw [if_neg he] at hv
      rw [if_neg he, Option.none_or]
      exact ih hv

lemma reference?_of_shape {index : Nat} {keys : FormKeys}
    (hkeys : KeyGroups.ofKeys (Members.keys members) scope.options.declared = .ofForm keys)
    (hshape : HasShape scope nodes position path members keys.form (.ref index)) :
    ∃ target, members.get? "ref" = some (.string target) ∧
      scope.definitions.idxOf? target = some index ∧
      reference? scope (.object members) = some target := by
  generalize hform : keys.form = form at hshape
  cases hshape with
  | @ref _ _ _ target _ hname hindex =>
    refine ⟨target, hname, hindex, ?_⟩
    rw [reference?, hkeys]
    dsimp only
    rw [if_pos hform, Compile.field, hname]
    rfl

lemma lookup_of_idxOf? {subs : List (String × NodeId)} {index : Nat}
    (h : (subs.map Prod.fst).idxOf? name = some index) :
    ∃ id, subs.lookup name = some id ∧ (subs.map Prod.snd)[index]? = some id := by
  induction subs generalizing index with
  | nil => cases h
  | cons sub rest ih =>
    obtain ⟨key, id⟩ := sub
    rw [List.map_cons, List.idxOf?_cons] at h
    rw [List.lookup_cons]
    by_cases he : key = name
    · rw [if_pos (beq_iff_eq.mpr he)] at h
      cases h
      exact ⟨id, by rw [he, beq_self_eq_true], rfl⟩
    · rw [if_neg (by simpa using he)] at h
      obtain ⟨before, hb, rfl⟩ := Option.map_eq_some_iff.mp h
      rw [beq_false_of_ne (Ne.symm he)]
      exact ih hb

end References

/-- The schemas of a document, wherever they stand in it. -/
inductive SchemaIn (document : Json) : Json → Prop where
  | root : SchemaIn document document
  | definition {entries : Members} {name : String} {value : Json}
      (hentries : Compile.definitions? document = some (.object entries))
      (hm : entries.get? name = some value) : SchemaIn document value
  | sub {members : Members} {key : String} {value : Json} (h : SchemaIn document (.object members))
      (hkey : key ∈ ["elements", "values"]) (hv : members.get? key = some value) :
      SchemaIn document value
  | entry {members entries : Members} {key name : String} {value : Json}
      (h : SchemaIn document (.object members))
      (hkey : key ∈ ["properties", "optionalProperties", "mapping"])
      (hentries : members.get? key = some (.object entries)) (hm : entries.get? name = some value) :
      SchemaIn document value

def Standing (options : Options) (document : Json) (validator : Validator) (id : NodeId) : Prop :=
  ∃ position path schema, SchemaIn document schema ∧
    StandsFor (scopeOf options document) validator.nodes position path schema id

section Compiled

variable {options : Options} {document : Json} {validator : Validator}

lemma definitionNames_eq (document : Json) :
    Compile.definitionNames document =
      Members.keys (entriesIn (Compile.definitions? document)) := by
  unfold Compile.definitionNames
  split
  · rename_i entries h
    rw [h, entriesIn]
  · rename_i h
    rw [entriesIn]
    · rfl
    · exact h

lemma definition_stands (h : IsCompiled options document validator) {name : String} {index : Nat}
    (hindex : (Compile.definitionNames document).idxOf? name = some index) :
    ∃ value id, (entriesIn (Compile.definitions? document)).get? name = some value ∧
      validator.definitions[index]? = some id ∧
      StandsFor (scopeOf options document) validator.nodes .definition ["definitions", name] value
        id := by
  obtain ⟨subs, hdefinitions, hsubs⟩ := h.definitions
  rw [definitionNames_eq, ← subs_names hsubs] at hindex
  obtain ⟨id, hlookup, hid⟩ := lookup_of_idxOf? hindex
  rcases subsStand_lookup hsubs name with ⟨hnone, -⟩ | ⟨other, value, hl, hv, hstands⟩
  · rw [hlookup] at hnone
    cases hnone
  · rw [hlookup] at hl
    cases hl
    exact ⟨value, id, hv, by simp [hdefinitions, hid], hstands⟩

lemma acyclic_edges (h : IsCompiled options document validator) (name : String) :
    ¬ TransGen (Step (edgesOf (scopeOf options document)
      (entriesIn (Compile.definitions? document)))) name name := by
  intro hname
  obtain ⟨names, hn, -⟩ := ((find_lists_cycles _).onCycle name).mp hname
  have hfaultless := (List.append_eq_nil_iff.mp h.faultless).1
  generalize Compile.definitions? document = found at hn hfaultless
  unfold definitionErrors at hfaultless
  split at hfaultless
  · have hnone := List.map_eq_nil_iff.mp (List.append_eq_nil_iff.mp hfaultless).2
    rw [entriesIn, hnone] at hn
    cases hn
  · cases hfaultless
  · cases hn

/-- At most `n` references follow one another from a node. -/
def Settles (validator : Validator) : Nat → NodeId → Prop
  | 0, id => ∀ node index, validator.nodes[id]? = some node → node.shape ≠ .ref index
  | n + 1, id => ∀ node index sub, validator.nodes[id]? = some node → node.shape = .ref index →
    validator.definitions[index]? = some sub → Settles validator n sub

lemma settles_of_other {id : NodeId} {node : Node} (hnode : validator.nodes[id]? = some node)
    (hshape : ∀ index, node.shape ≠ .ref index) (n : Nat) : Settles validator n id := by
  cases n with
  | zero =>
    intro other index ho
    rw [hnode] at ho
    cases ho
    exact hshape index
  | succ n =>
    intro other index sub ho hs
    rw [hnode] at ho
    cases ho
    exact absurd hs (hshape index)

lemma reference_leads_on (h : IsCompiled options document validator) {position : Position}
    {path : Path} {value : Json} {id : NodeId} {node : Node} {index : Nat}
    (hid : StandsFor (scopeOf options document) validator.nodes position path value id)
    (hnode : validator.nodes[id]? = some node) (hshape : node.shape = .ref index) :
    ∃ target later sub, reference? (scopeOf options document) value = some target ∧
      (entriesIn (Compile.definitions? document)).get? target = some later ∧
      validator.definitions[index]? = some sub ∧
      StandsFor (scopeOf options document) validator.nodes .definition ["definitions", target] later
        sub := by
  cases hid with
  | object hkeys _ _ hstored hform =>
    rw [hnode] at hstored
    cases hstored
    dsimp only at hshape
    subst hshape
    obtain ⟨target, -, hindex, href⟩ := reference?_of_shape hkeys hform
    obtain ⟨later, sub, hv, hsub, hstands⟩ := definition_stands h hindex
    exact ⟨target, later, sub, href, hv, hsub, hstands⟩

lemma mem_definitionNames {name : String} {value : Json}
    (hv : (entriesIn (Compile.definitions? document)).get? name = some value) :
    name ∈ Compile.definitionNames document := by
  rw [definitionNames_eq, ← has_iff_mem_keys, Members.has, hv]
  rfl

lemma trail_goes_on (h : IsCompiled options document validator) {before : List String}
    {name target : String} {value : Json}
    (htrail : IsTrail (edgesOf (scopeOf options document)
      (entriesIn (Compile.definitions? document))) [] before name)
    (hv : (entriesIn (Compile.definitions? document)).get? name = some value)
    (href : reference? (scopeOf options document) value = some target) :
    IsTrail (edgesOf (scopeOf options document) (entriesIn (Compile.definitions? document))) []
      (before ++ [name]) target := by
  have hstep := step_of_reference hv href
  refine trail_extends htrail hstep (fun hmem => ?_) (by simp)
  exact acyclic_edges h target (TransGen.tail' (trail_reaches_end htrail hmem) hstep)

lemma definitionNames_append {names : List String} {target : String} {value : Json}
    (hnames : ∀ x ∈ names, x ∈ Compile.definitionNames document)
    (hv : (entriesIn (Compile.definitions? document)).get? target = some value) :
    ∀ x ∈ names ++ [target], x ∈ Compile.definitionNames document := by
  intro x hx
  rcases List.mem_append.mp hx with hx | hx
  · exact hnames x hx
  · rw [List.mem_singleton.mp hx]
    exact mem_definitionNames hv

lemma definition_settles (h : IsCompiled options document validator) (n : Nat) :
    ∀ (before : List String) (name : String) (value : Json) (id : NodeId),
      IsTrail (edgesOf (scopeOf options document) (entriesIn (Compile.definitions? document))) []
        before name →
      (∀ x ∈ before ++ [name], x ∈ Compile.definitionNames document) →
      (Compile.definitionNames document).length ≤ n + before.length + 1 →
      (entriesIn (Compile.definitions? document)).get? name = some value →
      StandsFor (scopeOf options document) validator.nodes .definition ["definitions", name] value
        id →
      Settles validator n id := by
  induction n with
  | zero =>
    intro before name value id htrail hnames hlength hv hid node index hnode hshape
    obtain ⟨target, later, sub, href, hlater, -, -⟩ := reference_leads_on h hid hnode hshape
    -- One more definition on the trail than there are definitions.
    have hnodup := (trail_goes_on h htrail hv href).nodup
    have hle := (hnodup.subperm (definitionNames_append hnames hlater)).length_le
    simp only [List.length_append, List.length_singleton] at hle
    omega
  | succ n ih =>
    intro before name value id htrail hnames hlength hv hid node index sub hnode hshape hsub
    obtain ⟨target, later, other, href, hlater, hother, hstands⟩ :=
      reference_leads_on h hid hnode hshape
    rw [hsub] at hother
    cases hother
    have hlength' : (Compile.definitionNames document).length ≤
        n + (before ++ [name]).length + 1 := by
      simp only [List.length_append, List.length_singleton]
      omega
    exact ih (before ++ [name]) target later sub (trail_goes_on h htrail hv href)
      (definitionNames_append hnames hlater) hlength' hlater hstands

lemma standing_settles (h : IsCompiled options document validator) {id : NodeId}
    (hid : Standing options document validator id) :
    Settles validator (Compile.definitionNames document).length id := by
  obtain ⟨position, path, schema, -, hstands⟩ := hid
  cases hlength : (Compile.definitionNames document).length with
  | zero =>
    intro node index hnode hshape
    obtain ⟨target, later, -, -, hlater, -, -⟩ := reference_leads_on h hstands hnode hshape
    have hmem := List.length_pos_of_mem (mem_definitionNames hlater)
    omega
  | succ n =>
    intro node index sub hnode hshape hsub
    obtain ⟨target, later, other, -, hlater, hother, hsubStands⟩ :=
      reference_leads_on h hstands hnode hshape
    rw [hsub] at hother
    cases hother
    refine definition_settles h n [] target later sub ⟨by simp, by simp, by simp⟩ ?_ ?_ hlater
      hsubStands
    · intro x hx
      rw [List.nil_append, List.mem_singleton] at hx
      rw [hx]
      exact mem_definitionNames hlater
    · simp [hlength]

end Compiled

end JsonTypeDefinition.Proofs
