import JsonTypeDefinition.Schema.Keys
import Mathlib.Data.List.Basic
import Mathlib.Tactic.Lemma

/-!
# Sorting keys in two passes

The first pass finds the form, the second one the keys that have a role for it. What comes of both
can be said key by key: `sortedFor` looks for each key by itself.
-/

namespace JsonTypeDefinition

namespace KeyGroups

/-- Whether a key that is no form key has a role in schemas of a form. -/
def hasRole (form : Form) (key : String) : Bool :=
  key == "nullable" || key == "metadata" || key == "definitions" ||
    (key == "additionalProperties" && form == .properties) ||
    (key == "mapping" && form == .discriminator)

def sortedFor (form : Form) (keys declared : List String) : FormKeys where
  form
  nullable := keys.contains "nullable"
  metadata := keys.contains "metadata"
  definitions := keys.contains "definitions"
  properties := keys.contains "properties"
  optionalProperties := keys.contains "optionalProperties"
  additionalProperties := form == .properties && keys.contains "additionalProperties"
  mapping := form == .discriminator && keys.contains "mapping"
  unrecognized := keys.filter fun key =>
    (Form.ofKey? key).isNone && !hasRole form key && !declared.contains key

end KeyGroups

namespace Proofs
open KeyGroups

structure Scanned (keys : List String) (scan : Scan) : Prop where
  form : scan.form = (keys.filterMap Form.ofKey?).head?
  ambiguous : scan.ambiguous = (keys.filterMap Form.ofKey?).head?.any fun first =>
    !(keys.filterMap Form.ofKey?).tail.all (agree first)
  formKeys : scan.formKeys = keys.filter fun key => (Form.ofKey? key).isSome
  properties : scan.properties = keys.contains "properties"
  optionalProperties : scan.optionalProperties = keys.contains "optionalProperties"
  rest : scan.rest = keys.filter fun key => (Form.ofKey? key).isNone

section FirstPass

variable {seen : List String} {scan : Scan}

lemma contains_concat (keys : List String) (key other : String) :
    (keys ++ [key]).contains other = (keys.contains other || key == other) := by
  rw [List.contains_append, List.contains_cons, List.contains_nil, Bool.or_false, BEq.comm]

lemma scanned_meet (h : Scanned seen scan) (key : String) :
    Scanned (seen ++ [key]) (scan.meet key) := by
  cases hkey : Form.ofKey? key with
  | none =>
    have hproperties : (key == "properties") = false := by
      refine beq_false_of_ne ?_
      rintro rfl
      cases hkey
    have hoptional : (key == "optionalProperties") = false := by
      refine beq_false_of_ne ?_
      rintro rfl
      cases hkey
    have hforms : (seen ++ [key]).filterMap Form.ofKey? = seen.filterMap Form.ofKey? := by
      rw [List.filterMap_append, List.filterMap_cons_none hkey, List.filterMap_nil, List.append_nil]
    rw [Scan.meet, hkey]
    dsimp only
    constructor
    · rw [hforms, ← h.form]
    · rw [hforms, ← h.ambiguous]
    · simp [hkey, h.formKeys]
    · rw [contains_concat, hproperties, Bool.or_false, ← h.properties]
    · rw [contains_concat, hoptional, Bool.or_false, ← h.optionalProperties]
    · simp [hkey, h.rest]
  | some form =>
    have hforms : (seen ++ [key]).filterMap Form.ofKey? = seen.filterMap Form.ofKey? ++ [form] := by
      rw [List.filterMap_append, List.filterMap_cons_some hkey, List.filterMap_nil]
    rw [Scan.meet, hkey]
    dsimp only
    constructor
    · rw [hforms, List.head?_append, ← h.form, List.head?_singleton]
    · -- The first form key has nothing to go with.
      rw [hforms, h.ambiguous, h.form]
      cases seen.filterMap Form.ofKey? with
      | nil => rfl
      | cons first others => simp
    · simp [hkey, h.formKeys]
    · rw [contains_concat, ← h.properties]
    · rw [contains_concat, ← h.optionalProperties]
    · simp [hkey, h.rest]

lemma scanned_foldl (h : Scanned seen scan) (keys : List String) :
    Scanned (seen ++ keys) (keys.foldl Scan.meet scan) := by
  induction keys generalizing seen scan with
  | nil => rwa [List.append_nil]
  | cons key rest ih =>
    have hrest := ih (scanned_meet h key)
    rwa [List.append_assoc, List.singleton_append] at hrest

lemma scanned (keys : List String) : Scanned keys (keys.foldl Scan.meet {}) := by
  have hstart : Scanned [] {} := ⟨rfl, rfl, rfl, rfl, rfl, rfl⟩
  exact scanned_foldl hstart keys

end FirstPass

section SecondPass

variable {declared : List String}

lemma assign_eq (sorted : FormKeys) (key : String) : assign declared sorted key =
    { sorted with
      nullable := sorted.nullable || key == "nullable"
      metadata := sorted.metadata || key == "metadata"
      definitions := sorted.definitions || key == "definitions"
      additionalProperties := sorted.additionalProperties ||
        (sorted.form == .properties && key == "additionalProperties")
      mapping := sorted.mapping || (sorted.form == .discriminator && key == "mapping")
      unrecognized := sorted.unrecognized ++
        if !hasRole sorted.form key && !declared.contains key then [key] else [] } := by
  obtain ⟨form, nullable, metadata, definitions, properties, optionalProperties,
    additionalProperties, mapping, unrecognized⟩ := sorted
  unfold assign
  split_ifs <;> simp_all [hasRole] <;> tauto

lemma assign_all (keys : List String) (sorted : FormKeys) : keys.foldl (assign declared) sorted =
    { sorted with
      nullable := sorted.nullable || keys.contains "nullable"
      metadata := sorted.metadata || keys.contains "metadata"
      definitions := sorted.definitions || keys.contains "definitions"
      additionalProperties := sorted.additionalProperties ||
        (sorted.form == .properties && keys.contains "additionalProperties")
      mapping := sorted.mapping || (sorted.form == .discriminator && keys.contains "mapping")
      unrecognized := sorted.unrecognized ++ keys.filter fun key =>
        !hasRole sorted.form key && !declared.contains key } := by
  induction keys generalizing sorted with
  | nil => simp
  | cons key rest ih =>
    rw [List.foldl_cons, ih, assign_eq]
    simp only [List.contains_cons, List.filter_cons, Bool.and_or_distrib_left, Bool.or_assoc,
      List.append_assoc, BEq.comm (a := key)]
    split_ifs <;> rfl

lemma contains_rest (keys : List String) {key : String} (h : Form.ofKey? key = none) :
    (keys.filter fun key => (Form.ofKey? key).isNone).contains key = keys.contains key := by
  rw [Bool.eq_iff_iff, List.contains_iff_mem, List.contains_iff_mem, List.mem_filter, h]
  exact and_iff_left rfl

lemma assign_rest (form : Form) (keys : List String) :
    (keys.filter fun key => (Form.ofKey? key).isNone).foldl (assign declared)
      { form
        properties := keys.contains "properties"
        optionalProperties := keys.contains "optionalProperties" } =
      sortedFor form keys declared := by
  rw [assign_all]
  simp only [contains_rest keys (by decide : Form.ofKey? "nullable" = none),
    contains_rest keys (by decide : Form.ofKey? "metadata" = none),
    contains_rest keys (by decide : Form.ofKey? "definitions" = none),
    contains_rest keys (by decide : Form.ofKey? "additionalProperties" = none),
    contains_rest keys (by decide : Form.ofKey? "mapping" = none), List.filter_filter,
    Bool.false_or, List.nil_append, sortedFor]
  congr 1
  refine List.filter_congr fun key _ => ?_
  rw [Bool.and_comm, Bool.and_assoc]

end SecondPass

/-- What sorting comes to: the first form key tells the form, and all later ones have to go with
it. -/
theorem ofKeys_eq (keys declared : List String) : ofKeys keys declared =
    match keys.filterMap Form.ofKey? with
    | [] => .ofForm (sortedFor .empty keys declared)
    | form :: others =>
      if others.all (agree form) then .ofForm (sortedFor form keys declared)
      else .ambiguous (keys.filter fun key => (Form.ofKey? key).isSome) := by
  have h := scanned keys
  dsimp only [ofKeys]
  rw [h.formKeys, h.properties, h.optionalProperties, h.rest, assign_rest, h.ambiguous, h.form]
  cases keys.filterMap Form.ofKey? with
  | nil => rfl
  | cons form others =>
    dsimp only [List.head?_cons, List.tail_cons, Option.any_some, Option.getD_some]
    by_cases hagree : others.all (agree form) = true
    · simp [hagree]
    · simp [hagree]

end Proofs

end JsonTypeDefinition
