import JsonTypeDefinition.Proofs.ArenaInvariant
import JsonTypeDefinition.Proofs.Entries

/-!
# Locations of errors

Without extensions, no two errors of a validation have the same location. From an entry, a walk goes
on to places that are apart from one another, so of two entries at places that are not apart one
follows from the other. And nothing follows from an entry towards a place that it reports at.
-/

open Relation

namespace JsonTypeDefinition.Proofs

section Steps

variable {validator : Validator} {node : Node} {value : Json} {entry next last : Entry}

lemma indices_pairwise (items : List Json) :
    items.zipIdx.Pairwise fun a b => toString a.2 ≠ toString b.2 := by
  have hindices : (items.zipIdx.map Prod.snd).Nodup := by
    rw [List.zipIdx_map_snd]
    exact List.nodup_range'
  exact (List.pairwise_map.mp hindices).imp fun hne he => hne (eq_of_toString_eq he)

lemma keys_pairwise (h : distinctKeys value = true) :
    (value.object?.getD []).Pairwise fun a b => a.1 ≠ b.1 := by
  cases value with
  | object members => exact List.pairwise_map.mp (distinctKeys_object h).1
  | _ => exact List.Pairwise.nil

lemma legs_apart (h : distinctKeys value = true) (place : Path) :
    (legs validator node value).Pairwise fun a b =>
      Apart (a.entry place).place (b.entry place).place := by
  have hsingle : ∀ (found : Option NodeId) (toLeg : NodeId → Leg),
      (found.toList.map toLeg).Pairwise fun a b =>
        Apart (a.entry place).place (b.entry place).place := by
    intro found toLeg
    cases found with
    | none => exact List.Pairwise.nil
    | some id => exact List.pairwise_singleton _ _
  unfold legs
  split
  · exact List.pairwise_map.mpr ((indices_pairwise _).imp fun hne => apart_of_ne hne place [] [])
  · exact List.pairwise_map.mpr ((keys_pairwise h).imp fun hne => apart_of_ne hne place [] [])
  · refine List.pairwise_flatMap.mpr ⟨fun member _ => hsingle _ _, ?_⟩
    refine (keys_pairwise h).imp fun hne a ha b hb => ?_
    obtain ⟨sub, -, rfl⟩ := List.mem_map.mp ha
    obtain ⟨other, -, rfl⟩ := List.mem_map.mp hb
    exact apart_of_ne hne place [] []
  · exact hsingle _ _
  · exact hsingle _ _
  all_goals exact List.Pairwise.nil

lemma onward_apart (h : distinctKeys entry.value = true) :
    (onward validator entry).Pairwise fun a b => Apart a.place b.place := by
  unfold onward
  cases entry.node? validator with
  | none => exact List.Pairwise.nil
  | some node => exact List.pairwise_map.mpr (legs_apart h entry.place)

lemma onward_extends (h : Onward validator entry next) : entry.place <+: next.place := by
  obtain ⟨node, -, leg, -, rfl⟩ := onward_iff.mp h
  exact List.prefix_append _ _

lemma reachable_extends (h : ReflTransGen (Onward validator) entry last) :
    entry.place <+: last.place := by
  induction h with
  | refl => exact List.prefix_refl _
  | tail _ hstep ih => exact ih.trans (onward_extends hstep)

lemma onward_of_properties {shape : PropertiesShape} (hnode : entry.node? validator = some node)
    (hshape : node.shape = .properties shape) (h : Onward validator entry next) :
    ∃ key, next.place = entry.place ++ [key] ∧ shape.subs.lookup key ≠ none := by
  rw [Onward, onward_of_node hnode] at h
  obtain ⟨leg, hleg, rfl⟩ := List.mem_map.mp h
  rw [legs, hshape] at hleg
  obtain ⟨⟨key, part⟩, -, hleg⟩ := List.mem_flatMap.mp hleg
  obtain ⟨sub, hsub, rfl⟩ := List.mem_map.mp hleg
  rw [Option.mem_toList] at hsub
  exact ⟨key, rfl, by simp [hsub]⟩

lemma ownError_apart {error : InstanceError} (hnode : entry.node? validator = some node)
    (herror : OwnError validator node entry.place entry.value error)
    (h : Onward validator entry next) :
    (error.instancePath = entry.place ∧ next.place ≠ entry.place) ∨
      Apart next.place error.instancePath := by
  have hgone : legs validator node entry.value ≠ [] := by
    intro hlast
    rw [Onward, onward_of_node hnode, hlast] at h
    cases h
  cases herror with
  | form hlast => exact absurd hlast hgone
  | notObject _ hlast => exact absurd hlast hgone
  | tag _ _ _ _ hlast => exact absurd hlast hgone
  | missing hshape =>
    obtain ⟨key, hplace, -⟩ := onward_of_properties hnode hshape h
    exact .inl ⟨rfl, by simp [hplace]⟩
  | @unexpected shape members key hshape _ _ hundeclared =>
    obtain ⟨other, hplace, hdeclared⟩ := onward_of_properties hnode hshape h
    have hne : other ≠ key := by
      rintro rfl
      exact hdeclared hundeclared
    rw [hplace]
    exact .inr (apart_of_ne hne entry.place [] [])

end Steps

/-- A walk from an entry comes to no end, whatever its fuel. -/
def Endless (validator : Validator) (entry : Entry) : Prop :=
  ∀ fuel places, .exhausted ∈ trace validator fuel places entry.id entry.place entry.value

section Cycles

variable {validator : Validator} {entry next : Entry} {fuel : Nat} {places : List Path}

lemma exhausted_of_onward (h : Onward validator entry next)
    (hnext : ∀ places, .exhausted ∈ trace validator fuel places next.id next.place next.value) :
    .exhausted ∈ trace validator (fuel + 1) places entry.id entry.place entry.value := by
  obtain ⟨node, hnode, leg, hleg, rfl⟩ := onward_iff.mp h
  rw [trace_of_node hnode]
  exact List.mem_append_right _ (List.mem_flatMap.mpr ⟨leg, hleg, hnext _⟩)

lemma endless_of_onward (h : Onward validator entry next) (hnext : Endless validator next) :
    Endless validator entry := by
  intro fuel places
  cases fuel with
  | zero => exact List.mem_cons_self
  | succ fuel => exact exhausted_of_onward h (hnext fuel)

lemma endless_of_reachable (h : ReflTransGen (Onward validator) entry next)
    (hnext : Endless validator next) : Endless validator entry := by
  induction h using ReflTransGen.head_induction_on with
  | refl => exact hnext
  | head hstep _ ih => exact endless_of_onward hstep ih

lemma endless_of_cycle (h : TransGen (Onward validator) entry entry) :
    Endless validator entry := by
  intro fuel
  induction fuel generalizing entry with
  | zero => exact fun _ => List.mem_cons_self
  | succ fuel ih =>
    intro places
    obtain ⟨next, hstep, hback⟩ := TransGen.head'_iff.mp h
    exact exhausted_of_onward hstep (ih (TransGen.tail' hback hstep))

lemma mem_entries_of_reachable (h : ReflTransGen (Onward validator) entry next) :
    ∀ fuel places,
      .exhausted ∉ trace validator fuel places entry.id entry.place entry.value →
        next ∈ entries validator fuel entry := by
  induction h using ReflTransGen.head_induction_on with
  | refl =>
    intro fuel places hlasts
    cases fuel with
    | zero => exact absurd List.mem_cons_self hlasts
    | succ fuel => exact List.mem_cons_self
  | @head entry middle hstep _ ih =>
    intro fuel places hlasts
    cases fuel with
    | zero => exact absurd List.mem_cons_self hlasts
    | succ fuel =>
      have hmiddle : ∃ places,
          .exhausted ∉ trace validator fuel places middle.id middle.place middle.value := by
        by_contra hall
        push Not at hall
        exact hlasts (exhausted_of_onward hstep hall)
      obtain ⟨opened, hopened⟩ := hmiddle
      exact List.mem_cons_of_mem _ (List.mem_flatMap.mpr ⟨middle, hstep, ih fuel opened hopened⟩)

end Cycles

section Compiled

variable {options : Options} {document : Json} {validator : Validator} {value : Json}

lemma entered_iff (h : IsCompiled options document validator) {entry : Entry} :
    entry ∈ entered validator value ↔
      ReflTransGen (Onward validator) (rootEntry validator value) entry :=
  ⟨entries_reachable, fun hreachable => mem_entries_of_reachable hreachable _ [] (events_last h)⟩

lemma reachable_acyclic (h : IsCompiled options document validator) {entry : Entry}
    (hreachable : ReflTransGen (Onward validator) (rootEntry validator value) entry) :
    ¬ TransGen (Onward validator) entry entry := fun hcycle =>
  events_last h (endless_of_reachable hreachable (endless_of_cycle hcycle) _ [])

end Compiled

lemma apart_symm {a b : Path} (h : Apart a b) : Apart b a :=
  fun path hb ha => h path ha hb

lemma apart_below {a b c d : Path} (h : Apart a b) (hc : a <+: c) (hd : b <+: d) : Apart c d :=
  fun path hcp hdp => h path (hc.trans hcp) (hd.trans hdp)

section Entries

variable {validator : Validator} {node other : Node} {value : Json} {entry a b : Entry} {fuel : Nat}
  {x y : InstanceError}

lemma entries_comparable (hstands : StandsAt value entry.place entry.value)
    (ha : a ∈ entries validator fuel entry) (hb : b ∈ entries validator fuel entry)
    (hplace : ¬ Apart a.place b.place) :
    ReflTransGen (Onward validator) a b ∨ ReflTransGen (Onward validator) b a := by
  induction fuel generalizing entry with
  | zero => cases ha
  | succ fuel ih =>
    rcases List.mem_cons.mp ha with rfl | ha'
    · exact .inl (entries_reachable hb)
    rcases List.mem_cons.mp hb with rfl | hb'
    · exact .inr (entries_reachable ha)
    obtain ⟨first, hfirst, ha'⟩ := List.mem_flatMap.mp ha'
    obtain ⟨second, hsecond, hb'⟩ := List.mem_flatMap.mp hb'
    -- Both lie behind the same entry, as different ones are apart, and all that is behind them.
    have hsame : first = second := by
      by_contra hne
      have hsymm : Std.Symm fun a b : Entry => Apart a.place b.place := ⟨fun _ _ => apart_symm⟩
      have hapart := (onward_apart hstands.distinct).forall hfirst hsecond hne
      exact hplace (apart_below hapart (reachable_extends (entries_reachable ha'))
        (reachable_extends (entries_reachable hb')))
    subst hsame
    exact ih (standsAt_onward hstands hfirst) ha' hb'

lemma entries_once (hstands : StandsAt value entry.place entry.value)
    (hacyclic : ∀ next, ReflTransGen (Onward validator) entry next →
      ¬ TransGen (Onward validator) next next) :
    ((entries validator fuel entry).map fun entry => (entry.id, entry.place)).Nodup := by
  induction fuel generalizing entry with
  | zero => exact List.nodup_nil
  | succ fuel ih =>
    rw [entries, List.map_cons, List.nodup_cons, List.map_flatMap]
    refine ⟨fun hmem => ?_, List.nodup_flatMap.mpr ⟨fun first hfirst => ?_, ?_⟩⟩
    · obtain ⟨first, hfirst, hmem⟩ := List.mem_flatMap.mp hmem
      obtain ⟨again, hagain, heq⟩ := List.mem_map.mp hmem
      have hcycle := TransGen.head' hfirst (entries_reachable hagain)
      have hvalue := (standsAt_reachable hstands hcycle.to_reflTransGen).resolves
      obtain ⟨id, place, found⟩ := again
      obtain ⟨rfl, rfl⟩ := Prod.mk.inj heq
      rw [hstands.resolves] at hvalue
      cases hvalue
      exact hacyclic _ .refl hcycle
    · exact ih (standsAt_onward hstands hfirst) fun next hnext => hacyclic next (.head hfirst hnext)
    · refine (onward_apart hstands.distinct).imp fun hapart => ?_
      intro key hfirst hsecond
      obtain ⟨left, hleft, rfl⟩ := List.mem_map.mp hfirst
      obtain ⟨right, hright, heq⟩ := List.mem_map.mp hsecond
      have hplace : right.place = left.place := congrArg Prod.snd heq
      exact hapart left.place (reachable_extends (entries_reachable hleft))
        (hplace ▸ reachable_extends (entries_reachable hright))

lemma ownError_below (h : OwnError validator node entry.place entry.value x) :
    entry.place <+: x.instancePath := by
  cases h with
  | form | notObject | missing => exact List.prefix_refl _
  | unexpected | tag => exact List.prefix_append _ _

lemma eq_of_reported (hnode : a.node? validator = some node)
    (hx : OwnError validator node a.place a.value x)
    (hreachable : ReflTransGen (Onward validator) a b) (hb : b.place <+: x.instancePath) :
    a = b := by
  rcases hreachable.cases_head with rfl | ⟨next, hstep, hrest⟩
  · rfl
  exfalso
  have hnext := (reachable_extends hrest).trans hb
  rcases ownError_apart hnode hx hstep with ⟨hhere, hmoved⟩ | hapart
  · rw [hhere] at hnext
    exact hmoved (hnext.eq_of_length_le (onward_extends hstep).length_le)
  · exact hapart _ hnext (List.prefix_refl _)

lemma eq_of_same_place (hstands : StandsAt value entry.place entry.value)
    (ha : a ∈ entries validator fuel entry) (hb : b ∈ entries validator fuel entry)
    (hnode : a.node? validator = some node) (hother : b.node? validator = some other)
    (hx : OwnError validator node a.place a.value x)
    (hy : OwnError validator other b.place b.value y)
    (hplace : x.instancePath = y.instancePath) : a = b := by
  have hax := ownError_below hx
  have hby := ownError_below hy
  have hcommon : ¬ Apart a.place b.place := fun hapart => hapart _ hax (hplace ▸ hby)
  rcases entries_comparable hstands ha hb hcommon with hreachable | hreachable
  · exact eq_of_reported hnode hx hreachable (hplace ▸ hby)
  · exact (eq_of_reported hother hy hreachable (hplace ▸ hax)).symm

lemma unexpected_not_entered (hstands : StandsAt value entry.place entry.value)
    (ha : a ∈ entries validator fuel entry) (hb : b ∈ entries validator fuel entry)
    (hnode : a.node? validator = some node)
    (hx : OwnError validator node a.place a.value x) {key : String}
    (hviolation : x.violation = .propertyUnexpected key) : ¬ x.instancePath <+: b.place := by
  intro hentered
  have hplace : x.instancePath = a.place ++ [key] := by
    cases hx with
    | form _ hother | tag _ _ _ _ _ hother => exact absurd hviolation (hother key)
    | notObject | missing => cases hviolation
    | unexpected =>
      cases hviolation
      rfl
  have hcommon : ¬ Apart a.place b.place := fun hapart =>
    hapart _ ((ownError_below hx).trans hentered) (List.prefix_refl _)
  have hlonger : ¬ x.instancePath <+: a.place := by
    intro hle
    have hlength := hle.length_le
    rw [hplace, List.length_append, List.length_singleton] at hlength
    omega
  rcases entries_comparable hstands ha hb hcommon with hreachable | hreachable
  · rcases hreachable.cases_head with rfl | ⟨next, hstep, hrest⟩
    · exact hlonger hentered
    rcases ownError_apart hnode hx hstep with ⟨hhere, -⟩ | hapart
    · exact hlonger (hhere ▸ List.prefix_refl _)
    · exact hapart b.place (reachable_extends hrest) hentered
  · exact hlonger (hentered.trans (reachable_extends hreachable))

end Entries

section Own

variable {node : Node} {place : Path} {value : Json}

lemma ownErrors_few (h : ∀ shape (members : Members), node.shape = .properties shape →
    value ≠ .object members) : (ownErrors node place value).length ≤ 1 := by
  unfold ownErrors
  cases hshape : node.shape with
  | empty | ref => exact Nat.zero_le _
  | type type =>
    dsimp only
    split <;> simp
  | enum variants =>
    cases value with
    | string s =>
      dsimp only
      split_ifs <;> simp
    | _ => exact Nat.le_refl _
  | elements sub =>
    cases value with
    | array items => exact Nat.zero_le _
    | _ => exact Nat.le_refl _
  | values sub =>
    cases value with
    | object members => exact Nat.zero_le _
    | _ => exact Nat.le_refl _
  | properties shape =>
    cases value with
    | object members => exact absurd rfl (h shape members hshape)
    | _ => exact Nat.le_refl _
  | discriminator tag mapping =>
    cases value with
    | object members =>
      dsimp only
      split
      · exact Nat.le_refl _
      · split_ifs <;> simp
      · exact Nat.le_refl _
    | _ => exact Nat.le_refl _

lemma keyErrors_nodup {shape : PropertiesShape} {members : Members}
    (hshape : node.shape = .properties shape) (hrequired : shape.required.Nodup)
    (hkeys : (Members.keys members).Nodup) :
    ((ownErrors node place (.object members)).map location).Nodup := by
  simp only [ownErrors, hshape, List.map_append, List.map_map]
  refine List.nodup_append.mpr ⟨?_, ?_, ?_⟩
  · refine (hrequired.filter _).map fun a b he => ?_
    simpa [location] using he
  · refine (hkeys.filter _).map fun a b he => ?_
    simpa [location] using he
  · intro a ha b hb
    obtain ⟨key, -, rfl⟩ := List.mem_map.mp ha
    obtain ⟨other, -, rfl⟩ := List.mem_map.mp hb
    simp [location]

lemma ownErrors_located (hv : distinctKeys value = true)
    (hrequired : ∀ shape, node.shape = .properties shape → shape.required.Nodup) :
    ((ownErrors node place value).map location).Nodup := by
  by_cases hobject : ∃ shape members, node.shape = .properties shape ∧ value = .object members
  · obtain ⟨shape, members, hshape, rfl⟩ := hobject
    exact keyErrors_nodup hshape (hrequired shape hshape) (distinctKeys_object hv).1
  · have hfew : (ownErrors node place value).length ≤ 1 :=
      ownErrors_few fun shape members hshape hm => hobject ⟨shape, members, hshape, hm⟩
    generalize ownErrors node place value = errors at hfew ⊢
    rcases errors with _ | ⟨error, _ | ⟨other, rest⟩⟩
    · exact List.nodup_nil
    · exact List.nodup_singleton _
    · simp at hfew

end Own

/-- The errors of a validation have locations of their own, as its walk comes to each node at most
once at each place. -/
structure LocatedOnce (validator : Validator) (value : Json) : Prop where
  errors : ((validator.validate value).toList.map location).Nodup
  /-- The entries are all that the walk comes to from the root, and it reports what is found at
  them. -/
  reachable : ∀ entry, entry ∈ entered validator value ↔
    ReflTransGen (Onward validator) (rootEntry validator value) entry
  reports : (validator.validate value).toList =
    (entered validator value).flatMap (entryErrors validator)
  once : ((entered validator value).map fun entry => (entry.id, entry.place)).Nodup
  /-- No two entries report at one place in the instance. -/
  alone : ∀ a ∈ entered validator value, ∀ b ∈ entered validator value,
    ∀ x ∈ entryErrors validator a, ∀ y ∈ entryErrors validator b,
      x.instancePath = y.instancePath → a = b
  /-- What is reported as unexpected is not entered, nor is any part of it. -/
  unexpected : ∀ error ∈ (validator.validate value).toList, ∀ key,
    error.violation = .propertyUnexpected key →
      ∀ entry ∈ entered validator value, ¬ error.instancePath <+: entry.place

section Plain

variable {document : Json} {validator : Validator} {value : Json} {entry : Entry} {node : Node}

lemma supplements_plain (h : compile {} document = .ok validator)
    (hd : distinctKeys document = true) {id : NodeId} (hnode : validator.nodes[id]? = some node) :
    node.supplements = [] := by
  obtain ⟨site, members, hof⟩ := node_of_id h hd hnode
  cases hof.stands with
  | object _ _ _ hstored _ =>
    rw [hnode] at hstored
    cases hstored
    rfl

lemma entryErrors_plain (h : compile {} document = .ok validator)
    (hd : distinctKeys document = true) (hnode : entry.node? validator = some node) :
    entryErrors validator entry = ownErrors node entry.place entry.value := by
  have hnone : supplementErrors node entry.place entry.value = [] := by
    rw [supplementErrors, supplements_plain h hd (node?_eq_some_iff.mp hnode).1]
    rfl
  rw [entryErrors_of_node hnode, nodeErrors, hnone, ite_self, List.append_nil]

lemma entryErrors_cases (h : compile {} document = .ok validator)
    (hd : distinctKeys document = true) {error : InstanceError}
    (herror : error ∈ entryErrors validator entry) :
    ∃ node, entry.node? validator = some node ∧
      OwnError validator node entry.place entry.value error := by
  cases hnode : entry.node? validator with
  | none =>
    rw [entryErrors, hnode] at herror
    cases herror
  | some node =>
    rw [entryErrors_plain h hd hnode] at herror
    exact ⟨node, rfl, ownErrors_cases validator herror⟩

lemma entryErrors_located (h : compile {} document = .ok validator)
    (hd : distinctKeys document = true) (hv : distinctKeys entry.value = true) :
    ((entryErrors validator entry).map location).Nodup := by
  cases hnode : entry.node? validator with
  | none =>
    rw [entryErrors, hnode]
    exact List.nodup_nil
  | some node =>
    rw [entryErrors_plain h hd hnode]
    refine ownErrors_located hv fun shape hshape => ?_
    obtain ⟨site, members, hof⟩ := node_of_id h hd (node?_eq_some_iff.mp hnode).1
    obtain ⟨-, hnames, hnodup⟩ := hof.properties shape hshape
    rw [hnames] at hnodup
    exact (List.nodup_append.mp hnodup).1

lemma entered_alone (h : compile {} document = .ok validator)
    (hd : distinctKeys document = true) (hv : distinctKeys value = true) {a b : Entry}
    (ha : a ∈ entered validator value) (hb : b ∈ entered validator value) {x y : InstanceError}
    (hx : x ∈ entryErrors validator a) (hy : y ∈ entryErrors validator b)
    (hplace : x.instancePath = y.instancePath) : a = b := by
  obtain ⟨node, hnode, hx⟩ := entryErrors_cases h hd hx
  obtain ⟨other, hother, hy⟩ := entryErrors_cases h hd hy
  exact eq_of_same_place (rootEntry_standsAt validator hv) ha hb hnode hother hx hy hplace

end Plain

/-- Without extensions, the errors of a validation have locations of their own. -/
theorem errors_located_once {document : Json} {validator : Validator}
    (hd : distinctKeys document = true) (h : compile {} document = .ok validator) {value : Json}
    (hv : distinctKeys value = true) : LocatedOnce validator value := by
  have hcompiled := compiled_stands h
  have hreports := validate_entered hcompiled value
  have hroot := rootEntry_standsAt validator hv
  have honce : ((entered validator value).map fun entry => (entry.id, entry.place)).Nodup :=
    entries_once hroot fun entry hreachable => reachable_acyclic hcompiled hreachable
  have halone : ∀ a ∈ entered validator value, ∀ b ∈ entered validator value,
      ∀ x ∈ entryErrors validator a, ∀ y ∈ entryErrors validator b,
        x.instancePath = y.instancePath → a = b :=
    fun a ha b hb x hx y hy => entered_alone h hd hv ha hb hx hy
  refine ⟨?_, fun entry => entered_iff hcompiled, hreports, honce, halone, ?_⟩
  · rw [hreports, List.map_flatMap]
    refine List.nodup_flatMap.mpr ⟨fun entry hentry => ?_, ?_⟩
    · exact entryErrors_located h hd (entered_standsAt hv hentry).distinct
    · refine honce.of_map.pairwise_of_forall_ne fun a ha b hb hne => ?_
      intro place hleft hright
      obtain ⟨x, hx, rfl⟩ := List.mem_map.mp hleft
      obtain ⟨y, hy, heq⟩ := List.mem_map.mp hright
      exact hne (halone a ha b hb x hx y hy (congrArg Prod.snd heq).symm)
  · intro error herror key hviolation entry hentry
    rw [hreports] at herror
    obtain ⟨reporting, hreporting, herror⟩ := List.mem_flatMap.mp herror
    obtain ⟨node, hnode, hown⟩ := entryErrors_cases h hd herror
    exact unexpected_not_entered hroot hreporting hentry hnode hown hviolation

def folderDocument : Json :=
  .object
    [("definitions", .object [("folder", .object
      [("properties", .object [("name", .object [("type", .string "string")])]),
        ("optionalProperties", .object
          [("inner", .object [("values", .object [("ref", .string "folder")])])])])]),
      ("ref", .string "folder")]

/-- Two folders without names in one whose name is a number; one of them has a color. -/
def oddFolders : Json :=
  .object [("name", .number (.int 1)), ("inner", .object
    [("a", .object []), ("b", .object [("color", .object [("name", .null)])])])]

/-- Where the errors of the folders are. The path of the two missing names is also that of the
schema of names. -/
def oddFoldersLocations : List (Path × Path) :=
  [(["definitions", "folder", "properties", "name", "type"], ["name"]),
    (["definitions", "folder", "properties", "name"], ["inner", "a"]),
    (["definitions", "folder", "properties", "name"], ["inner", "b"]),
    (["definitions", "folder"], ["inner", "b", "color"])]

theorem oddFolders_located_once :
    ∃ validator, compile {} folderDocument = .ok validator ∧
      distinctKeys folderDocument = true ∧ distinctKeys oddFolders = true ∧
      LocatedOnce validator oddFolders ∧
      (validator.validate oddFolders).toList.map location = oddFoldersLocations := by
  have hd : distinctKeys folderDocument = true := by decide
  have hv : distinctKeys oddFolders = true := by decide
  have hlocations : (compile {} folderDocument).toOption.map
      (fun validator => (validator.validate oddFolders).toList.map location) =
        some oddFoldersLocations := by
    decide +kernel
  obtain ⟨validator, h, hlocations⟩ := compiles_with hlocations
  exact ⟨validator, h, hd, hv, errors_located_once hd h hv, hlocations⟩

end JsonTypeDefinition.Proofs
