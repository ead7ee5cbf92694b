import JsonTypeDefinition.Proofs.Interpreter

/-!
# The entries of a walk

A walk enters one node after another, each with a part of the instance. `entered` lists these
entries in order. A validation reports what is found at each of them, and the value of an entry is
what stands at its place.
-/

open Relation

namespace JsonTypeDefinition.Proofs

structure Entry where
  id : NodeId
  /-- Where the value stands in the instance. -/
  place : Path
  value : Json

/-- The node of an entry, if it looks at the value: a nullable one does not look at null. -/
def Entry.node? (validator : Validator) (entry : Entry) : Option Node :=
  validator.nodes[entry.id]?.filter fun node => !(node.nullable && entry.value.kind = .null)

def Leg.entry (leg : Leg) (place : Path) : Entry :=
  ⟨leg.id, place ++ leg.down, leg.value⟩

/-- Where a walk goes from an entry, in order. -/
def onward (validator : Validator) (entry : Entry) : List Entry :=
  (entry.node? validator).elim [] fun node =>
    (legs validator node entry.value).map fun leg => leg.entry entry.place

/-- An entry and those that follow from it, in order. `fuel` bounds the nodes that are open. -/
def entries (validator : Validator) : Nat → Entry → List Entry
  | 0, _ => []
  | fuel + 1, entry => entry :: (onward validator entry).flatMap (entries validator fuel)

def rootEntry (validator : Validator) (value : Json) : Entry :=
  ⟨validator.root, [], value⟩

def entered (validator : Validator) (value : Json) : List Entry :=
  entries validator (validator.fuelFor value) (rootEntry validator value)

def location (error : InstanceError) : Path × Path :=
  (error.schemaPath, error.instancePath)

/-- What the supplements of a node find wrong with a value at `place`, in order. -/
def supplementErrors (node : Node) (place : Path) (value : Json) : List InstanceError :=
  node.supplements.flatMap fun supplement =>
    (supplement value).map fun violation => ⟨node.supplementPath, place, violation⟩

/-- What a node finds wrong with a value at `place`, with its supplements if the value reaches
them. -/
def nodeErrors (node : Node) (place : Path) (value : Json) : List InstanceError :=
  ownErrors node place value ++
    if runsSupplements node value then supplementErrors node place value else []

def entryErrors (validator : Validator) (entry : Entry) : List InstanceError :=
  (entry.node? validator).elim [] fun node => nodeErrors node entry.place entry.value

section Reports

variable {validator : Validator} {entry : Entry} {node : Node}

lemma node?_eq_some_iff : entry.node? validator = some node ↔
    validator.nodes[entry.id]? = some node ∧
      (node.nullable && entry.value.kind = .null) = false := by
  rw [Entry.node?, Option.filter_eq_some_iff, Bool.not_eq_true']

lemma onward_of_node (h : entry.node? validator = some node) : onward validator entry =
    (legs validator node entry.value).map fun leg => leg.entry entry.place := by
  rw [onward, h, Option.elim_some]

lemma entryErrors_of_node (h : entry.node? validator = some node) :
    entryErrors validator entry = nodeErrors node entry.place entry.value := by
  rw [entryErrors, h, Option.elim_some]

lemma trace_of_node (h : entry.node? validator = some node) (fuel : Nat) (places : List Path) :
    trace validator (fuel + 1) places entry.id entry.place entry.value =
      visit node places entry.place entry.value ++
        legEvents validator fuel places node entry.place entry.value := by
  obtain ⟨hnode, hlooks⟩ := node?_eq_some_iff.mp h
  rw [trace_node hnode, if_neg (by rw [hlooks]; exact Bool.false_ne_true)]

lemma trace_of_no_node (h : entry.node? validator = none) (fuel : Nat) (places : List Path) :
    trace validator (fuel + 1) places entry.id entry.place entry.value = [] := by
  rw [Entry.node?, Option.filter_eq_none_iff] at h
  cases hnode : validator.nodes[entry.id]? with
  | none => rw [trace, hnode]
  | some node =>
    have hskips := h node hnode
    rw [trace_node hnode, if_pos (by simpa using hskips)]

lemma collect_all (found : List (List InstanceError)) :
    collect (found.map .found) = some found.flatten := by
  induction found with
  | nil => rfl
  | cons errors rest ih =>
    rw [List.map_cons, collect, ih]
    rfl

lemma collect_flatMap_eq {α : Type} {items : List α} {eventsOf : α → List Event}
    {found : α → List InstanceError}
    (h : ∀ item ∈ items, collect (eventsOf item) = some (found item)) :
    collect (items.flatMap eventsOf) = some (items.flatMap found) := by
  induction items with
  | nil => rfl
  | cons item rest ih =>
    have hrest := ih fun other ho => h other (List.mem_cons_of_mem _ ho)
    rw [List.flatMap_cons, collect_append, h item List.mem_cons_self, hrest]
    rfl

lemma collect_nodeVisit (node : Node) (places : List Path) (place : Path) (value : Json) :
    collect (visit node places place value) = some (nodeErrors node place value) := by
  have hopen : collect (openEvents node places place) = some [] := by
    unfold openEvents
    split <;> rfl
  have hsupplements : collect (supplementEvents node place value) =
      some (supplementErrors node place value) := by
    have hall := collect_all (node.supplements.map fun supplement =>
      (supplement value).map fun violation => ⟨node.supplementPath, place, violation⟩)
    rw [List.map_map] at hall
    exact hall
  rw [visit, nodeErrors, collect_append, collect_append, collect_found, hopen]
  split
  · rw [hsupplements]
    simp
  · simp [collect]

/-- Unless fuel runs out, what is found on the walk from an entry is what is found at the entries
that follow from it. -/
lemma collect_trace (fuel : Nat) : ∀ places (entry : Entry),
    .exhausted ∉ trace validator fuel places entry.id entry.place entry.value →
      collect (trace validator fuel places entry.id entry.place entry.value) =
        some ((entries validator fuel entry).flatMap (entryErrors validator)) := by
  induction fuel with
  | zero => exact fun _ _ h => absurd List.mem_cons_self h
  | succ fuel ih =>
    intro places entry h
    rw [entries, List.flatMap_cons]
    cases hnode : entry.node? validator with
    | none =>
      rw [trace_of_no_node hnode, entryErrors, onward, hnode]
      rfl
    | some node =>
      rw [trace_of_node hnode] at h ⊢
      have hlegs : collect (legEvents validator fuel places node entry.place entry.value) =
          some ((legs validator node entry.value).flatMap fun leg =>
            (entries validator fuel (leg.entry entry.place)).flatMap (entryErrors validator)) := by
        refine collect_flatMap_eq fun leg hleg => ih _ (leg.entry entry.place) fun he => h ?_
        exact List.mem_append_right _ (List.mem_flatMap.mpr ⟨leg, hleg, he⟩)
      rw [collect_append, collect_nodeVisit, hlegs, entryErrors_of_node hnode,
        onward_of_node hnode, List.flatMap_map, List.flatMap_assoc]
      rfl

end Reports

theorem validate_entered {options : Options} {document : Json} {validator : Validator}
    (h : IsCompiled options document validator) (value : Json) :
    (validator.validate value).toList =
      (entered validator value).flatMap (entryErrors validator) := by
  have hcollect : collect (events validator value) =
      some ((entered validator value).flatMap (entryErrors validator)) :=
    collect_trace (validator.fuelFor value) [] (rootEntry validator value) (events_last h)
  rw [Validator.validate, run_replays, replay_collect hcollect, Array.empty_append]

/-- The ways in which a node itself can find something wrong with a value at `place`. Only missing
and unexpected keys let the value go on. -/
inductive OwnError (validator : Validator) (node : Node) (place : Path) (value : Json) :
    InstanceError → Prop where
  | form {violation : Violation} (hlast : legs validator node value = [])
      (hother : ∀ key, violation ≠ .propertyUnexpected key)
      (hcore : ofExtension violation = false) :
      OwnError validator node place value ⟨node.formPath, place, violation⟩
  | notObject {shape : PropertiesShape} {kind : Json.Kind} (hshape : node.shape = .properties shape)
      (hlast : legs validator node value = []) :
      OwnError validator node place value
        ⟨node.schemaPath ++ [if shape.hasRequiredKey then "properties" else "optionalProperties"],
          place, .propertiesNotObject kind⟩
  | missing {shape : PropertiesShape} {key : String} (hshape : node.shape = .properties shape)
      (hkey : key ∈ shape.required) :
      OwnError validator node place value
        ⟨node.schemaPath ++ ["properties", key], place, .propertyMissing key⟩
  | unexpected {shape : PropertiesShape} {members : Members} {key : String}
      (hshape : node.shape = .properties shape) (hvalue : value = .object members)
      (hkey : key ∈ Members.keys members) (hundeclared : shape.subs.lookup key = none) :
      OwnError validator node place value
        ⟨node.schemaPath, place ++ [key], .propertyUnexpected key⟩
  | tag {tag : String} {mapping : List (String × NodeId)} {members : Members} {path : Path}
      {violation : Violation} (hshape : node.shape = .discriminator tag mapping)
      (hvalue : value = .object members) (htag : tag ∈ Members.keys members)
      (hpath : path = node.formPath ∨ path = node.schemaPath ++ ["mapping"])
      (hlast : legs validator node value = [])
      (hother : ∀ key, violation ≠ .propertyUnexpected key)
      (hcore : ofExtension violation = false) :
      OwnError validator node place value ⟨path, place ++ [tag], violation⟩

section Own

variable {node : Node} {place : Path} {value : Json} {error : InstanceError}

lemma legs_unselected (validator : Validator) {tag : String} {mapping : List (String × NodeId)}
    (hshape : node.shape = .discriminator tag mapping) (h : selected? tag mapping value = none) :
    legs validator node value = [] := by
  rw [legs, hshape]
  dsimp only
  rw [h]
  rfl

lemma ownErrors_properties_cases (validator : Validator) {shape : PropertiesShape}
    (hshape : node.shape = .properties shape) (h : error ∈ ownErrors node place value) :
    OwnError validator node place value error := by
  simp only [ownErrors, hshape] at h
  cases value with
  | object members =>
    rcases List.mem_append.mp h with h | h
    · obtain ⟨key, hkey, rfl⟩ := List.mem_map.mp h
      exact .missing hshape (List.mem_filter.mp hkey).1
    · obtain ⟨key, hkey, rfl⟩ := List.mem_map.mp h
      obtain ⟨hkey, hundeclared⟩ := List.mem_filter.mp hkey
      simp only [Bool.and_eq_true, Option.isNone_iff_eq_none] at hundeclared
      exact .unexpected hshape rfl hkey hundeclared.1.2
  | _ =>
    rw [List.mem_singleton.mp h]
    exact .notObject hshape (by rw [legs, hshape]; rfl)

lemma ownErrors_discriminator_cases (validator : Validator) {tag : String}
    {mapping : List (String × NodeId)} (hshape : node.shape = .discriminator tag mapping)
    (h : error ∈ ownErrors node place value) : OwnError validator node place value error := by
  simp only [ownErrors, hshape] at h
  cases value with
  | object members =>
    have hselected : selected? tag mapping (.object members) =
        (Members.get? members tag).bind fun value => value.string?.bind (List.lookup · mapping) :=
      rfl
    dsimp only at h
    split at h
    · rename_i hget
      rw [List.mem_singleton.mp h]
      refine .form (legs_unselected validator hshape ?_) (by simp) rfl
      rw [hselected, hget, Option.bind_none]
    · rename_i s hget
      have htag : tag ∈ Members.keys members := List.mem_map_of_mem (get?_mem hget)
      split_ifs at h with hs
      · cases h
      · rw [List.mem_singleton.mp h]
        refine .tag hshape rfl htag (.inr rfl) (legs_unselected validator hshape ?_) (by simp) rfl
        rw [hselected, hget, Option.bind_some]
        exact Option.not_isSome_iff_eq_none.mp hs
    · rename_i other hother hget
      have htag : tag ∈ Members.keys members := List.mem_map_of_mem (get?_mem hget)
      rw [List.mem_singleton.mp h]
      refine .tag hshape rfl htag (.inl rfl) (legs_unselected validator hshape ?_) (by simp) rfl
      rw [hselected, hget, Option.bind_some]
      cases other with
      | string s => exact absurd rfl (hother s)
      | _ => rfl
  | _ =>
    rw [List.mem_singleton.mp h]
    exact .form (legs_unselected validator hshape rfl) (by simp) rfl

lemma typeViolation_kind (type : Primitive) (value : Json) :
    (∀ key, typeViolation type value ≠ .propertyUnexpected key) ∧
      ofExtension (typeViolation type value) = false := by
  cases value with
  | number n =>
    rw [typeViolation]
    split_ifs <;> exact ⟨nofun, rfl⟩
  | _ => exact ⟨nofun, rfl⟩

lemma ownErrors_type_cases (validator : Validator) {type : Primitive}
    (hshape : node.shape = .type type) (h : error ∈ ownErrors node place value) :
    OwnError validator node place value error := by
  simp only [ownErrors, hshape, violation?_eq] at h
  obtain ⟨hother, hcore⟩ := typeViolation_kind type value
  split_ifs at h
  · cases h
  · rw [List.mem_singleton.mp h]
    exact .form (by rw [legs, hshape]) hother hcore

lemma ownErrors_cases (validator : Validator) (h : error ∈ ownErrors node place value) :
    OwnError validator node place value error := by
  cases hshape : node.shape with
  | properties shape => exact ownErrors_properties_cases validator hshape h
  | discriminator tag mapping => exact ownErrors_discriminator_cases validator hshape h
  | empty | ref =>
    simp only [ownErrors, hshape] at h
    cases h
  | type type => exact ownErrors_type_cases validator hshape h
  | enum variants =>
    simp only [ownErrors, hshape] at h
    have hlast : legs validator node value = [] := by rw [legs, hshape]
    cases value with
    | string s =>
      dsimp only at h
      split_ifs at h
      · cases h
      · rw [List.mem_singleton.mp h]
        exact .form hlast (by simp) rfl
    | _ =>
      rw [List.mem_singleton.mp h]
      exact .form hlast (by simp) rfl
  | elements sub =>
    simp only [ownErrors, hshape] at h
    cases value with
    | array items => cases h
    | _ =>
      rw [List.mem_singleton.mp h]
      exact .form (by rw [legs, hshape]; rfl) (by simp) rfl
  | values sub =>
    simp only [ownErrors, hshape] at h
    cases value with
    | object members => cases h
    | _ =>
      rw [List.mem_singleton.mp h]
      exact .form (by rw [legs, hshape]; rfl) (by simp) rfl

end Own

/-- What stands in a value under a token: an item of an array under its decimal index, a value of an
object under its key. -/
def part? : Json → String → Option Json
  | .array items, token => (items.zipIdx.find? fun (_, i) => toString i == token).map Prod.fst
  | .object members, token => Members.get? members token
  | _, _ => none

def partAt? : Json → Path → Option Json
  | value, [] => some value
  | value, token :: rest => (part? value token).bind fun part => partAt? part rest

lemma partAt?_append (value : Json) (place more : Path) :
    partAt? value (place ++ more) = (partAt? value place).bind fun part => partAt? part more := by
  induction place generalizing value with
  | nil => rw [List.nil_append, partAt?, Option.bind_some]
  | cons token rest ih =>
    rw [List.cons_append, partAt?, partAt?, Option.bind_assoc]
    simp only [ih]

lemma partAt?_token {value part : Json} {place : Path} (h : partAt? value place = some part)
    (token : String) : partAt? value (place ++ [token]) = part? part token := by
  rw [partAt?_append, h, Option.bind_some, partAt?]
  simp only [partAt?, Option.bind_fun_some]

lemma eq_of_toString_eq {i j : Nat} (h : toString i = toString j) : i = j := by
  rw [Nat.toString_eq_ofList_toDigits, Nat.toString_eq_ofList_toDigits, String.ofList_inj] at h
  rw [← Nat.ofDigitChars_ten_toDigits (n := i), h, Nat.ofDigitChars_ten_toDigits]

lemma part?_item {items : List Json} {item : Json} {i : Nat} (h : (item, i) ∈ items.zipIdx) :
    part? (.array items) (toString i) = some item := by
  have hi := List.mem_zipIdx_iff_getElem?.mp h
  rw [part?, Option.map_eq_some_iff]
  cases hfound : items.zipIdx.find? fun (_, j) => toString j == toString i with
  | none =>
    have hnone := List.find?_eq_none.mp hfound _ h
    simp at hnone
  | some found =>
    obtain ⟨other, j⟩ := found
    have hj : j = i := by
      have htrue := List.find?_some hfound
      exact eq_of_toString_eq (beq_iff_eq.mp htrue)
    have hother := List.mem_zipIdx_iff_getElem?.mp (List.mem_of_find?_eq_some hfound)
    subst hj
    rw [hi] at hother
    exact ⟨_, rfl, (Option.some.inj hother).symm⟩

lemma distinctKeys_part? {value part : Json} {token : String} (h : distinctKeys value = true)
    (hp : part? value token = some part) : distinctKeys part = true := by
  cases value with
  | array items =>
    rw [distinctKeys, distinctInItems_iff] at h
    obtain ⟨⟨item, i⟩, hfound, rfl⟩ := Option.map_eq_some_iff.mp hp
    exact h item (List.fst_mem_of_mem_zipIdx (List.mem_of_find?_eq_some hfound))
  | object members => exact distinctKeys_get? h hp
  | _ => cases hp

section Parts

variable {validator : Validator} {node : Node} {value : Json} {leg : Leg}

lemma leg_part (h : distinctKeys value = true) (hleg : leg ∈ legs validator node value) :
    (leg.down = [] ∧ leg.value = value) ∨
      ∃ token, leg.down = [token] ∧ part? value token = some leg.value := by
  have hkey : ∀ {key part}, (key, part) ∈ value.object?.getD [] →
      part? value key = some part := by
    intro key part hm
    cases value with
    | object members => exact get?_of_mem (distinctKeys_object h).1 hm
    | _ => cases hm
  unfold legs at hleg
  split at hleg
  · obtain ⟨⟨item, i⟩, hm, rfl⟩ := List.mem_map.mp hleg
    cases value with
    | array items => exact .inr ⟨_, rfl, part?_item hm⟩
    | _ => cases hm
  · obtain ⟨⟨key, part⟩, hm, rfl⟩ := List.mem_map.mp hleg
    exact .inr ⟨key, rfl, hkey hm⟩
  · obtain ⟨⟨key, part⟩, hm, hleg⟩ := List.mem_flatMap.mp hleg
    obtain ⟨sub, -, rfl⟩ := List.mem_map.mp hleg
    exact .inr ⟨key, rfl, hkey hm⟩
  · obtain ⟨sub, -, rfl⟩ := List.mem_map.mp hleg
    exact .inl ⟨rfl, rfl⟩
  · obtain ⟨sub, -, rfl⟩ := List.mem_map.mp hleg
    exact .inl ⟨rfl, rfl⟩
  all_goals cases hleg

end Parts

def Onward (validator : Validator) (entry next : Entry) : Prop :=
  next ∈ onward validator entry

/-- A part stands at a place of an instance, and repeats no key. -/
structure StandsAt (whole : Json) (place : Path) (part : Json) : Prop where
  resolves : partAt? whole place = some part
  distinct : distinctKeys part = true

section Walks

variable {validator : Validator} {value : Json} {entry next : Entry} {fuel : Nat}

lemma onward_iff : Onward validator entry next ↔ ∃ node, entry.node? validator = some node ∧
    ∃ leg ∈ legs validator node entry.value, leg.entry entry.place = next := by
  rw [Onward, onward]
  cases entry.node? validator with
  | none => simp
  | some node => simp

lemma entries_reachable (h : next ∈ entries validator fuel entry) :
    ReflTransGen (Onward validator) entry next := by
  induction fuel generalizing entry with
  | zero => cases h
  | succ fuel ih =>
    rcases List.mem_cons.mp h with rfl | h
    · exact .refl
    · obtain ⟨first, hfirst, hnext⟩ := List.mem_flatMap.mp h
      exact .head hfirst (ih hnext)

lemma standsAt_onward (h : StandsAt value entry.place entry.value)
    (ho : Onward validator entry next) : StandsAt value next.place next.value := by
  obtain ⟨node, -, leg, hleg, rfl⟩ := onward_iff.mp ho
  dsimp only [Leg.entry]
  rcases leg_part h.distinct hleg with ⟨hdown, hvalue⟩ | ⟨token, hdown, hpart⟩
  · rw [hdown, hvalue, List.append_nil]
    exact h
  · refine ⟨?_, distinctKeys_part? h.distinct hpart⟩
    rw [hdown, partAt?_token h.resolves, hpart]

lemma standsAt_reachable (h : StandsAt value entry.place entry.value)
    (hreachable : ReflTransGen (Onward validator) entry next) :
    StandsAt value next.place next.value := by
  induction hreachable with
  | refl => exact h
  | tail _ hstep ih => exact standsAt_onward ih hstep

lemma rootEntry_standsAt (validator : Validator) (hv : distinctKeys value = true) :
    StandsAt value (rootEntry validator value).place (rootEntry validator value).value :=
  ⟨by rw [rootEntry, partAt?], hv⟩

lemma entered_standsAt (hv : distinctKeys value = true) (h : entry ∈ entered validator value) :
    StandsAt value entry.place entry.value :=
  standsAt_reachable (rootEntry_standsAt validator hv) (entries_reachable h)

end Walks

end JsonTypeDefinition.Proofs
