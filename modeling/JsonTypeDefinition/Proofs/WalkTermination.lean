import JsonTypeDefinition.Proofs.LibraryFaults
import JsonTypeDefinition.Proofs.ReferenceChains
import JsonTypeDefinition.Proofs.WalkTrace

/-!
# Walks end

A reference and the choice of a mapping entry keep the value as it is, so that no argument of the
walk shrinks. But no more references follow one another than there are definitions, and a mapping
entry takes its value apart. With `M` definitions and a value of `L` levels, at most `M * L`
references are open inside one another.
-/

namespace JsonTypeDefinition.Proofs

lemma levels_pos (value : Json) : 0 < value.levels := by
  cases value <;> simp [Json.levels]

lemma item_levels {items : List Json} {item : Json} (h : item ∈ items) :
    item.levels < (Json.array items).levels := by
  have hle : item.levels ≤ Json.levelsOfItems items := by
    induction items with
    | nil => cases h
    | cons first rest ih =>
      rw [Json.levelsOfItems]
      rcases List.mem_cons.mp h with rfl | hr
      · exact Nat.le_max_left _ _
      · exact Nat.le_trans (ih hr) (Nat.le_max_right _ _)
  rw [Json.levels]
  omega

lemma member_levels {members : Members} {key : String} {part : Json} (h : (key, part) ∈ members) :
    part.levels < (Json.object members).levels := by
  have hle : part.levels ≤ Json.levelsOfMembers members := by
    induction members with
    | nil => cases h
    | cons first rest ih =>
      obtain ⟨other, value⟩ := first
      rw [Json.levelsOfMembers]
      rcases List.mem_cons.mp h with he | hr
      · cases he
        exact Nat.le_max_left _ _
      · exact Nat.le_trans (ih hr) (Nat.le_max_right _ _)
  rw [Json.levels]
  omega

/-- The three ways in which a value goes on from a node. -/
inductive Moves (validator : Validator) (node : Node) (value : Json) : Leg → Prop where
  /-- Through a reference. -/
  | reference {index : Nat} {sub : NodeId} (hshape : node.shape = .ref index)
      (hsub : validator.definitions[index]? = some sub) :
      Moves validator node value ⟨true, [], sub, value⟩
  /-- To a mapping entry, which takes the value apart. -/
  | entry {tag : String} {mapping : List (String × NodeId)} {sub : NodeId} {other : Node}
      {shape : PropertiesShape} (hshape : node.shape = .discriminator tag mapping)
      (hsub : validator.nodes[sub]? = some other) (hother : other.shape = .properties shape) :
      Moves validator node value ⟨false, [], sub, value⟩
  /-- Into a part. -/
  | part {token : String} {sub : NodeId} {part : Json} (hshape : ∀ index, node.shape ≠ .ref index)
      (hlevels : part.levels < value.levels) :
      Moves validator node value ⟨false, [token], sub, part⟩

section Compiled

variable {options : Options} {document : Json} {validator : Validator}

lemma entriesIn_get? {found : Option Json} {name : String} {value : Json}
    (h : (entriesIn found).get? name = some value) :
    ∃ entries : Members, found = some (.object entries) ∧ entries.get? name = some value := by
  unfold entriesIn at h
  split at h
  · exact ⟨_, rfl, h⟩
  · cases h

lemma selected?_lookup {tag : String} {mapping : List (String × NodeId)} {value : Json}
    {sub : NodeId} (h : selected? tag mapping value = some sub) :
    ∃ s, mapping.lookup s = some sub := by
  obtain ⟨members, -, h⟩ := Option.bind_eq_some_iff.mp h
  obtain ⟨found, -, h⟩ := Option.bind_eq_some_iff.mp h
  obtain ⟨s, -, h⟩ := Option.bind_eq_some_iff.mp h
  exact ⟨s, h⟩

lemma definitions_size (h : IsCompiled options document validator) :
    validator.definitions.size = (Compile.definitionNames document).length := by
  obtain ⟨subs, hdefinitions, hsubs⟩ := h.definitions
  rw [definitionNames_eq, ← subs_names hsubs, hdefinitions]
  simp

lemma root_standing (h : IsCompiled options document validator) :
    Standing options document validator validator.root :=
  ⟨_, _, _, .root, h.root⟩

lemma subs_standing {position : Position} {path : Path} {members : Members} {key name : String}
    {subs : List (String × NodeId)} {id : NodeId} (hin : SchemaIn document (.object members))
    (hkey : key ∈ ["properties", "optionalProperties", "mapping"])
    (hsubs : SubsStand (scopeOf options document) validator.nodes position path
      (members.get? key) subs) (hlookup : subs.lookup name = some id) :
    ∃ value, SchemaIn document value ∧
      StandsFor (scopeOf options document) validator.nodes position (path ++ [name]) value id := by
  rcases subsStand_lookup hsubs name with ⟨hnone, -⟩ | ⟨other, value, hl, hv, hstands⟩
  · rw [hlookup] at hnone
    cases hnone
  · rw [hlookup] at hl
    cases hl
    obtain ⟨entries, hentries, hm⟩ := entriesIn_get? hv
    exact ⟨value, .entry hin hkey hentries hm, hstands⟩

lemma entry_properties {scope : Scope} {nodes : Array Node} {tag : Option String} {path : Path}
    {value : Json} {id : NodeId} (h : StandsFor scope nodes (.mapping tag) path value id) :
    ∃ node shape, nodes[id]? = some node ∧ node.shape = .properties shape := by
  cases h with
  | @object _ _ members keys shape _ hkeys hplace _ hnode hshape =>
    have hform : keys.form = .properties := by
      by_contra hne
      simp [Compile.placeFaults, hne] at hplace
    rw [hform] at hshape
    cases hshape with
    | properties => exact ⟨_, _, hnode, rfl⟩

lemma leg_moves (h : IsCompiled options document validator) {id : NodeId} {node : Node}
    {value : Json} {leg : Leg} (hid : Standing options document validator id)
    (hnode : validator.nodes[id]? = some node) (hleg : leg ∈ legs validator node value) :
    Standing options document validator leg.id ∧ Moves validator node value leg := by
  obtain ⟨position, path, schema, hin, hstands⟩ := hid
  cases hstands with
  | @object _ _ members keys shape _ hkeys hplace hcommon hstored hform =>
    rw [hnode] at hstored
    cases hstored
    generalize keys.form = form at hform
    unfold legs at hleg
    dsimp only at hleg
    cases hform with
    | empty => cases hleg
    | type => cases hleg
    | enum => cases hleg
    | elements hvalue hsub =>
      cases value with
      | array items =>
        obtain ⟨⟨item, i⟩, hm, rfl⟩ := List.mem_map.mp hleg
        refine ⟨⟨_, _, _, .sub hin (by simp) hvalue, hsub⟩, .part (by simp) ?_⟩
        exact item_levels (List.fst_mem_of_mem_zipIdx hm)
      | _ => cases hleg
    | values hvalue hsub =>
      cases value with
      | object parts =>
        obtain ⟨⟨key, part⟩, hm, rfl⟩ := List.mem_map.mp hleg
        exact ⟨⟨_, _, _, .sub hin (by simp) hvalue, hsub⟩, .part (by simp) (member_levels hm)⟩
      | _ => cases hleg
    | properties hrequired hoptional =>
      cases value with
      | object parts =>
        obtain ⟨⟨key, part⟩, hm, hleg⟩ := List.mem_flatMap.mp hleg
        obtain ⟨sub, hlookup, rfl⟩ := List.mem_map.mp hleg
        refine ⟨?_, .part (by simp) (member_levels hm)⟩
        dsimp only at hlookup
        rw [List.lookup_append] at hlookup
        rcases Option.or_eq_some_iff.mp (Option.mem_toList.mp hlookup) with hl | ⟨-, hl⟩
        · obtain ⟨part, hpart, hstands⟩ := subs_standing hin (by simp) hrequired hl
          exact ⟨_, _, part, hpart, hstands⟩
        · obtain ⟨part, hpart, hstands⟩ := subs_standing hin (by simp) hoptional hl
          exact ⟨_, _, part, hpart, hstands⟩
      | _ => cases hleg
    | discriminator htag hmapping hsubs =>
      obtain ⟨sub, hselected, rfl⟩ := List.mem_map.mp hleg
      obtain ⟨s, hl⟩ := selected?_lookup (Option.mem_toList.mp hselected)
      rw [← hmapping] at hsubs
      obtain ⟨entry, hentry, hstands⟩ := subs_standing hin (by simp) hsubs hl
      obtain ⟨other, shape, hother, hshape⟩ := entry_properties hstands
      exact ⟨⟨_, _, entry, hentry, hstands⟩, .entry rfl hother hshape⟩
    | ref hname hindex =>
      obtain ⟨sub, hsub, rfl⟩ := List.mem_map.mp hleg
      rw [Option.mem_toList] at hsub
      obtain ⟨later, other, hv, hother, hlater⟩ := definition_stands h hindex
      rw [hsub] at hother
      cases hother
      obtain ⟨entries, hentries, hm⟩ := entriesIn_get? hv
      exact ⟨⟨_, _, later, .definition hentries hm, hlater⟩, .reference rfl hsub⟩

lemma standing_node {id : NodeId} (h : Standing options document validator id) :
    ∃ node, validator.nodes[id]? = some node := by
  obtain ⟨position, path, schema, -, hstands⟩ := h
  cases hstands with
  | object _ _ _ hnode _ => exact ⟨_, hnode⟩

/-- How many nodes can follow one another from a node while the value stays as it is and no
reference is opened, the node included. -/
def weight (node : Node) : Nat :=
  match node.shape with
  | .discriminator _ _ | .ref _ => 2
  | _ => 1

lemma weight_bounds (node : Node) : 1 ≤ weight node ∧ weight node ≤ 2 := by
  unfold weight
  split <;> omega

/-- At `place`, there is room for `n` more references among at most `most` at any one place. -/
structure HasRoom (most n : Nat) (places : List Path) (place : Path) : Prop where
  above : ∀ p ∈ places, p <+: place
  here : places.count place + n ≤ most
  each : ∀ p, places.count p ≤ most

lemma hasRoom_reference {most n : Nat} {places : List Path} {place : Path}
    (h : HasRoom most (n + 1) places place) : HasRoom most n (place :: places) place := by
  refine ⟨fun p hp => ?_, ?_, fun p => ?_⟩
  · rcases List.mem_cons.mp hp with rfl | hp
    · exact List.prefix_refl p
    · exact h.above p hp
  · have hhere := h.here
    rw [List.count_cons_self]
    omega
  · by_cases hp : place = p
    · subst hp
      have hhere := h.here
      rw [List.count_cons_self]
      omega
    · rw [List.count_cons_of_ne hp]
      exact h.each p

lemma hasRoom_part {most n : Nat} {places : List Path} {place : Path}
    (h : HasRoom most n places place) (token : String) :
    HasRoom most most places (place ++ [token]) := by
  have hfresh : place ++ [token] ∉ places := by
    intro hm
    have hle := (h.above _ hm).length_le
    rw [List.length_append, List.length_singleton] at hle
    omega
  refine ⟨fun p hp => ?_, ?_, h.each⟩
  · exact (h.above p hp).trans (List.prefix_append place [token])
  · rw [List.count_eq_zero_of_not_mem hfresh]
    omega

/-- Fuel does not run out, and opened references stay within bounds. -/
def StaysWithin (most limit : Nat) : Event → Prop
  | .found _ => True
  | .opened places => places.length ≤ limit ∧ ∀ p, places.count p ≤ most
  | .exhausted => False

lemma staysWithin_mono {most limit larger : Nat} (hle : limit ≤ larger) {event : Event}
    (h : StaysWithin most limit event) : StaysWithin most larger event := by
  cases event with
  | found => trivial
  | opened places => exact ⟨Nat.le_trans h.1 hle, h.2⟩
  | exhausted => exact h

lemma mem_visit {node : Node} {places : List Path} {place : Path} {value : Json} {event : Event}
    (h : event ∈ visit node places place value) :
    (∃ errors, event = .found errors) ∨
      ∃ index, node.shape = .ref index ∧ event = .opened (place :: places) := by
  rcases List.mem_append.mp h with h | h
  · obtain ⟨error, -, rfl⟩ := List.mem_map.mp h
    exact .inl ⟨[error], rfl⟩
  rcases List.mem_append.mp h with h | h
  · split at h
    · obtain ⟨supplement, -, rfl⟩ := List.mem_map.mp h
      exact .inl ⟨_, rfl⟩
    · cases h
  · unfold openEvents at h
    split at h
    · exact .inr ⟨_, by assumption, List.mem_singleton.mp h⟩
    · cases h

lemma visit_staysWithin {node : Node} {places : List Path} {place : Path} {value : Json}
    {most n limit : Nat} (hroom : HasRoom most n places place)
    (hopen : ∀ index, node.shape = .ref index → 1 ≤ n) (hlimit : places.length + n ≤ limit) :
    ∀ event ∈ visit node places place value, StaysWithin most limit event := by
  intro event he
  rcases mem_visit he with ⟨errors, rfl⟩ | ⟨index, hshape, rfl⟩
  · trivial
  · have hn := hopen index hshape
    obtain ⟨m, rfl⟩ : ∃ m, n = m + 1 := ⟨n - 1, by omega⟩
    refine ⟨?_, (hasRoom_reference hroom).each⟩
    rw [List.length_cons]
    omega

/-- The walk of a value of `L` levels from a node that `n` references can follow: it goes on for
`L - 1` times the `M` definitions and two nodes more at each level, and opens no more than `n`
references at its own place and `M` at every other one. -/
lemma trace_staysWithin (h : IsCompiled options document validator) (fuel : Nat) :
    ∀ (places : List Path) (id : NodeId) (place : Path) (value : Json) (n : Nat) (node : Node),
      Standing options document validator id → validator.nodes[id]? = some node →
      Settles validator n id →
      HasRoom (Compile.definitionNames document).length n places place →
      (value.levels - 1) * ((Compile.definitionNames document).length + 2) + n + weight node ≤
        fuel →
      ∀ event ∈ trace validator fuel places id place value,
        StaysWithin (Compile.definitionNames document).length
          (places.length + n + (Compile.definitionNames document).length * (value.levels - 1))
          event := by
  generalize hmost : (Compile.definitionNames document).length = most
  induction fuel with
  | zero =>
    intro places id place value n node _ _ _ _ hfuel
    have hweight := (weight_bounds node).1
    omega
  | succ fuel ih =>
    intro places id place value n node hid hnode hsettles hroom hfuel event he
    rw [trace, hnode] at he
    dsimp only at he
    split at he
    · cases he
    rcases List.mem_append.mp he with he | he
    · refine visit_staysWithin hroom (fun index hshape => ?_) (by omega) event he
      cases n with
      | zero => exact absurd hshape (hsettles node index hnode)
      | succ n => omega
    obtain ⟨leg, hleg, he⟩ := List.mem_flatMap.mp he
    obtain ⟨hstanding, hmoves⟩ := leg_moves h hid hnode hleg
    obtain ⟨next, hnext⟩ := standing_node hstanding
    have hnextWeight := weight_bounds next
    -- A reference takes one of the `n`; after a mapping entry none can follow at this place; a part
    -- lies a level deeper, where all of them may follow again.
    cases hmoves with
    | @reference index sub hshape hsub =>
      cases n with
      | zero => exact absurd hshape (hsettles node index hnode)
      | succ n =>
        have hweight : weight node = 2 := by rw [weight, hshape]
        rw [List.append_nil] at he
        have hwithin := ih (place :: places) sub place value n next hstanding hnext
          (hsettles node index sub hnode hshape hsub) (hasRoom_reference hroom) (by omega) event he
        refine staysWithin_mono ?_ hwithin
        rw [List.length_cons]
        omega
    | @entry tag mapping sub other shape hshape hsub hother =>
      have hweight : weight node = 2 := by rw [weight, hshape]
      have hotherWeight : weight other = 1 := by rw [weight, hother]
      have hsettled : Settles validator 0 sub := settles_of_other hsub (by simp [hother]) 0
      have hhere := hroom.here
      rw [List.append_nil] at he
      have hwithin := ih places sub place value 0 other hstanding hsub hsettled
        ⟨hroom.above, by omega, hroom.each⟩ (by omega) event he
      exact staysWithin_mono (by omega) hwithin
    | @part token sub part hshape hlevels =>
      have hparts := levels_pos part
      have hfewer : part.levels - 1 + 1 ≤ value.levels - 1 := by omega
      have hscaled := Nat.mul_le_mul_right (most + 2) hfewer
      have hlimit := Nat.mul_le_mul_left most hfewer
      rw [Nat.add_mul, Nat.one_mul] at hscaled
      rw [Nat.mul_add, Nat.mul_one] at hlimit
      have hweight := (weight_bounds node).1
      have hsettled := standing_settles h hstanding
      rw [hmost] at hsettled
      have hwithin := ih places sub (place ++ [token]) part most next hstanding hnext hsettled
        (hasRoom_part hroom token) (by omega) event he
      exact staysWithin_mono (by omega) hwithin

lemma walkTrace_staysWithin (h : IsCompiled options document validator) {id : NodeId}
    (hid : Standing options document validator id) {value : Json} {fuel : Nat}
    (hfuel : validator.fuelFor value ≤ fuel) :
    ∀ event ∈ trace validator fuel [] id [] value,
      StaysWithin (Compile.definitionNames document).length
        ((Compile.definitionNames document).length * value.levels) event := by
  intro event he
  have hsize := definitions_size h
  obtain ⟨node, hnode⟩ := standing_node hid
  have hweight := (weight_bounds node).2
  have hlevels : value.levels = value.levels - 1 + 1 := by
    have hpos := levels_pos value
    omega
  have hfuel' : (value.levels - 1) * ((Compile.definitionNames document).length + 2) +
      (Compile.definitionNames document).length + weight node ≤ fuel := by
    rw [Validator.fuelFor, hsize, hlevels, Nat.add_mul, Nat.one_mul] at hfuel
    omega
  have hwithin := trace_staysWithin h fuel [] id [] value _ node hid hnode
    (standing_settles h hid) ⟨by simp, by simp, by simp⟩ hfuel' event he
  refine staysWithin_mono (le_of_eq ?_) hwithin
  conv => rhs; rw [hlevels, Nat.mul_add, Nat.mul_one]
  rw [List.length_nil]
  omega

lemma rootTrace_staysWithin (h : IsCompiled options document validator) {value : Json}
    {fuel : Nat} (hfuel : validator.fuelFor value ≤ fuel) :
    ∀ event ∈ rootTrace validator fuel value,
      StaysWithin (Compile.definitionNames document).length
        ((Compile.definitionNames document).length * value.levels) event :=
  walkTrace_staysWithin h (root_standing h) hfuel

lemma standing_not_reference
    (hnone : ∀ members, SchemaIn document (.object members) → Members.get? members "ref" = none)
    {id : NodeId} {node : Node} (hid : Standing options document validator id)
    (hnode : validator.nodes[id]? = some node) (index : Nat) : node.shape ≠ .ref index := by
  rintro hshape
  obtain ⟨position, path, schema, hin, hstands⟩ := hid
  cases hstands with
  | @object _ _ members keys shape _ hkeys _ _ hstored hform =>
    rw [hnode] at hstored
    cases hstored
    dsimp only at hshape
    subst hshape
    obtain ⟨target, href, -, -⟩ := reference?_of_shape hkeys hform
    rw [hnone members hin] at href
    cases href

lemma trace_opens_nothing (h : IsCompiled options document validator)
    (hnone : ∀ members, SchemaIn document (.object members) → Members.get? members "ref" = none)
    (fuel : Nat) : ∀ (places : List Path) (id : NodeId) (place : Path) (value : Json),
      Standing options document validator id →
      ∀ opened, .opened opened ∉ trace validator fuel places id place value := by
  induction fuel with
  | zero => simp [trace]
  | succ fuel ih =>
    intro places id place value hid opened he
    obtain ⟨node, hnode⟩ := standing_node hid
    have hshape := standing_not_reference hnone hid hnode
    rw [trace, hnode] at he
    dsimp only at he
    split at he
    · cases he
    rcases List.mem_append.mp he with he | he
    · rcases mem_visit he with ⟨errors, hfound⟩ | ⟨index, hindex, -⟩
      · cases hfound
      · exact hshape index hindex
    obtain ⟨leg, hleg, he⟩ := List.mem_flatMap.mp he
    exact ih _ _ _ _ (leg_moves h hid hnode hleg).1 opened he

end Compiled

lemma trace_succ (validator : Validator) (fuel : Nat) :
    ∀ (places : List Path) (id : NodeId) (place : Path) (value : Json),
      .exhausted ∉ trace validator fuel places id place value →
      trace validator (fuel + 1) places id place value =
        trace validator fuel places id place value := by
  induction fuel with
  | zero => exact fun _ _ _ _ h => absurd (List.mem_singleton_self _) h
  | succ fuel ih =>
    intro places id place value h
    rw [trace] at h
    rw [trace, trace]
    cases hn : validator.nodes[id]? with
    | none => rfl
    | some node =>
      rw [hn] at h
      dsimp only at h ⊢
      split
      · rfl
      · rename_i hskip
        rw [if_neg hskip] at h
        congr 1
        refine List.flatMap_congr fun leg hleg => ih _ _ _ _ fun he => h ?_
        exact List.mem_append_right _ (List.mem_flatMap.mpr ⟨leg, hleg, he⟩)

lemma trace_of_le (validator : Validator) {fuel more : Nat} (hle : fuel ≤ more)
    {places : List Path} {id : NodeId} {place : Path} {value : Json}
    (h : .exhausted ∉ trace validator fuel places id place value) :
    trace validator more places id place value = trace validator fuel places id place value := by
  induction more, hle using Nat.le_induction with
  | base => rfl
  | succ more hle ih =>
    rw [← ih]
    refine trace_succ validator more _ _ _ _ ?_
    rwa [ih]

/-- An event that does not end a walk with a limit on the depth. -/
def Passes (maxDepth : Nat) : Event → Prop
  | .found _ => True
  | .opened places => maxDepth = 0 ∨ places.length ≤ maxDepth
  | .exhausted => False

section Replays

variable {limits : Limits} {events : List Event}

lemma play_passes (errors : Array InstanceError) {event : Event}
    (h : Passes limits.maxDepth event) :
    play limits errors event = play { limits with maxDepth := 0 } errors event ∧
      (play limits errors event).1 ≠ .error .tooDeep := by
  cases event with
  | found more =>
    refine ⟨rfl, ?_⟩
    rw [play]
    split_ifs <;> simp
  | opened places =>
    have hnot : ¬ (limits.maxDepth ≠ 0 ∧ limits.maxDepth < places.length) := by
      rintro ⟨hne, hlt⟩
      rcases h with hz | hle
      · exact hne hz
      · omega
    rw [play, play, if_neg hnot, if_neg (by simp)]
    exact ⟨rfl, by simp⟩
  | exhausted => cases h

lemma replay_passes (h : ∀ event ∈ events, Passes limits.maxDepth event) :
    ∀ errors, replay limits errors events = replay { limits with maxDepth := 0 } errors events ∧
      (replay limits errors events).1 ≠ .error .tooDeep := by
  induction events with
  | nil => exact fun errors => ⟨rfl, by simp [replay]⟩
  | cons event rest ih =>
    intro errors
    obtain ⟨heq, hne⟩ := play_passes errors (h event List.mem_cons_self)
    rw [replay, replay, ← heq]
    generalize play limits errors event = result at hne
    rcases result with ⟨stop | _, more⟩
    · exact ⟨rfl, hne⟩
    · exact ih (fun other ho => h other (List.mem_cons_of_mem _ ho)) more

lemma replay_unlimited (h : ∀ event ∈ events, Passes 0 event) :
    ∀ errors, (replay {} errors events).1 = .ok () := by
  induction events with
  | nil => exact fun _ => rfl
  | cons event rest ih =>
    intro errors
    have hevent := h event List.mem_cons_self
    have hrest := ih fun other ho => h other (List.mem_cons_of_mem _ ho)
    cases event with
    | found more => exact hrest _
    | opened places => exact hrest _
    | exhausted => cases hevent

end Replays

/-- What happens on the walk of a value from the root, with the fuel that it is given. -/
def events (validator : Validator) (value : Json) : List Event :=
  rootTrace validator (validator.fuelFor value) value

lemma run_replays (validator : Validator) (limits : Limits) (value : Json) :
    validator.run limits value = replay limits #[] (events validator value) :=
  runWith_replays validator limits (validator.fuelFor value) value

/-- The walk of a value comes to an end, and within bounds, where `M` is the number of definitions
of the document and `L` the number of levels of the value. -/
structure WalkEnds (document : Json) (validator : Validator) (value : Json) (M L : Nat) :
    Prop where
  /-- Fuel is no limit. -/
  fuel : ∀ limits fuel, validator.fuelFor value ≤ fuel →
    validator.runWith limits fuel value = validator.run limits value
  ends : (validator.run {} value).1 = .ok ()
  /-- Whatever the limits, the walk goes through the same events, as far as it comes. -/
  replays : ∀ limits, validator.run limits value = replay limits #[] (events validator value)
  /-- At any moment there are at most `M * L` open references, and `M` that were opened at the
  same place in the instance. -/
  opens : ∀ places, .opened places ∈ events validator value →
    places.length ≤ M * L ∧ ∀ place, places.count place ≤ M
  unrefused : ∀ limits : Limits, max 1 (M * L) ≤ limits.maxDepth → ∃ errors,
    validator.validateWithin limits value = .ok errors ∧
      validator.validateWithin { limits with maxDepth := 0 } value = .ok errors
  referenceless : (∀ members, SchemaIn document (.object members) →
      Members.get? members "ref" = none) →
    ∀ limits, ∃ errors, validator.validateWithin limits value = .ok errors

lemma validateWithin_ok {validator : Validator} {limits : Limits} {value : Json}
    (h : (validator.run limits value).1 ≠ .error .tooDeep) :
    validator.validateWithin limits value = .ok (validator.run limits value).2 := by
  unfold Validator.validateWithin
  generalize validator.run limits value = result at h
  rcases result with ⟨(_ | _) | _, errors⟩
  · rfl
  · exact absurd rfl h
  · rfl

section Answers

variable {options : Options} {document : Json} {validator : Validator} {value : Json}

lemma events_last (h : IsCompiled options document validator) :
    .exhausted ∉ events validator value :=
  fun he => rootTrace_staysWithin h le_rfl _ he

lemma events_pass (h : IsCompiled options document validator) {maxDepth : Nat}
    (hopened : ∀ places, .opened places ∈ events validator value →
      maxDepth = 0 ∨ places.length ≤ maxDepth) :
    ∀ event ∈ events validator value, Passes maxDepth event := by
  intro event he
  cases event with
  | found => trivial
  | opened places => exact hopened places he
  | exhausted => exact events_last h he

lemma answers_undepthed (h : IsCompiled options document validator) {limits : Limits}
    (hopened : ∀ places, .opened places ∈ events validator value →
      limits.maxDepth = 0 ∨ places.length ≤ limits.maxDepth) :
    ∃ errors, validator.validateWithin limits value = .ok errors ∧
      validator.validateWithin { limits with maxDepth := 0 } value = .ok errors := by
  obtain ⟨heq, hne⟩ := replay_passes (events_pass h hopened) #[]
  rw [← run_replays, ← run_replays] at heq
  rw [← run_replays] at hne
  refine ⟨_, validateWithin_ok hne, ?_⟩
  rw [heq]
  exact validateWithin_ok (by rwa [heq] at hne)

end Answers

/-- Validation with a compiled document ends, however it was compiled. -/
theorem compiled_walk_ends {options : Options} {document : Json} {validator : Validator}
    (h : compile options document = .ok validator) (value : Json) :
    WalkEnds document validator value (Compile.definitionNames document).length value.levels := by
  have hcompiled := compiled_stands h
  have hwithin := rootTrace_staysWithin hcompiled (Nat.le_refl (validator.fuelFor value))
  refine ⟨?_, ?_, fun limits => run_replays validator limits value, fun places he => hwithin _ he,
    ?_, ?_⟩
  · intro limits fuel hfuel
    rw [run_replays, runWith_replays, events, rootTrace, rootTrace,
      trace_of_le validator hfuel (events_last hcompiled)]
  · rw [run_replays]
    exact replay_unlimited (events_pass hcompiled fun _ _ => .inl rfl) #[]
  · intro limits hdepth
    refine answers_undepthed hcompiled fun places he => .inr ?_
    have hle := (hwithin _ he).1
    omega
  · intro hnone limits
    have hno := trace_opens_nothing hcompiled hnone (validator.fuelFor value) [] validator.root []
      value (root_standing hcompiled)
    obtain ⟨errors, herrors, -⟩ :=
      answers_undepthed hcompiled fun places he => absurd he (hno places)
    exact ⟨errors, herrors⟩

/-- Lists of lists, by way of two definitions. -/
def nestedLists : Json :=
  .object [("definitions", .object
      [("list", .object [("ref", .string "items")]),
        ("items", .object [("elements", .object [("ref", .string "list")])])]),
    ("ref", .string "list")]

/-- With two levels and two definitions, the bound of four references is reached. -/
theorem nestedLists_walk_ends :
    ∃ validator, compile literalLibrary nestedLists = .ok validator ∧
      WalkEnds nestedLists validator (.array [.array []]) 2 2 ∧
      (validator.validateWithin { maxDepth := 3 } (.array [.array []])).isOk = false := by
  have hrefused : (compile literalLibrary nestedLists).toOption.map
      (fun validator => (validator.validateWithin { maxDepth := 3 } (.array [.array []])).isOk) =
        some false := by
    decide +kernel
  obtain ⟨validator, h, hrefused⟩ := compiles_with hrefused
  exact ⟨validator, h, compiled_walk_ends h (.array [.array []]), hrefused⟩

end JsonTypeDefinition.Proofs
