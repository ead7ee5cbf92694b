import JsonTypeDefinition.Proofs.ArenaInvariant
import JsonTypeDefinition.Proofs.Entries
import JsonTypeDefinition.Proofs.Limits
import JsonTypeDefinition.Proofs.SupplementRuns

/-!
# Walks in a frame

A walk that comes back leaves the place and the open references as it found them, and only adds to
the errors. What it adds is what a fresh walk finds, seen from the place where the walk began. It
does not depend on what was walked before, nor on what else is walked.
-/

namespace JsonTypeDefinition.Proofs

/-- An error as it is seen from further out, where `place` leads to the value. -/
def within (place : Path) (error : InstanceError) : InstanceError :=
  { error with instancePath := place ++ error.instancePath }

/-- An event as it is seen from further out, behind references opened at `before`. -/
def eventWithin (place : Path) (before : List Path) : Event → Event
  | .found errors => .found (errors.map (within place))
  | .opened places => .opened (places.map (place ++ ·) ++ before)
  | .exhausted => .exhausted

section Events

variable {events : List Event}

lemma within_nil (errors : List InstanceError) : errors.map (within []) = errors :=
  List.map_id errors

lemma eventWithin_inside (place down : Path) (before : List Path) (events : List Event) :
    (events.map (eventWithin down [])).map (eventWithin place before) =
      events.map (eventWithin (place ++ down) before) := by
  rw [List.map_map]
  refine List.map_congr_left fun event _ => ?_
  cases event with
  | found errors => simp [eventWithin, within, Function.comp_def]
  | opened places => simp [eventWithin, Function.comp_def]
  | exhausted => rfl

lemma exhausted_within {place : Path} {before : List Path} :
    .exhausted ∈ events.map (eventWithin place before) ↔ .exhausted ∈ events := by
  rw [List.mem_map]
  constructor
  · rintro ⟨event, he, hexhausted⟩
    cases event with
    | exhausted => exact he
    | _ => cases hexhausted
  · exact fun h => ⟨_, h, rfl⟩

lemma collect_within (place : Path) (before : List Path) (events : List Event) :
    collect (events.map (eventWithin place before)) =
      (collect events).map (List.map (within place)) := by
  induction events with
  | nil => rfl
  | cons event rest ih =>
    rw [List.map_cons]
    cases event with
    | found errors =>
      rw [eventWithin, collect, collect, ih]
      cases collect rest <;> simp
    | opened places => exact ih
    | exhausted => rfl

lemma collect_of_replay {limits : Limits} {errors more : Array InstanceError}
    (h : replay limits errors events = (.ok (), more)) :
    ∃ found, collect events = some found ∧ more = errors ++ found.toArray := by
  induction events generalizing errors with
  | nil =>
    cases h
    exact ⟨[], rfl, by simp⟩
  | cons event rest ih =>
    cases event with
    | found new =>
      rw [replay_found] at h
      split_ifs at h
      · cases h
      · obtain ⟨found, hfound, rfl⟩ := ih h
        exact ⟨new ++ found, by rw [collect, hfound, Option.map_some], by simp⟩
    | opened places =>
      rw [replay_opened] at h
      split_ifs at h
      · cases h
      · exact ih h
    | exhausted => cases h

end Events

section Places

variable (outer place : Path) (before places : List Path) (node : Node) (value : Json)

lemma ownErrors_within :
    ownErrors node (outer ++ place) value = (ownErrors node place value).map (within outer) := by
  unfold ownErrors
  cases node.shape with
  | empty | ref index => rfl
  | type type =>
    dsimp only
    cases type.violation? value <;> rfl
  | enum variants =>
    cases value with
    | string s =>
      dsimp only
      split <;> rfl
    | _ => rfl
  | elements sub | values sub => cases value <;> rfl
  | properties shape =>
    cases value with
    | object members => simp [within, Function.comp_def]
    | _ => rfl
  | discriminator tag mapping =>
    cases value with
    | object members =>
      dsimp only
      cases Members.get? members tag with
      | none => rfl
      | some found =>
        cases found with
        | string s =>
          dsimp only
          split <;> simp [within]
        | _ => simp [within]
    | _ => rfl

lemma visit_within :
    visit node (places.map (outer ++ ·) ++ before) (outer ++ place) value =
      (visit node places place value).map (eventWithin outer before) := by
  have hown : (ownErrors node (outer ++ place) value).map (fun error => Event.found [error]) =
      ((ownErrors node place value).map fun error => .found [error]).map
        (eventWithin outer before) := by
    simp [ownErrors_within, eventWithin, Function.comp_def]
  have hsupplements : supplementEvents node (outer ++ place) value =
      (supplementEvents node place value).map (eventWithin outer before) := by
    simp [supplementEvents, eventWithin, within, Function.comp_def]
  have hopen : openEvents node (places.map (outer ++ ·) ++ before) (outer ++ place) =
      (openEvents node places place).map (eventWithin outer before) := by
    unfold openEvents
    split <;> rfl
  rw [visit, visit, hown, hsupplements, hopen, List.map_append, List.map_append]
  split <;> rfl

/-- What happens on a walk does not depend on where it begins: all is seen from there. -/
lemma trace_within (validator : Validator) (outer : Path) (before : List Path) (fuel : Nat) :
    ∀ (places : List Path) (id : NodeId) (place : Path) (value : Json),
      trace validator fuel (places.map (outer ++ ·) ++ before) id (outer ++ place) value =
        (trace validator fuel places id place value).map (eventWithin outer before) := by
  induction fuel with
  | zero => exact fun _ _ _ _ => rfl
  | succ fuel ih =>
    intro places id place value
    cases hnode : validator.nodes[id]? with
    | none => simp [trace, hnode]
    | some node =>
      rw [trace_node hnode, trace_node hnode]
      split
      · rfl
      rw [List.map_append, visit_within, legEvents, legEvents, List.map_flatMap]
      congr 1
      refine List.flatMap_congr fun leg _ => ?_
      -- A reference that is opened on the way comes in front, so that those in `before` stay last.
      have hplaces : leg.places (places.map (outer ++ ·) ++ before) (outer ++ place) =
          (leg.places places place).map (outer ++ ·) ++ before := by
        unfold Leg.places
        split <;> rfl
      rw [hplaces, List.append_assoc]
      exact ih _ _ _ _

lemma trace_fresh (validator : Validator) (fuel : Nat) (id : NodeId) :
    trace validator fuel before id place value =
      (trace validator fuel [] id [] value).map (eventWithin place before) := by
  have h := trace_within validator place before fuel [] id [] value
  rwa [List.map_nil, List.nil_append, List.append_nil] at h

end Places

/-- What happens on legs, one after another. -/
def eventsOn (validator : Validator) (fuel : Nat) (before : Leg → List Path) (legs : List Leg) :
    List Event :=
  legs.flatMap fun leg =>
    (trace validator fuel [] leg.id [] leg.value).map (eventWithin leg.down (before leg))

lemma exhausted_on {validator : Validator} {fuel : Nat} {before : Leg → List Path}
    {legs : List Leg} : .exhausted ∈ eventsOn validator fuel before legs ↔
      ∃ leg ∈ legs, .exhausted ∈ trace validator fuel [] leg.id [] leg.value := by
  simp only [eventsOn, List.mem_flatMap, exhausted_within]

lemma legEvents_fresh (validator : Validator) (fuel : Nat) (node : Node) (value : Json) :
    legEvents validator fuel [] node [] value =
      eventsOn validator fuel (fun leg => leg.places [] []) (legs validator node value) :=
  List.flatMap_congr fun leg _ => trace_fresh leg.down _ leg.value validator fuel leg.id

/-- Wherever it begins, `walk` plays `events` as they are seen from there. -/
def PlaysAnywhere (limits : Limits) (walk : Walk Unit) (events : List Event) : Prop :=
  ∀ (before : List Path) (place : Path),
    Plays limits walk place before.length (events.map (eventWithin place before)) ()

/-- The state after a walk that comes back to where it began, with what it found there. -/
def withFound (state : WalkState) (found : List InstanceError) : WalkState :=
  { state with errors := state.errors ++ (found.map (within state.place)).toArray }

/-- From every state, the walk comes back with these errors. -/
def ComesBackWith (walk : Walk Unit) (found : List InstanceError) : Prop :=
  ∀ state, walk.run.run state = (.ok (), withFound state found)

def OnlyComesBackWith (walk : Walk Unit) (found : List InstanceError) : Prop :=
  ∀ state later, walk.run.run state = (.ok (), later) → later = withFound state found

section Anywhere

variable {limits : Limits} {walk : Walk Unit} {events : List Event} {found : List InstanceError}

lemma playsAnywhere_walk (validator : Validator) (limits : Limits) (fuel : Nat) (id : NodeId)
    (value : Json) :
    PlaysAnywhere limits (validator.walk limits fuel id value)
      (trace validator fuel [] id [] value) := by
  intro before place
  rw [← trace_fresh]
  exact plays_walk validator limits fuel before id place value

lemma playsAnywhere_inside (h : PlaysAnywhere limits walk events) (down : Path) :
    PlaysAnywhere limits (down.foldr Walk.inside walk) (events.map (eventWithin down [])) := by
  intro before place
  rw [eventWithin_inside]
  induction down generalizing place with
  | nil =>
    rw [List.append_nil]
    exact h before place
  | cons token rest ih =>
    have hinner := ih (place ++ [token])
    rw [List.append_assoc, List.singleton_append] at hinner
    exact plays_inside hinner

lemma playsAnywhere_goOn (validator : Validator) (limits : Limits) (fuel : Nat) (legs : List Leg) :
    PlaysAnywhere limits (goOn (validator.walk limits fuel) legs)
      (eventsOn validator fuel (fun _ => []) legs) := by
  intro before place
  rw [eventsOn, List.map_flatMap]
  refine plays_forM fun leg _ => ?_
  have hwalk := playsAnywhere_walk validator limits fuel leg.id leg.value
  exact playsAnywhere_inside hwalk leg.down before place

/-- Only their number is kept of the references that are open, so that any places will do. -/
lemma plays_from (h : PlaysAnywhere limits walk events) (state : WalkState) :
    Plays limits walk state.place state.depth
      (events.map (eventWithin state.place (List.replicate state.depth []))) () := by
  have hplays := h (List.replicate state.depth []) state.place
  rwa [List.length_replicate] at hplays

lemma same_answer {other : Walk Unit} (h : PlaysAnywhere limits walk events)
    (ho : PlaysAnywhere limits other events) (state : WalkState) :
    (walk.run.run state).1 = (other.run.run state).1 ∧
      (walk.run.run state).2.errors = (other.run.run state).2.errors := by
  have hwalk := plays_answer (plays_from h state) state.errors
  have hother := plays_answer (plays_from ho state) state.errors
  exact Prod.mk.inj (hwalk.trans hother.symm)

lemma comesBack (h : PlaysAnywhere {} walk events) (hfound : collect events = some found) :
    ComesBackWith walk found := by
  intro state
  have hall (before : List Path) : collect (events.map (eventWithin state.place before)) =
      some (found.map (within state.place)) := by
    rw [collect_within, hfound, Option.map_some]
  have hrun := plays_from h state state.errors
  rw [replay_collect (hall _)] at hrun
  exact hrun

lemma onlyComesBack (h : PlaysAnywhere limits walk events)
    (hfound : .exhausted ∉ events → collect events = some found) :
    OnlyComesBackWith walk found := by
  intro state later hback
  have hrun := plays_from h state state.errors
  generalize hreplay : replay limits state.errors _ = result at hrun
  rcases result with ⟨_ | _, more⟩
  · obtain ⟨other, hstopped, -⟩ := hrun
    rw [hback] at hstopped
    cases hstopped
  · obtain ⟨all, hall, rfl⟩ := collect_of_replay hreplay
    have hlast : .exhausted ∉ events := fun he => last_of_collect hall (exhausted_within.mpr he)
    rw [collect_within, hfound hlast, Option.map_some] at hall
    have hlater := hback.symm.trans hrun
    rw [← Option.some.inj hall] at hlater
    exact congrArg Prod.snd hlater

end Anywhere

/-- What a fresh walk of a value from a node finds, without limits. -/
def errorsFrom (validator : Validator) (id : NodeId) (value : Json) : List InstanceError :=
  ((validator.walk {} (validator.fuelFor value) id value).run.run {}).2.errors.toList

def errorsOn (validator : Validator) (legs : List Leg) : List InstanceError :=
  legs.flatMap fun leg => (errorsFrom validator leg.id leg.value).map (within leg.down)

/-- The walks of a validator only add errors to what there was before, and each of them adds what a
fresh walk finds. -/
structure Framed (validator : Validator) : Prop where
  root : ∀ value, (validator.validate value).toList = errorsFrom validator validator.root value
  /-- Fuel is no limit. -/
  fuel : ∀ limits fuel id value state, id < validator.nodes.size → validator.fuelFor value ≤ fuel →
    let enough := (validator.walk limits (validator.fuelFor value) id value).run.run state
    let more := (validator.walk limits fuel id value).run.run state
    more.1 = enough.1 ∧ more.2.errors = enough.2.errors
  unlimited : ∀ fuel id value, id < validator.nodes.size → validator.fuelFor value ≤ fuel →
    ComesBackWith (validator.walk {} fuel id value) (errorsFrom validator id value)
  /-- Limits and fuel can keep a walk from coming back, and change nothing of one that does. -/
  limited : ∀ limits fuel id value, id < validator.nodes.size →
    OnlyComesBackWith (validator.walk limits fuel id value) (errorsFrom validator id value)
  /-- A walk finds what its node finds, and then what fresh walks of the elements, properties or
  values find, or of wherever else the value goes. -/
  parts : ∀ id node value, validator.nodes[id]? = some node → errorsFrom validator id value =
    if node.nullable && value.kind = .null then []
    else nodeErrors node [] value ++ errorsOn validator (legs validator node value)
  /-- Any legs, in any order, add each its own errors, whatever was found before. -/
  siblings : ∀ fuel legs,
    (∀ leg ∈ legs, leg.id < validator.nodes.size ∧ validator.fuelFor leg.value ≤ fuel) →
      ComesBackWith (goOn (validator.walk {} fuel) legs) (errorsOn validator legs)
  limitedSiblings : ∀ limits fuel legs, (∀ leg ∈ legs, leg.id < validator.nodes.size) →
    OnlyComesBackWith (goOn (validator.walk limits fuel) legs) (errorsOn validator legs)

section Compiled

variable {options : Options} {document : Json} {validator : Validator} {id : NodeId} {value : Json}
  {fuel : Nat}

lemma trace_lasts (h : IsCompiled options document validator)
    (hid : Standing options document validator id) (hfuel : validator.fuelFor value ≤ fuel) :
    .exhausted ∉ trace validator fuel [] id [] value :=
  fun he => walkTrace_staysWithin h hid hfuel _ he

lemma trace_enough (h : IsCompiled options document validator)
    (hid : Standing options document validator id)
    (hlast : .exhausted ∉ trace validator fuel [] id [] value) :
    trace validator fuel [] id [] value =
      trace validator (validator.fuelFor value) [] id [] value := by
  rcases Nat.le_total fuel (validator.fuelFor value) with hle | hle
  · exact (trace_of_le validator hle hlast).symm
  · exact trace_of_le validator hle (trace_lasts h hid le_rfl)

lemma collect_fresh (h : IsCompiled options document validator)
    (hid : Standing options document validator id)
    (hlast : .exhausted ∉ trace validator fuel [] id [] value) :
    collect (trace validator fuel [] id [] value) = some (errorsFrom validator id value) := by
  obtain ⟨found, hfound⟩ := collect_isSome hlast
  have hback : ComesBackWith (validator.walk {} (validator.fuelFor value) id value) found := by
    refine comesBack (playsAnywhere_walk validator {} _ id value) ?_
    rw [← trace_enough h hid hlast, hfound]
  have herrors : errorsFrom validator id value = found := by
    rw [errorsFrom, hback {}, withFound, within_nil]
    simp
  rw [hfound, herrors]

lemma collect_on (h : IsCompiled options document validator) {legs : List Leg}
    {before : Leg → List Path} (hids : ∀ leg ∈ legs, Standing options document validator leg.id)
    (hlast : .exhausted ∉ eventsOn validator fuel before legs) :
    collect (eventsOn validator fuel before legs) = some (errorsOn validator legs) := by
  refine collect_flatMap_eq fun leg hleg => ?_
  have hlegLast : .exhausted ∉ trace validator fuel [] leg.id [] leg.value :=
    fun he => hlast (exhausted_on.mpr ⟨leg, hleg, he⟩)
  rw [collect_within, collect_fresh h (hids leg hleg) hlegLast, Option.map_some]

lemma errorsFrom_eq (h : IsCompiled options document validator)
    (hid : Standing options document validator id) {node : Node}
    (hnode : validator.nodes[id]? = some node) : errorsFrom validator id value =
      if node.nullable && value.kind = .null then []
      else nodeErrors node [] value ++ errorsOn validator (legs validator node value) := by
  have hlast := trace_lasts h hid (Nat.le_succ (validator.fuelFor value))
  have hfresh := collect_fresh h hid hlast
  rw [trace_node hnode, legEvents_fresh] at hlast hfresh
  split_ifs at hlast hfresh ⊢
  · exact (Option.some.inj hfresh).symm
  · have hids : ∀ leg ∈ legs validator node value, Standing options document validator leg.id :=
      fun leg hleg => (leg_moves h hid hnode hleg).1
    have hlegs := collect_on h hids fun he => hlast (List.mem_append_right _ he)
    rw [collect_append, collect_nodeVisit, hlegs] at hfresh
    exact (Option.some.inj hfresh).symm

end Compiled

/-- The walks of a compiled document are framed, however it was compiled. -/
theorem compiled_framed {options : Options} {document : Json} {validator : Validator}
    (hd : distinctKeys document = true) (h : compile options document = .ok validator) :
    Framed validator := by
  have hcompiled := compiled_stands h
  have hstands (id : Nat) (hid : id < validator.nodes.size) := standing_of_id h hd hid
  refine ⟨fun value => rfl, fun limits fuel id value state hid hfuel => ?_,
    fun fuel id value hid hfuel => ?_, fun limits fuel id value hid => ?_,
    fun id node value hnode => ?_, fun fuel legs hlegs => ?_, fun limits fuel legs hids => ?_⟩
  · have hlast := trace_lasts hcompiled (hstands id hid) hfuel
    have hplays := playsAnywhere_walk validator limits fuel id value
    rw [trace_enough hcompiled (hstands id hid) hlast] at hplays
    exact same_answer hplays (playsAnywhere_walk validator limits _ id value) state
  · have hlast := trace_lasts hcompiled (hstands id hid) hfuel
    exact comesBack (playsAnywhere_walk validator {} fuel id value)
      (collect_fresh hcompiled (hstands id hid) hlast)
  · exact onlyComesBack (playsAnywhere_walk validator limits fuel id value)
      (collect_fresh hcompiled (hstands id hid))
  · have hid := (Array.getElem?_eq_some_iff.mp hnode).choose
    exact errorsFrom_eq hcompiled (hstands id hid) hnode
  · have hids := fun leg hleg => hstands leg.id (hlegs leg hleg).1
    have hlast : .exhausted ∉ eventsOn validator fuel (fun _ => []) legs := by
      rw [exhausted_on]
      rintro ⟨leg, hleg, he⟩
      exact trace_lasts hcompiled (hids leg hleg) (hlegs leg hleg).2 he
    exact comesBack (playsAnywhere_goOn validator {} fuel legs) (collect_on hcompiled hids hlast)
  · exact onlyComesBack (playsAnywhere_goOn validator limits fuel legs)
      (collect_on hcompiled fun leg hleg => hstands leg.id (hids leg hleg))

/-- A walk that has come to the first of several links, behind three references, with an error from
elsewhere. -/
def atFirstLink : WalkState :=
  ⟨["links", "0"], 3, #[⟨["type"], ["owner"], .typeMismatch .string .null⟩]⟩

/-- From there the links take two more references. The walk comes back to the first link and three
references, and each of the names that are missed is missed behind that link. -/
theorem chain_framed :
    ∃ validator, distinctKeys chain = true ∧
      compile literalLibrary chain = .ok validator ∧ Framed validator ∧
      (errorsFrom validator 2 namelessLinks).map (·.instancePath) =
        [["name"], ["next", "name"], ["next", "next", "name"]] ∧
      let ended := (validator.walk { maxDepth := 5, maxErrors := 5 } 12 2 namelessLinks).run.run
        atFirstLink
      (ended.1.isOk, ended.2.place, ended.2.depth, ended.2.errors.toList.map (·.instancePath)) =
        (true, ["links", "0"], 3, [["owner"], ["links", "0", "name"],
          ["links", "0", "next", "name"], ["links", "0", "next", "next", "name"]]) := by
  have hd : distinctKeys chain = true := by decide
  have hfresh : (compile literalLibrary chain).toOption.map
      (fun validator => (errorsFrom validator 2 namelessLinks).map (·.instancePath)) =
        some [["name"], ["next", "name"], ["next", "next", "name"]] := by
    decide +kernel
  have hended : (compile literalLibrary chain).toOption.map
      (fun validator =>
        let ended := (validator.walk { maxDepth := 5, maxErrors := 5 } 12 2 namelessLinks).run.run
          atFirstLink
        (ended.1.isOk, ended.2.place, ended.2.depth,
          ended.2.errors.toList.map (·.instancePath))) =
        some (true, ["links", "0"], 3, [["owner"], ["links", "0", "name"],
          ["links", "0", "next", "name"], ["links", "0", "next", "next", "name"]]) := by
    decide +kernel
  obtain ⟨validator, h, hfresh⟩ := compiles_with hfresh
  rw [h] at hended
  exact ⟨validator, hd, h, compiled_framed hd h, hfresh, Option.some.inj hended⟩

end JsonTypeDefinition.Proofs
