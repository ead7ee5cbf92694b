import JsonTypeDefinition.Validation.Walk
import Mathlib.Data.List.Basic
import Mathlib.Tactic.Lemma

/-!
# Walks as events

`trace` lists what happens on a walk without limits, and `replay` goes through such a list until a
limit is met. Every walk is the replay of its trace, so that what limits do can be told apart from
where a value goes.
-/

namespace JsonTypeDefinition.Proofs

inductive Event where
  /-- Errors are found together. -/
  | found (errors : List InstanceError)
  /-- A reference is opened; the places where the open ones were, the new one first. -/
  | opened (places : List Path)
  /-- There is no fuel left. -/
  | exhausted

/-- What a node itself finds wrong with a value at `place`, in order. -/
def ownErrors (node : Node) (place : Path) (value : Json) : List InstanceError :=
  let atForm (violation : Violation) : List InstanceError := [⟨node.formPath, place, violation⟩]
  match node.shape with
  | .empty => []
  | .type type =>
    match type.violation? value with
    | none => []
    | some violation => atForm violation
  | .enum variants =>
    match value with
    | .string s => if variants.contains s then [] else atForm (.enumOtherVariant s)
    | _ => atForm (.enumNotString value.kind)
  | .elements _ =>
    match value with
    | .array _ => []
    | _ => atForm (.notArray value.kind)
  | .properties shape =>
    match value with
    | .object members =>
      let missing := shape.required.filter fun key => !Members.has members key
      let unexpected := (Members.keys members).filter fun key =>
        !shape.additional && (shape.subs.lookup key).isNone && shape.tag != some key
      missing.map (fun key =>
          ⟨node.schemaPath ++ ["properties", key], place, .propertyMissing key⟩) ++
        unexpected.map fun key => ⟨node.schemaPath, place ++ [key], .propertyUnexpected key⟩
    | _ =>
      let key := if shape.hasRequiredKey then "properties" else "optionalProperties"
      [⟨node.schemaPath ++ [key], place, .propertiesNotObject value.kind⟩]
  | .values _ =>
    match value with
    | .object _ => []
    | _ => atForm (.valuesNotObject value.kind)
  | .discriminator tag mapping =>
    match value with
    | .object members =>
      match Members.get? members tag with
      | none => atForm (.tagMissing tag)
      | some (.string s) =>
        if (mapping.lookup s).isSome then []
        else [⟨node.schemaPath ++ ["mapping"], place ++ [tag], .tagUnmapped s⟩]
      | some other => [⟨node.formPath, place ++ [tag], .tagNotString other.kind⟩]
    | _ => atForm (.discriminatorNotObject value.kind)
  | .ref _ => []

/-- The mapping entry that the tag of a value selects. -/
def selected? (tag : String) (mapping : List (String × NodeId)) (value : Json) : Option NodeId := do
  let members ← value.object?
  let s ← (← Members.get? members tag).string?
  mapping.lookup s

/-- Whether the supplements run on a value. A value of the wrong kind does not reach them; that the
enum form's supplements see every value is the one exception. -/
def runsSupplements (node : Node) (value : Json) : Bool :=
  match node.shape with
  | .empty | .enum _ | .ref _ => true
  | .type type => (type.violation? value).isNone
  | .elements _ => value.array?.isSome
  | .properties _ | .values _ => value.object?.isSome
  | .discriminator tag mapping => (selected? tag mapping value).isSome

/-- What the supplements find wrong with a value at `place`, each for itself. -/
def supplementEvents (node : Node) (place : Path) (value : Json) : List Event :=
  node.supplements.map fun supplement =>
    .found ((supplement value).map fun violation => ⟨node.supplementPath, place, violation⟩)

/-- The opening of a reference, at a node that is one. -/
def openEvents (node : Node) (places : List Path) (place : Path) : List Event :=
  match node.shape with
  | .ref _ => [.opened (place :: places)]
  | _ => []

def visit (node : Node) (places : List Path) (place : Path) (value : Json) : List Event :=
  (ownErrors node place value).map (fun error => .found [error]) ++
    ((if runsSupplements node value then supplementEvents node place value else []) ++
      openEvents node places place)

/-- A leg of a walk: where a value or a part of it goes next. -/
structure Leg where
  /-- Whether it goes through a reference. -/
  opens : Bool
  /-- The way from the value to the part. -/
  down : Path
  id : NodeId
  value : Json

/-- Where a value goes from a node, in order. -/
def legs (validator : Validator) (node : Node) (value : Json) : List Leg :=
  match node.shape with
  | .elements sub =>
    (value.array?.getD []).zipIdx.map fun (item, i) => ⟨false, [toString i], sub, item⟩
  | .values sub => (value.object?.getD []).map fun (key, part) => ⟨false, [key], sub, part⟩
  | .properties shape =>
    (value.object?.getD []).flatMap fun (key, part) =>
      (shape.subs.lookup key).toList.map fun sub => ⟨false, [key], sub, part⟩
  | .discriminator tag mapping =>
    (selected? tag mapping value).toList.map fun sub => ⟨false, [], sub, value⟩
  | .ref index => validator.definitions[index]?.toList.map fun sub => ⟨true, [], sub, value⟩
  | .empty | .type _ | .enum _ => []

/-- The places of open references after a leg from `place`. -/
def Leg.places (leg : Leg) (places : List Path) (place : Path) : List Path :=
  if leg.opens then place :: places else places

/-- What happens on a walk of a value at `place` from a node, behind references opened at
`places`. -/
def trace (validator : Validator) : Nat → List Path → NodeId → Path → Json → List Event
  | 0, _, _, _, _ => [.exhausted]
  | fuel + 1, places, id, place, value =>
    match validator.nodes[id]? with
    | none => []
    | some node =>
      if node.nullable && value.kind = .null then []
      else visit node places place value ++ (legs validator node value).flatMap fun leg =>
        trace validator fuel (leg.places places place) leg.id (place ++ leg.down) leg.value

def legEvents (validator : Validator) (fuel : Nat) (places : List Path) (node : Node) (place : Path)
    (value : Json) : List Event :=
  (legs validator node value).flatMap fun leg =>
    trace validator fuel (leg.places places place) leg.id (place ++ leg.down) leg.value

lemma trace_node {validator : Validator} {fuel : Nat} {id : NodeId} {node : Node}
    (hnode : validator.nodes[id]? = some node) (places : List Path) (place : Path) (value : Json) :
    trace validator (fuel + 1) places id place value =
      if node.nullable && value.kind = .null then []
      else visit node places place value ++ legEvents validator fuel places node place value := by
  rw [trace, hnode]
  rfl

lemma flatMap_optional {α β γ : Type} (found : Option α) (f : α → β) (g : β → List γ) :
    (found.toList.map f).flatMap g = ((found.map fun a => g (f a)).getD []) := by
  cases found with
  | none => rfl
  | some a => exact List.append_nil _

def play (limits : Limits) (errors : Array InstanceError) :
    Event → Except Stop Unit × Array InstanceError
  | .found more =>
    if limits.maxErrors ≠ 0 ∧ limits.maxErrors ≤ (errors ++ more.toArray).size then
      (.error .enoughErrors, (errors ++ more.toArray).take limits.maxErrors)
    else (.ok (), errors ++ more.toArray)
  | .opened places =>
    if limits.maxDepth ≠ 0 ∧ limits.maxDepth < places.length then (.error .tooDeep, errors)
    else (.ok (), errors)
  | .exhausted => (.error .tooDeep, errors)

/-- Goes through events until a limit is met. -/
def replay (limits : Limits) : Array InstanceError → List Event →
    Except Stop Unit × Array InstanceError
  | errors, [] => (.ok (), errors)
  | errors, event :: rest =>
    match play limits errors event with
    | (.ok (), more) => replay limits more rest
    | (.error stop, more) => (.error stop, more)

lemma replay_append (limits : Limits) (errors : Array InstanceError) (events later : List Event) :
    replay limits errors (events ++ later) =
      match replay limits errors events with
      | (.ok (), more) => replay limits more later
      | (.error stop, more) => (.error stop, more) := by
  induction events generalizing errors with
  | nil => rfl
  | cons event rest ih =>
    rw [List.cons_append, replay, replay]
    rcases play limits errors event with ⟨_ | _, more⟩
    · rfl
    · exact ih more

/-- `walk` ends as the replay of `events` does, and if it comes to an end by itself, then with `a`,
where it began, and behind the same number of references. -/
def Plays {α : Type} (limits : Limits) (walk : Walk α) (place : Path) (depth : Nat)
    (events : List Event) (a : α) : Prop :=
  ∀ errors, match replay limits errors events with
    | (.ok (), more) => walk.run.run ⟨place, depth, errors⟩ = (.ok a, ⟨place, depth, more⟩)
    | (.error stop, more) =>
      ∃ state, walk.run.run ⟨place, depth, errors⟩ = (.error stop, state) ∧ state.errors = more

section Rules

variable {α β : Type} {limits : Limits} {place : Path} {depth : Nat} {events later : List Event}

lemma plays_pure (a : α) : Plays limits (pure a) place depth [] a :=
  fun _ => rfl

lemma plays_exhausted (a : α) : Plays limits (throw .tooDeep) place depth [.exhausted] a :=
  fun errors => ⟨⟨place, depth, errors⟩, rfl, rfl⟩

lemma run_bind (walk : Walk α) (next : α → Walk β) (state : WalkState) :
    (walk >>= next).run.run state =
      match walk.run.run state with
      | (.ok a, later) => (next a).run.run later
      | (.error stop, later) => (.error stop, later) := by
  change (match walk.run.run state with
    | (result, later) => (ExceptT.bindCont next result).run later) = _
  rcases walk.run.run state with ⟨_ | _, later⟩ <;> rfl

lemma plays_bind {walk : Walk α} {next : α → Walk β} {a : α} {c : β}
    (hw : Plays limits walk place depth events a)
    (hn : Plays limits (next a) place depth later c) :
    Plays limits (walk >>= next) place depth (events ++ later) c := by
  intro errors
  have hfirst := hw errors
  rw [run_bind, replay_append]
  generalize replay limits errors events = result at hfirst ⊢
  rcases result with ⟨_ | _, more⟩
  · obtain ⟨state, hs, he⟩ := hfirst
    rw [hs]
    exact ⟨state, rfl, he⟩
  · dsimp only at hfirst ⊢
    rw [hfirst]
    exact hn more

lemma run_checkCount (limits : Limits) (state : WalkState) :
    (Walk.checkCount limits).run.run state =
      if limits.maxErrors ≠ 0 ∧ limits.maxErrors ≤ state.errors.size then
        (.error .enoughErrors, { state with errors := state.errors.take limits.maxErrors })
      else (.ok (), state) := by
  change (if limits.maxErrors ≠ 0 ∧ limits.maxErrors ≤ state.errors.size then _ else _ :
    Walk Unit).run.run state = _
  split <;> rfl

lemma plays_report (schemaPath : Path) (violations : List Violation) :
    Plays limits (Walk.report limits schemaPath violations) place depth
      [.found (violations.map fun violation => ⟨schemaPath, place, violation⟩)] () := by
  intro errors
  have hrun : (Walk.report limits schemaPath violations).run.run ⟨place, depth, errors⟩ =
      (Walk.checkCount limits).run.run ⟨place, depth, errors ++
        (violations.map fun violation => ⟨schemaPath, place, violation⟩).toArray⟩ := rfl
  rw [hrun, run_checkCount, replay, play]
  split_ifs
  · exact ⟨_, rfl, rfl⟩
  · rfl

lemma plays_inside {walk : Walk α} {a : α} {token : String}
    (hw : Plays limits walk (place ++ [token]) depth events a) :
    Plays limits (Walk.inside token walk) place depth events a := by
  intro errors
  have hinner := hw errors
  -- The token is taken off again only if the walk inside comes to its end.
  have hrun : (Walk.inside token walk).run.run ⟨place, depth, errors⟩ =
      match walk.run.run ⟨place ++ [token], depth, errors⟩ with
      | (.ok a, later) => (.ok a, { later with place := later.place.dropLast })
      | (.error stop, later) => (.error stop, later) := by
    have hmoved : (Walk.inside token walk).run.run ⟨place, depth, errors⟩ =
        (walk >>= fun a => do
          modify fun state => { state with place := state.place.dropLast }
          return a : Walk α).run.run ⟨place ++ [token], depth, errors⟩ := rfl
    rw [hmoved, run_bind]
    rcases walk.run.run ⟨place ++ [token], depth, errors⟩ with ⟨_ | _, later⟩ <;> rfl
  rw [hrun]
  generalize replay limits errors events = result at hinner ⊢
  rcases result with ⟨_ | _, more⟩
  · obtain ⟨state, hs, he⟩ := hinner
    rw [hs]
    exact ⟨state, rfl, he⟩
  · dsimp only at hinner ⊢
    rw [hinner]
    simp

lemma plays_behindReference {walk : Walk Unit} {places : List Path}
    (hplaces : places.length = depth + 1)
    (hw : Plays limits walk place (depth + 1) events ()) :
    Plays limits (Walk.behindReference limits walk) place depth (.opened places :: events) () := by
  intro errors
  have hinner := hw errors
  have hrun : (Walk.behindReference limits walk).run.run ⟨place, depth, errors⟩ =
      if limits.maxDepth ≠ 0 ∧ limits.maxDepth < depth + 1 then
        (.error .tooDeep, ⟨place, depth + 1, errors⟩)
      else match walk.run.run ⟨place, depth + 1, errors⟩ with
      | (.ok (), later) => (.ok (), { later with depth := later.depth - 1 })
      | (.error stop, later) => (.error stop, later) := by
    have hback : (Walk.behindReference limits walk).run.run ⟨place, depth, errors⟩ =
        if limits.maxDepth ≠ 0 ∧ limits.maxDepth < depth + 1 then
          (.error .tooDeep, ⟨place, depth + 1, errors⟩)
        else (walk >>= fun _ => modify fun state => { state with depth := state.depth - 1 } :
          Walk Unit).run.run ⟨place, depth + 1, errors⟩ := by
      change (if limits.maxDepth ≠ 0 ∧ limits.maxDepth < depth + 1 then _ else _ :
        Walk Unit).run.run ⟨place, depth + 1, errors⟩ = _
      split <;> rfl
    rw [hback, run_bind]
    rcases walk.run.run ⟨place, depth + 1, errors⟩ with ⟨_ | _, later⟩ <;> rfl
  rw [hrun, replay, play, hplaces]
  split_ifs
  · exact ⟨_, rfl, rfl⟩
  · dsimp only
    generalize replay limits errors events = result at hinner ⊢
    rcases result with ⟨_ | _, more⟩
    · obtain ⟨state, hs, he⟩ := hinner
      rw [hs]
      exact ⟨state, rfl, he⟩
    · dsimp only at hinner ⊢
      rw [hinner]
      rfl

lemma plays_forM {γ : Type} {items : List γ} {walk : γ → Walk Unit} {eventsOf : γ → List Event}
    (h : ∀ item ∈ items, Plays limits (walk item) place depth (eventsOf item) ()) :
    Plays limits (items.forM walk) place depth (items.flatMap eventsOf) () := by
  induction items with
  | nil => exact plays_pure ()
  | cons item rest ih =>
    rw [List.flatMap_cons]
    exact plays_bind (h item List.mem_cons_self) (ih fun other ho =>
      h other (List.mem_cons_of_mem _ ho))

lemma plays_forM_filter {γ : Type} {items : List γ} {walk : γ → Walk Unit} (keeps : γ → Bool)
    {eventOf : γ → Event}
    (hkeep : ∀ item, keeps item = true → Plays limits (walk item) place depth [eventOf item] ())
    (hskip : ∀ item, keeps item = false → Plays limits (walk item) place depth [] ()) :
    Plays limits (items.forM walk) place depth ((items.filter keeps).map eventOf) () := by
  induction items with
  | nil => exact plays_pure ()
  | cons item rest ih =>
    cases hk : keeps item with
    | true =>
      rw [List.filter_cons_of_pos hk, List.map_cons]
      exact plays_bind (hkeep item hk) ih
    | false =>
      rw [List.filter_cons_of_neg (by simp [hk])]
      exact plays_bind (hskip item hk) ih

lemma plays_answer {walk : Walk Unit} (hw : Plays limits walk place depth events ())
    (errors : Array InstanceError) :
    ((walk.run.run ⟨place, depth, errors⟩).1, (walk.run.run ⟨place, depth, errors⟩).2.errors) =
      replay limits errors events := by
  have hrun := hw errors
  generalize replay limits errors events = result at hrun ⊢
  rcases result with ⟨_ | _, more⟩
  · obtain ⟨state, hs, he⟩ := hrun
    rw [hs, he]
  · dsimp only at hrun
    rw [hrun]

end Rules

section Nodes

variable {limits : Limits} {place : Path} {depth : Nat} {node : Node}

lemma plays_supplements (value : Json) :
    Plays limits (node.runSupplements limits value) place depth
      (supplementEvents node place value) () := by
  rw [supplementEvents, List.map_eq_flatMap]
  exact plays_forM fun supplement _ => plays_report node.supplementPath (supplement value)

lemma plays_checkKeys {shape : PropertiesShape} (hshape : node.shape = .properties shape)
    (members : Members) :
    Plays limits (node.checkKeys limits shape members) place depth
      ((ownErrors node place (.object members)).map fun error => .found [error]) () := by
  unfold ownErrors Node.checkKeys
  rw [hshape]
  dsimp only
  rw [List.map_append, List.map_map, List.map_map]
  refine plays_bind (plays_forM_filter _ (fun key hk => ?_) fun key hk => ?_) ?_
  · rw [if_neg (by simpa using hk)]
    exact plays_report _ _
  · rw [if_pos (by simpa using hk)]
    exact plays_pure ()
  · cases hadditional : shape.additional with
    | true =>
      simp only [Bool.not_true, Bool.false_and, List.filter_false, List.map_nil, if_true]
      exact plays_pure ()
    | false =>
      refine plays_forM_filter _ (fun key hk => ?_) fun key hk => ?_
      · rw [if_pos (by simpa [hadditional] using hk)]
        exact plays_inside (plays_report _ _)
      · rw [if_neg (by simpa [hadditional] using hk)]
        exact plays_pure ()

lemma plays_selectEntry {tag : String} {mapping : List (String × NodeId)}
    (hshape : node.shape = .discriminator tag mapping) (members : Members) :
    Plays limits (node.selectEntry limits tag mapping members) place depth
      ((ownErrors node place (.object members)).map fun error => .found [error])
      (selected? tag mapping (.object members)) := by
  unfold ownErrors Node.selectEntry selected?
  rw [hshape]
  dsimp only [Json.object?, Option.bind_eq_bind, Option.bind_some]
  cases members.get? tag with
  | none => exact plays_bind (plays_report _ _) (plays_pure none)
  | some value =>
    refine plays_inside ?_
    cases value with
    | string s =>
      dsimp only [Json.string?, Option.bind_some]
      cases mapping.lookup s with
      | none => exact plays_bind (plays_report _ _) (plays_pure none)
      | some sub => exact plays_pure (some sub)
    | _ => exact plays_bind (plays_report _ _) (plays_pure none)

end Nodes

section Walks

variable {validator : Validator} {limits : Limits} {fuel : Nat}

/-- What the induction assumes of walks with less fuel. -/
def PlaysOn (validator : Validator) (limits : Limits) (fuel : Nat) : Prop :=
  ∀ places id place value, Plays limits (validator.walk limits fuel id value) place
    (List.length places) (trace validator fuel places id place value) ()

lemma plays_properties (h : PlaysOn validator limits fuel) {node : Node} {shape : PropertiesShape}
    (hshape : node.shape = .properties shape) (places : List Path) (place : Path)
    (members : Members) :
    Plays limits
      (do
        node.checkKeys limits shape members
        node.runSupplements limits (.object members)
        members.forM fun (key, part) =>
          match shape.subs.lookup key with
          | some sub => Walk.inside key (validator.walk limits fuel sub part)
          | none => pure ())
      place places.length
      (visit node places place (.object members) ++
        legEvents validator fuel places node place (.object members)) () := by
  have hvisit : visit node places place (.object members) =
      (ownErrors node place (.object members)).map (fun error => .found [error]) ++
        supplementEvents node place (.object members) := by
    simp [visit, runsSupplements, openEvents, hshape, Json.object?]
  rw [hvisit, List.append_assoc]
  refine plays_bind (plays_checkKeys hshape members) ?_
  refine plays_bind (plays_supplements _) ?_
  simp only [legEvents, legs, hshape, Json.object?, Option.getD_some, List.flatMap_assoc]
  refine plays_forM fun member _ => ?_
  obtain ⟨key, part⟩ := member
  rw [flatMap_optional]
  cases shape.subs.lookup key with
  | none => exact plays_pure ()
  | some sub => exact plays_inside (h _ _ _ _)

lemma plays_discriminator (h : PlaysOn validator limits fuel) {node : Node} {tag : String}
    {mapping : List (String × NodeId)} (hshape : node.shape = .discriminator tag mapping)
    (places : List Path) (place : Path) (members : Members) :
    Plays limits
      (do
        match ← node.selectEntry limits tag mapping members with
        | some sub => do
          node.runSupplements limits (.object members)
          validator.walk limits fuel sub (.object members)
        | none => pure ())
      place places.length
      (visit node places place (.object members) ++
        legEvents validator fuel places node place (.object members)) () := by
  have hvisit : visit node places place (.object members) =
      (ownErrors node place (.object members)).map (fun error => .found [error]) ++
        if (selected? tag mapping (.object members)).isSome then
          supplementEvents node place (.object members)
        else [] := by
    simp [visit, runsSupplements, openEvents, hshape]
  rw [hvisit, List.append_assoc]
  refine plays_bind (plays_selectEntry hshape members) ?_
  simp only [legEvents, legs, hshape, flatMap_optional, List.append_nil]
  cases selected? tag mapping (.object members) with
  | none => exact plays_pure ()
  | some sub => exact plays_bind (plays_supplements _) (h _ _ _ _)

lemma plays_ref (h : PlaysOn validator limits fuel) {node : Node} {index : Nat}
    (hshape : node.shape = .ref index) (places : List Path) (place : Path) (value : Json) :
    Plays limits
      (do
        node.runSupplements limits value
        Walk.behindReference limits <|
          match validator.definitions[index]? with
          | some sub => validator.walk limits fuel sub value
          | none => pure ())
      place places.length
      (visit node places place value ++ legEvents validator fuel places node place value) () := by
  have hvisit : visit node places place value =
      supplementEvents node place value ++ [.opened (place :: places)] := by
    simp [visit, ownErrors, runsSupplements, openEvents, hshape]
  rw [hvisit, List.append_assoc]
  refine plays_bind (plays_supplements value) (plays_behindReference rfl ?_)
  simp only [legEvents, legs, hshape, flatMap_optional, List.append_nil]
  cases validator.definitions[index]? with
  | none => exact plays_pure ()
  | some sub => exact h (place :: places) sub place value

lemma plays_walk_succ (h : PlaysOn validator limits fuel) :
    PlaysOn validator limits (fuel + 1) := by
  intro places id place value
  rw [Validator.walk]
  cases hnode : validator.nodes[id]? with
  | none =>
    rw [trace, hnode]
    exact plays_pure ()
  | some node =>
    rw [trace_node hnode]
    dsimp only
    split
    · exact plays_pure ()
    cases hshape : node.shape with
    | empty =>
      simp only [visit, ownErrors, runsSupplements, openEvents, legEvents, legs, hshape,
        List.map_nil, if_true, List.nil_append, List.append_nil, List.flatMap_nil]
      exact plays_supplements value
    | type type =>
      simp only [visit, ownErrors, runsSupplements, openEvents, legEvents, legs, hshape,
        List.append_nil, List.flatMap_nil]
      cases type.violation? value with
      | none => exact plays_supplements value
      | some violation => exact plays_report _ _
    | enum variants =>
      simp only [visit, ownErrors, runsSupplements, openEvents, legEvents, legs, hshape, if_true,
        List.append_nil, List.flatMap_nil]
      cases value with
      | string s =>
        dsimp only
        split
        · exact plays_supplements _
        · exact plays_bind (plays_report _ _) (plays_supplements _)
      | _ => exact plays_bind (plays_report _ _) (plays_supplements _)
    | elements sub =>
      simp only [visit, ownErrors, runsSupplements, openEvents, legEvents, legs, hshape,
        List.append_nil]
      cases value with
      | array items =>
        refine plays_bind (plays_supplements _) ?_
        rw [List.flatMap_map]
        exact plays_forM fun item _ => plays_inside (h _ _ _ _)
      | _ => exact plays_report _ _
    | properties shape =>
      cases value with
      | object members => exact plays_properties h hshape places place members
      | _ =>
        simp only [visit, ownErrors, runsSupplements, openEvents, legEvents, legs, hshape,
          List.append_nil]
        exact plays_report _ _
    | values sub =>
      simp only [visit, ownErrors, runsSupplements, openEvents, legEvents, legs, hshape,
        List.append_nil]
      cases value with
      | object members =>
        refine plays_bind (plays_supplements _) ?_
        rw [List.flatMap_map]
        exact plays_forM fun member _ => plays_inside (h _ _ _ _)
      | _ => exact plays_report _ _
    | discriminator tag mapping =>
      cases value with
      | object members => exact plays_discriminator h hshape places place members
      | _ =>
        simp only [visit, ownErrors, runsSupplements, openEvents, legEvents, legs, hshape,
          List.append_nil]
        exact plays_report _ _
    | ref index => exact plays_ref h hshape places place value

theorem plays_walk (validator : Validator) (limits : Limits) (fuel : Nat) :
    PlaysOn validator limits fuel := by
  induction fuel with
  | zero => exact fun _ _ _ _ => plays_exhausted ()
  | succ fuel ih => exact plays_walk_succ ih

end Walks

def rootTrace (validator : Validator) (fuel : Nat) (value : Json) : List Event :=
  trace validator fuel [] validator.root [] value

theorem runWith_replays (validator : Validator) (limits : Limits) (fuel : Nat) (value : Json) :
    validator.runWith limits fuel value = replay limits #[] (rootTrace validator fuel value) :=
  plays_answer (plays_walk validator limits fuel [] validator.root [] value) #[]

end JsonTypeDefinition.Proofs
