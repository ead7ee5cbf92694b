import JsonTypeDefinition.Proofs.Arena
import JsonTypeDefinition.Proofs.WalkTrace

/-!
# When supplements run

At a node that looks at the value as a whole, the supplements of an accepted value run before
anything is reported. A refused value does not reach them, except that those of the enum form run
after its error.
-/

namespace JsonTypeDefinition.Proofs

/-- The values that a node of some shape has nothing against. Empty and referring nodes take every
value, and objects are looked at key by key. -/
inductive Accepts : Shape → Json → Prop where
  | type {type : Primitive} {value : Json} (h : type.violation? value = none) :
      Accepts (.type type) value
  | enum {variants : List String} {s : String} (h : s ∈ variants) :
      Accepts (.enum variants) (.string s)
  | elements {sub : NodeId} {items : List Json} : Accepts (.elements sub) (.array items)
  | values {sub : NodeId} {members : Members} : Accepts (.values sub) (.object members)
  | discriminator {tag s : String} {mapping : List (String × NodeId)} {members : Members}
      {sub : NodeId} (htag : members.get? tag = some (.string s))
      (hentry : mapping.lookup s = some sub) :
      Accepts (.discriminator tag mapping) (.object members)

section Acceptance

variable {tag : String} {mapping : List (String × NodeId)} {members : Members}

lemma accepts_type_iff {type : Primitive} {value : Json} :
    Accepts (.type type) value ↔ type.violation? value = none := by
  constructor
  · intro haccepts
    cases haccepts with
    | type h => exact h
  · exact .type

lemma accepts_variant_iff {variants : List String} {s : String} :
    Accepts (.enum variants) (.string s) ↔ s ∈ variants := by
  constructor
  · intro haccepts
    cases haccepts with
    | enum h => exact h
  · exact .enum

lemma selected?_object : selected? tag mapping (.object members) =
    (members.get? tag).bind fun value => value.string?.bind (List.lookup · mapping) :=
  rfl

lemma selected?_eq_some_iff {sub : NodeId} : selected? tag mapping (.object members) = some sub ↔
    ∃ s, members.get? tag = some (.string s) ∧ mapping.lookup s = some sub := by
  simp only [selected?_object, Option.bind_eq_some_iff]
  constructor
  · rintro ⟨value, hget, s, hs, hlookup⟩
    cases value with
    | string _ =>
      obtain rfl := Option.some.inj hs
      exact ⟨_, hget, hlookup⟩
    | _ => cases hs
  · rintro ⟨s, hget, hlookup⟩
    exact ⟨.string s, hget, s, rfl, hlookup⟩

lemma accepts_tagged_iff : Accepts (.discriminator tag mapping) (.object members) ↔
    ∃ sub, selected? tag mapping (.object members) = some sub := by
  simp only [selected?_eq_some_iff]
  constructor
  · intro haccepts
    cases haccepts with
    | discriminator htag hentry => exact ⟨_, _, htag, hentry⟩
  · rintro ⟨sub, s, htag, hentry⟩
    exact .discriminator htag hentry

end Acceptance

/-- Takes a value on to where its legs lead, none of them through a reference. -/
def goOn (go : NodeId → Json → Walk Unit) (legs : List Leg) : Walk Unit :=
  legs.forM fun leg => leg.down.foldr Walk.inside (go leg.id leg.value)

/-- The ways in which a walk takes a value through a node and onward. -/
inductive Course (limits : Limits) (node : Node) (value : Json) (onward : Walk Unit) :
    Walk Unit → Prop where
  /-- Nothing is looked at. -/
  | null (hnullable : node.nullable = true) (hnull : value.kind = .null) :
      Course limits node value onward (pure ())
  /-- The supplements come first. -/
  | accepted (haccepts : Accepts node.shape value) :
      Course limits node value onward (do
        node.runSupplements limits value
        onward)
  /-- One error, there or inside the value, is all. -/
  | refused (hrefuses : ¬ Accepts node.shape value) (hother : node.shape.form ≠ .enum)
      (down schemaPath : Path) (violation : Violation) :
      Course limits node value onward
        (down.foldr Walk.inside (Walk.report limits schemaPath [violation]))
  /-- The supplements run after the error. -/
  | otherVariant (hrefuses : ¬ Accepts node.shape value) (henum : node.shape.form = .enum)
      (violation : Violation) :
      Course limits node value onward (do
        Walk.report limits node.formPath [violation]
        node.runSupplements limits value)

section Walks

variable {validator : Validator} {limits : Limits} {node : Node} {shape : Shape} {value : Json}
  {onward : Walk Unit} (go : NodeId → Json → Walk Unit)

lemma course_accepted (hshape : node.shape = shape) (h : Accepts shape value) {walk : Walk Unit}
    (hwalk : walk = do node.runSupplements limits value; onward) :
    Course limits node value onward walk :=
  hwalk ▸ .accepted (hshape ▸ h)

lemma course_refused (hshape : node.shape = shape) (h : ¬ Accepts shape value)
    (hother : shape.form ≠ .enum) (schemaPath : Path) (violation : Violation) :
    Course limits node value onward (Walk.report limits schemaPath [violation]) :=
  .refused (hshape ▸ h) (hshape ▸ hother) [] schemaPath violation

lemma course_type {type : Primitive} (hshape : node.shape = .type type) :
    Course limits node value (goOn go (legs validator node value))
      (match type.violation? value with
      | some violation => Walk.report limits node.formPath [violation]
      | none => node.runSupplements limits value) := by
  cases hviolation : type.violation? value with
  | none =>
    apply course_accepted hshape (accepts_type_iff.mpr hviolation)
    simp [goOn, legs, hshape]
  | some violation =>
    have hrefuses : ¬ Accepts (.type type) value := by simp [accepts_type_iff, hviolation]
    exact course_refused hshape hrefuses (by simp [Shape.form]) _ _

/-- The supplements run in any case. -/
lemma course_enum {variants : List String} (hshape : node.shape = .enum variants) :
    Course limits node value (goOn go (legs validator node value)) (do
      match value with
      | .string s =>
        unless variants.contains s do
          Walk.report limits node.formPath [.enumOtherVariant s]
      | other => Walk.report limits node.formPath [.enumNotString other.kind]
      node.runSupplements limits value) := by
  have henum : node.shape.form = .enum := by rw [hshape, Shape.form]
  cases value with
  | string s =>
    dsimp only
    by_cases hs : s ∈ variants
    · rw [if_pos (List.contains_iff_mem.mpr hs)]
      apply course_accepted hshape (accepts_variant_iff.mpr hs)
      simp [goOn, legs, hshape]
    · have hrefuses : ¬ Accepts (.enum variants) (.string s) := mt accepts_variant_iff.mp hs
      rw [if_neg (mt List.contains_iff_mem.mp hs)]
      exact .otherVariant (hshape ▸ hrefuses) henum _
  | _ => exact .otherVariant (hshape ▸ by rintro ⟨⟩) henum _

lemma inside_pure {α : Type} (token : String) (a : α) :
    Walk.inside token (pure a) = (pure a : Walk α) := by
  funext state
  change (Except.ok a, { state with place := (state.place ++ [token]).dropLast }) =
    (Except.ok a, state)
  rw [List.dropLast_concat]

lemma inside_then_pure {α : Type} (token : String) (walk : Walk Unit) (a : α) :
    Walk.inside token (do walk; pure a) = (do Walk.inside token walk; pure a) := by
  simp [Walk.inside]

lemma selectEntry_eq (limits : Limits) (node : Node) {tag : String}
    (mapping : List (String × NodeId)) (members : Members) :
    (∃ sub, selected? tag mapping (.object members) = some sub ∧
        node.selectEntry limits tag mapping members = pure (some sub)) ∨
      (selected? tag mapping (.object members) = none ∧ ∃ down schemaPath violation,
        node.selectEntry limits tag mapping members = (do
          List.foldr Walk.inside (Walk.report limits schemaPath [violation]) down
          pure none)) := by
  rw [selected?_object]
  unfold Node.selectEntry
  cases members.get? tag with
  | none => exact .inr ⟨rfl, [], _, _, rfl⟩
  | some value =>
    cases value with
    | string s =>
      dsimp only [Option.bind_some, Json.string?]
      cases mapping.lookup s with
      | some sub => exact .inl ⟨sub, rfl, inside_pure tag _⟩
      | none => exact .inr ⟨rfl, [tag], _, _, inside_then_pure tag _ _⟩
    | _ => exact .inr ⟨rfl, [tag], _, _, inside_then_pure tag _ _⟩

lemma course_discriminator {tag : String} {mapping : List (String × NodeId)} {members : Members}
    (hshape : node.shape = .discriminator tag mapping) :
    Course limits node (.object members) (goOn go (legs validator node (.object members))) (do
      match ← node.selectEntry limits tag mapping members with
      | some sub => do
        node.runSupplements limits (.object members)
        go sub (.object members)
      | none => pure ()) := by
  rcases selectEntry_eq limits node mapping members with
    ⟨sub, hselected, hentry⟩ | ⟨hselected, down, schemaPath, violation, hentry⟩
  · rw [hentry, pure_bind]
    apply course_accepted hshape (accepts_tagged_iff.mpr ⟨sub, hselected⟩)
    simp [goOn, legs, hshape, hselected]
  · have hrefuses : ¬ Accepts (.discriminator tag mapping) (.object members) := by
      simp [accepts_tagged_iff, hselected]
    rw [hentry, bind_assoc]
    simp only [pure_bind, bind_pure_unit]
    exact .refused (hshape ▸ hrefuses) (by simp [hshape, Shape.form]) down schemaPath violation

end Walks

/-- A walk takes every value through a node in one of these ways. -/
theorem walk_course (validator : Validator) (limits : Limits) (fuel : Nat) {id : NodeId}
    {node : Node} (value : Json) (hnode : validator.nodes[id]? = some node)
    (hform : node.shape.form ∈ [.type, .enum, .elements, .values, .discriminator]) :
    Course limits node value (goOn (validator.walk limits fuel) (legs validator node value))
      (validator.walk limits (fuel + 1) id value) := by
  rw [Validator.walk, hnode]
  dsimp only
  split_ifs with hskips
  · obtain ⟨hnullable, hnull⟩ : node.nullable = true ∧ value.kind = .null := by simpa using hskips
    exact .null hnullable hnull
  cases hshape : node.shape with
  | empty | properties shape | ref index => simp [hshape, Shape.form] at hform
  | type type => exact course_type _ hshape
  | enum variants => exact course_enum _ hshape
  | elements sub =>
    cases value with
    | array items =>
      apply course_accepted hshape .elements
      simp [goOn, legs, hshape, Json.array?]
    | _ => exact course_refused hshape (by rintro ⟨⟩) (by simp [Shape.form]) _ _
  | values sub =>
    cases value with
    | object members =>
      apply course_accepted hshape .values
      simp [goOn, legs, hshape, Json.object?]
    | _ => exact course_refused hshape (by rintro ⟨⟩) (by simp [Shape.form]) _ _
  | discriminator tag mapping =>
    cases value with
    | object members => exact course_discriminator _ hshape
    | _ => exact course_refused hshape (by rintro ⟨⟩) (by simp [Shape.form]) _ _

/-- Attaches to each enum a supplement that has something against every value. -/
def marking : Extension where
  name := "marking"
  hooks := [(.enum, fun _ _ => { supplements := [fun _ => [.elementsNotUnique]] })]

def oneVariant : Json :=
  .object [("enum", .array [.string "a"])]

theorem oneVariant_course :
    ∃ validator node, compile { extensions := [marking] } oneVariant = .ok validator ∧
      validator.nodes[validator.root]? = some node ∧ node.shape.form = .enum ∧
      ∀ value, Course {} node value (pure ()) (validator.walk {} 1 validator.root value) :=
  ⟨_, _, rfl, rfl, rfl, fun value => walk_course _ {} 0 value rfl (by decide)⟩

/-- The value is not a variant, and the supplement runs on it all the same. -/
theorem otherVariant_supplemented :
    ∃ validator, compile { extensions := [marking] } oneVariant = .ok validator ∧
      ¬ Accepts (.enum ["a"]) (.string "b") ∧
      validator.validate (.string "b") =
        #[⟨["enum"], [], .enumOtherVariant "b"⟩, ⟨["enum"], [], .elementsNotUnique⟩] := by
  have hrefuses : ¬ Accepts (.enum ["a"]) (.string "b") := by simp [accepts_variant_iff]
  exact ⟨_, rfl, hrefuses, rfl⟩

end JsonTypeDefinition.Proofs
