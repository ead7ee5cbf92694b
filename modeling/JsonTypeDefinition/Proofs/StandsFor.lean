import JsonTypeDefinition.Proofs.SchemaErrors

/-!
# Nodes that stand for schemas

`StandsFor` relates a node of a validator to the schema object it was compiled from, and through
its shape all the nodes below to the schemas below. A reference is not followed.
-/

namespace JsonTypeDefinition.Proofs

mutual

/-- The node with an index stands for a schema at a position and a path. -/
inductive StandsFor (scope : Scope) (nodes : Array Node) :
    Position → Path → Json → NodeId → Prop where
  | object {position : Position} {path : Path} {members : Members} {keys : FormKeys}
      {shape : Shape} {id : NodeId}
      (hkeys : KeyGroups.ofKeys (Members.keys members) scope.options.declared = .ofForm keys)
      (hplace : Compile.placeFaults position keys members = [])
      (hcommon : Compile.commonFaults keys members = [])
      (hnode : nodes[id]? = some ⟨path, Compile.isNullable members,
        (scope.options.contribution keys.form members (keys.form.path path)).supplements, shape⟩)
      (hshape : HasShape scope nodes position path members keys.form shape) :
      StandsFor scope nodes position path (.object members) id

inductive HasShape (scope : Scope) (nodes : Array Node) :
    Position → Path → Members → Form → Shape → Prop where
  | empty {position : Position} {path : Path} {members : Members} :
      HasShape scope nodes position path members .empty .empty
  | type {position : Position} {path : Path} {members : Members} {name : String}
      {type : Primitive} (hname : members.get? "type" = some (.string name))
      (htype : Primitive.ofName? name = some type) :
      HasShape scope nodes position path members .type (.type type)
  | enum {position : Position} {path : Path} {members : Members} {variants : List Json}
      (hvariants : members.get? "enum" = some (.array variants)) :
      HasShape scope nodes position path members .enum (.enum (variants.filterMap Json.string?))
  | elements {position : Position} {path : Path} {members : Members} {value : Json} {sub : NodeId}
      (hvalue : members.get? "elements" = some value)
      (hsub : StandsFor scope nodes .nested (path ++ ["elements"]) value sub) :
      HasShape scope nodes position path members .elements (.elements sub)
  | properties {position : Position} {path : Path} {members : Members}
      {required optional : List (String × NodeId)}
      (hrequired : SubsStand scope nodes .nested (path ++ ["properties"])
        (members.get? "properties") required)
      (hoptional : SubsStand scope nodes .nested (path ++ ["optionalProperties"])
        (members.get? "optionalProperties") optional) :
      HasShape scope nodes position path members .properties (.properties
        ⟨required.map Prod.fst, required ++ optional, Compile.allowsAdditional members,
          members.has "properties", position.tag?⟩)
  | values {position : Position} {path : Path} {members : Members} {value : Json} {sub : NodeId}
      (hvalue : members.get? "values" = some value)
      (hsub : StandsFor scope nodes .nested (path ++ ["values"]) value sub) :
      HasShape scope nodes position path members .values (.values sub)
  | discriminator {position : Position} {path : Path} {members entries : Members} {tag : String}
      {subs : List (String × NodeId)}
      (htag : members.get? "discriminator" = some (.string tag))
      (hmapping : members.get? "mapping" = some (.object entries))
      (hsubs : SubsStand scope nodes (.mapping (some tag)) (path ++ ["mapping"])
        (some (.object entries)) subs) :
      HasShape scope nodes position path members .discriminator (.discriminator tag subs)
  | ref {position : Position} {path : Path} {members : Members} {name : String} {index : Nat}
      (hname : members.get? "ref" = some (.string name))
      (hindex : scope.definitions.idxOf? name = some index) :
      HasShape scope nodes position path members .ref (.ref index)

/-- Nodes by name stand for the schemas by name that a look-up gives. -/
inductive SubsStand (scope : Scope) (nodes : Array Node) :
    Position → Path → Option Json → List (String × NodeId) → Prop where
  | absent {position : Position} {path : Path} : SubsStand scope nodes position path none []
  | entries {position : Position} {path : Path} {entries : Members}
      {subs : List (String × NodeId)} (hnames : subs.map Prod.fst = Members.keys entries)
      (hsubs : ∀ key value id, entries.get? key = some value → subs.lookup key = some id →
        StandsFor scope nodes position (path ++ [key]) value id) :
      SubsStand scope nodes position path (some (.object entries)) subs

end

lemma shape_form {scope : Scope} {nodes : Array Node} {position : Position} {path : Path}
    {members : Members} {form : Form} {shape : Shape}
    (h : HasShape scope nodes position path members form shape) : shape.form = form := by
  cases h <;> rfl

lemma lookup_isSome_iff {α : Type} (pairs : List (String × α)) (key : String) :
    (pairs.lookup key).isSome ↔ key ∈ pairs.map Prod.fst := by
  rw [Option.isSome_iff_ne_none, Ne, List.lookup_eq_none_iff]
  simp only [bne_iff_ne, List.mem_map, not_forall, Decidable.not_not]
  constructor
  · rintro ⟨pair, hm, he⟩
    exact ⟨pair, hm, he.symm⟩
  · rintro ⟨pair, hm, he⟩
    exact ⟨pair, hm, he.symm⟩

lemma subs_names {scope : Scope} {nodes : Array Node} {position : Position} {path : Path}
    {found : Option Json} {subs : List (String × NodeId)}
    (h : SubsStand scope nodes position path found subs) :
    subs.map Prod.fst = Members.keys (entriesIn found) := by
  cases h with
  | absent => rfl
  | entries hnames _ => exact hnames

lemma subsStand_lookup {scope : Scope} {nodes : Array Node} {position : Position} {path : Path}
    {found : Option Json} {subs : List (String × NodeId)}
    (h : SubsStand scope nodes position path found subs) (key : String) :
    (subs.lookup key = none ∧ (entriesIn found).get? key = none) ∨
      ∃ id value, subs.lookup key = some id ∧ (entriesIn found).get? key = some value ∧
        StandsFor scope nodes position (path ++ [key]) value id := by
  cases h with
  | absent => exact .inl ⟨rfl, rfl⟩
  | @entries _ _ entries _ hnames hsubs =>
    have hiff : (subs.lookup key).isSome ↔ (entries.get? key).isSome := by
      rw [lookup_isSome_iff, hnames]
      exact (lookup_isSome_iff entries key).symm
    cases hl : subs.lookup key with
    | none =>
      rw [hl] at hiff
      have hnone : ¬ (entries.get? key).isSome := fun hs => nomatch hiff.mpr hs
      exact .inl ⟨rfl, Option.not_isSome_iff_eq_none.mp hnone⟩
    | some id =>
      rw [hl] at hiff
      obtain ⟨value, hv⟩ := Option.isSome_iff_exists.mp (hiff.mp rfl)
      exact .inr ⟨id, value, rfl, hv, hsubs key value id hv hl⟩

end JsonTypeDefinition.Proofs
