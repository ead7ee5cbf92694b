import JsonTypeDefinition.Proofs.ArenaInvariant
import JsonTypeDefinition.Proofs.Entries

/-!
# Places of errors

An error of a validation points at two places. Its schema path leads to something in the schema
document, its instance path to something in the instance, whichever way the walk came to the node
that reports it.
-/

namespace JsonTypeDefinition.Proofs

/-- An error points at something in a document and at something in an instance. -/
structure PointsInto (document value : Json) (error : InstanceError) : Prop where
  schema : ∃ found, resolve document error.schemaPath = some found
  part : ∃ found, partAt? value error.instancePath = some found

lemma mem_keys_iff {members : Members} {key : String} :
    key ∈ Members.keys members ↔ ∃ value, members.get? key = some value := by
  rw [← has_iff_mem_keys, Members.has, Option.isSome_iff_exists]

section SchemaPaths

variable {options : Options} {document : Json} {validator : Validator} {site : Site} {id : Nat}
  {node : Node} {members : Members} {key : String} {value : Json}

lemma resolve_key {path : Path} (h : resolve document path = some (.object members))
    (hv : members.get? key = some value) : resolve document (path ++ [key]) = some value := by
  rw [resolve_append, h, Option.bind_some, resolve, hv, Option.bind_some, resolve]

lemma keyword_mem {keys : List String} {form : Form} (h : HasForm keys form)
    (hkey : form.keyword? = some key) : key ∈ keys := by
  have hempty : form ≠ .empty := by
    rintro rfl
    cases hkey
  have hproperties : form ≠ .properties := by
    rintro rfl
    cases hkey
  obtain ⟨found, hfound, hform⟩ := h.some_key hempty
  have hname : form.name = key := by cases form <;> cases hkey <;> rfl
  rwa [← hname, ← ofKey?_eq_name hform hproperties]

lemma formPath_leads (hof : NodeOf options document validator site id node members) :
    ∃ found, resolve document node.formPath = some found := by
  rw [Node.formPath, Form.path]
  cases hkey : node.shape.form.keyword? with
  | none => exact ⟨_, by rw [Option.toList_none, List.append_nil, hof.leads]⟩
  | some key =>
    obtain ⟨value, hv⟩ := mem_keys_iff.mp (keyword_mem hof.form hkey)
    exact ⟨value, resolve_key hof.leads hv⟩

lemma supplementPath_leads (hof : NodeOf options document validator site id node members) :
    ∃ found, resolve document node.supplementPath = some found := by
  unfold Node.supplementPath
  split
  · exact ⟨_, hof.leads⟩
  · exact formPath_leads hof

lemma shape_of_node (hof : NodeOf options document validator site id node members)
    (hnode : validator.nodes[id]? = some node) :
    HasShape (scopeOf options document) validator.nodes site.position site.path members
      node.shape.form node.shape := by
  cases hof.stands with
  | object _ _ _ hstored hform =>
    rw [hnode] at hstored
    cases hstored
    rwa [shape_form hform]

lemma sectionPath_leads (hof : NodeOf options document validator site id node members)
    (hnode : validator.nodes[id]? = some node) {shape : PropertiesShape}
    (hshape : node.shape = .properties shape) :
    ∃ found, resolve document (node.schemaPath ++
      [if shape.hasRequiredKey then "properties" else "optionalProperties"]) = some found := by
  have hrequired : shape.hasRequiredKey = members.has "properties" := by
    have hform := shape_of_node hof hnode
    rw [hshape] at hform
    cases hform with
    | properties => rfl
  have hmem : (if members.has "properties" then "properties" else "optionalProperties") ∈
      Members.keys members := by
    split_ifs with hhas
    · exact has_iff_mem_keys.mp hhas
    · obtain ⟨key, hkey, hform⟩ := hof.form.some_key (by simp [hshape, Shape.form])
      rw [hshape] at hform
      have hkeys : key = "properties" ∨ key = "optionalProperties" := by
        simpa [Shape.form, formKeys] using ofKey?_eq_some_iff.mp hform
      rcases hkeys with rfl | rfl
      · exact absurd (has_iff_mem_keys.mpr hkey) hhas
      · exact hkey
  obtain ⟨value, hv⟩ := mem_keys_iff.mp hmem
  rw [hrequired]
  exact ⟨value, resolve_key hof.leads hv⟩

lemma requiredPath_leads (hof : NodeOf options document validator site id node members)
    {shape : PropertiesShape} (hshape : node.shape = .properties shape)
    (hkey : key ∈ shape.required) :
    ∃ found, resolve document (node.schemaPath ++ ["properties", key]) = some found := by
  rw [(hof.properties shape hshape).1] at hkey
  obtain ⟨value, hv⟩ := mem_keys_iff.mp hkey
  obtain ⟨entries, hentries, hentry⟩ := entriesIn_get? hv
  have hpath : node.schemaPath ++ ["properties", key] =
      node.schemaPath ++ ["properties"] ++ [key] := by simp
  rw [hpath]
  exact ⟨value, resolve_key (resolve_key hof.leads hentries) hentry⟩

lemma mappingPath_leads (hof : NodeOf options document validator site id node members)
    (hnode : validator.nodes[id]? = some node) {tag : String} {mapping : List (String × NodeId)}
    (hshape : node.shape = .discriminator tag mapping) :
    ∃ found, resolve document (node.schemaPath ++ ["mapping"]) = some found := by
  have hform := shape_of_node hof hnode
  rw [hshape] at hform
  cases hform with
  | discriminator _ hmapping _ => exact ⟨_, resolve_key hof.leads hmapping⟩

end SchemaPaths

section Points

variable {options : Options} {document : Json} {validator : Validator} {entry : Entry}
  {site : Site} {node : Node} {members : Members} {value : Json} {error : InstanceError}

lemma partAt?_key {place : Path} {parts : Members} {key : String}
    (h : partAt? value place = some (.object parts)) (hkey : key ∈ Members.keys parts) :
    ∃ found, partAt? value (place ++ [key]) = some found := by
  obtain ⟨part, hpart⟩ := mem_keys_iff.mp hkey
  exact ⟨part, by rw [partAt?_token h, part?, hpart]⟩

lemma ownError_points (hof : NodeOf options document validator site entry.id node members)
    (hnode : validator.nodes[entry.id]? = some node)
    (hvalue : partAt? value entry.place = some entry.value)
    (h : OwnError validator node entry.place entry.value error) :
    PointsInto document value error := by
  cases h with
  | form => exact ⟨formPath_leads hof, _, hvalue⟩
  | notObject hshape => exact ⟨sectionPath_leads hof hnode hshape, _, hvalue⟩
  | missing hshape hkey => exact ⟨requiredPath_leads hof hshape hkey, _, hvalue⟩
  | unexpected _ hobject hkey => exact ⟨⟨_, hof.leads⟩, partAt?_key (hobject ▸ hvalue) hkey⟩
  | tag hshape hobject htag hpath =>
    refine ⟨?_, partAt?_key (hobject ▸ hvalue) htag⟩
    rcases hpath with rfl | rfl
    · exact formPath_leads hof
    · exact mappingPath_leads hof hnode hshape

lemma supplementError_points (hof : NodeOf options document validator site entry.id node members)
    (hvalue : partAt? value entry.place = some entry.value)
    (h : error ∈ supplementErrors node entry.place entry.value) :
    PointsInto document value error := by
  obtain ⟨supplement, -, h⟩ := List.mem_flatMap.mp h
  obtain ⟨violation, -, rfl⟩ := List.mem_map.mp h
  exact ⟨supplementPath_leads hof, _, hvalue⟩

lemma entryError_points (h : compile options document = .ok validator)
    (hd : distinctKeys document = true) (hvalue : partAt? value entry.place = some entry.value)
    (herror : error ∈ entryErrors validator entry) : PointsInto document value error := by
  cases hnode : entry.node? validator with
  | none =>
    rw [entryErrors, hnode] at herror
    cases herror
  | some node =>
    obtain ⟨hstored, -⟩ := node?_eq_some_iff.mp hnode
    obtain ⟨site, members, hof⟩ := node_of_id h hd hstored
    rw [entryErrors_of_node hnode] at herror
    rcases List.mem_append.mp herror with hown | hsupplements
    · exact ownError_points hof hstored hvalue (ownErrors_cases validator hown)
    · split at hsupplements
      · exact supplementError_points hof hvalue hsupplements
      · cases hsupplements

end Points

/-- Every error of a validation points at something in the schema document and at something in the
instance, however the document was compiled. -/
theorem errors_point_into {options : Options} {document : Json} {validator : Validator}
    (hd : distinctKeys document = true) (h : compile options document = .ok validator)
    {value : Json} (hv : distinctKeys value = true) :
    ∀ error ∈ validator.validate value, PointsInto document value error := by
  intro error herror
  rw [← Array.mem_toList_iff, validate_entered (compiled_stands h)] at herror
  obtain ⟨entry, hentry, herror⟩ := List.mem_flatMap.mp herror
  exact entryError_points h hd (entered_standsAt hv hentry).resolves herror

/-- A drawing has up to three figures, which are circles. -/
def drawingDocument : Json :=
  .object
    [("definitions", .object [("figure", .object
      [("discriminator", .string "kind"),
        ("mapping", .object [("circle", .object [("properties", .object
          [("radius", .object [("type", .string "float64"),
            ("x:checks", .object [("minimum", .number (.int 0))])])])])])])]),
      ("elements", .object [("ref", .string "figure")]),
      ("x:checks", .object [("maxElements", .number (.int 3))])]

def oddFigures : Json :=
  .array
    [.object [("kind", .string "circle"), ("radius", .number (.int (-1)))],
      .object [("kind", .string "square")],
      .object [("kind", .string "circle"), ("color", .null)],
      .bool true]

/-- Where the errors of the four figures are. The extension reports on their number and on a
radius. -/
def oddFiguresLocations : List (Path × Path) :=
  [(["elements"], []),
    (["definitions", "figure", "mapping", "circle", "properties", "radius", "type"],
      ["0", "radius"]),
    (["definitions", "figure", "mapping"], ["1", "kind"]),
    (["definitions", "figure", "mapping", "circle", "properties", "radius"], ["2"]),
    (["definitions", "figure", "mapping", "circle"], ["2", "color"]),
    (["definitions", "figure", "discriminator"], ["3"])]

/-- They come from the root, and through a reference from a discriminator and a mapping entry. -/
theorem oddFigures_point_into :
    ∃ validator, compile literalLibrary drawingDocument = .ok validator ∧
      distinctKeys drawingDocument = true ∧ distinctKeys oddFigures = true ∧
      (∀ error ∈ validator.validate oddFigures, PointsInto drawingDocument oddFigures error) ∧
      (validator.validate oddFigures).toList.map location = oddFiguresLocations := by
  have hd : distinctKeys drawingDocument = true := by decide
  have hv : distinctKeys oddFigures = true := by decide
  have hlocations : (compile literalLibrary drawingDocument).toOption.map
      (fun validator => (validator.validate oddFigures).toList.map location) =
        some oddFiguresLocations := by
    decide +kernel
  obtain ⟨validator, h, hlocations⟩ := compiles_with hlocations
  exact ⟨validator, h, hd, hv, errors_point_into hd h hv, hlocations⟩

end JsonTypeDefinition.Proofs
