import JsonTypeDefinition.Proofs.SchemaForms

/-!
# The schemas of a document

`documentSites` lists the schemas of a document, each with its place: those of the definitions
first, and the schemas below a schema before the schema itself.
-/

namespace JsonTypeDefinition.Proofs

/-- A schema and where it stands in its document. -/
structure Site where
  position : Position
  path : Path
  schema : Json

/-- The form of a schema object whose form keys go together. -/
def form? (members : Members) : Option Form :=
  match KeyGroups.ofKeys (Members.keys members) [] with
  | .ofForm keys => some keys.form
  | .ambiguous _ => none

/-- The schemas by name that a look-up gives, each at `path` and its name. -/
def entrySites (position : Position) (path : Path) (found : Option Json) : List Site :=
  (entriesIn found).map fun (name, value) => ⟨position, path ++ [name], value⟩

/-- The schemas right below a schema object of a form. -/
def formSites (path : Path) (members : Members) : Form → List Site
  | .elements =>
    (members.get? "elements").toList.map fun value => ⟨.nested, path ++ ["elements"], value⟩
  | .properties =>
    entrySites .nested (path ++ ["properties"]) (members.get? "properties") ++
      entrySites .nested (path ++ ["optionalProperties"]) (members.get? "optionalProperties")
  | .values =>
    (members.get? "values").toList.map fun value => ⟨.nested, path ++ ["values"], value⟩
  | .discriminator =>
    entrySites (.mapping (Compile.field members "discriminator").string?) (path ++ ["mapping"])
      (members.get? "mapping")
  | .empty | .type | .enum | .ref => []

/-- The schemas right below a schema, none where its form is not told. -/
def Site.below (site : Site) : List Site :=
  match site.schema with
  | .object members => (form? members).elim [] (formSites site.path members)
  | _ => []

section Forms

variable {members : Members}

lemma form?_eq (members : Members) (declared : List String) :
    form? members = match KeyGroups.ofKeys (Members.keys members) declared with
      | .ofForm keys => some keys.form
      | .ambiguous _ => none := by
  rw [form?, ofKeys_eq, ofKeys_eq]
  cases (Members.keys members).filterMap Form.ofKey? with
  | nil => rfl
  | cons form others =>
    dsimp only
    split_ifs <;> rfl

lemma form?_of_ofKeys {declared : List String} {keys : FormKeys}
    (h : KeyGroups.ofKeys (Members.keys members) declared = .ofForm keys) :
    form? members = some keys.form := by
  rw [form?_eq members declared, h]

lemma ofKeys_of_form? {form : Form} (h : form? members = some form) (declared : List String) :
    ∃ keys, KeyGroups.ofKeys (Members.keys members) declared = .ofForm keys ∧ keys.form = form := by
  rw [form?_eq members declared] at h
  split at h
  · rename_i keys hk
    exact ⟨keys, hk, Option.some.inj h⟩
  · cases h

lemma below_object {position : Position} {path : Path} {form : Form}
    (h : form? members = some form) :
    Site.below ⟨position, path, .object members⟩ = formSites path members form := by
  dsimp only [Site.below]
  rw [h, Option.elim_some]

lemma sizeOf_entrySite_lt {position : Position} {path : Path} {key : String} {site : Site}
    (h : site ∈ entrySites position path (members.get? key)) :
    sizeOf site.schema < sizeOf (Json.object members) := by
  obtain ⟨⟨name, value⟩, hm, rfl⟩ := List.mem_map.mp h
  exact sizeOf_entry_lt hm

lemma sizeOf_formSite_lt {path : Path} {form : Form} {site : Site}
    (h : site ∈ formSites path members form) :
    sizeOf site.schema < sizeOf (Json.object members) := by
  cases form with
  | empty | type | enum | ref => cases h
  | elements | values =>
    obtain ⟨value, hv, rfl⟩ := List.mem_map.mp h
    exact sizeOf_member_lt (get?_mem (Option.mem_toList.mp hv))
  | properties => rcases List.mem_append.mp h with h | h <;> exact sizeOf_entrySite_lt h
  | discriminator => exact sizeOf_entrySite_lt h

lemma mem_below {site sub : Site} (h : sub ∈ site.below) :
    ∃ members form, site.schema = .object members ∧ form? members = some form ∧
      sub ∈ formSites site.path members form := by
  unfold Site.below at h
  split at h
  · rename_i members hs
    cases hf : form? members with
    | none =>
      rw [hf] at h
      cases h
    | some form =>
      rw [hf] at h
      exact ⟨members, form, hs, hf, h⟩
  · cases h

lemma sizeOf_below_lt {site sub : Site} (h : sub ∈ site.below) :
    sizeOf sub.schema < sizeOf site.schema := by
  obtain ⟨members, form, hs, -, hsub⟩ := mem_below h
  rw [hs]
  exact sizeOf_formSite_lt hsub

end Forms

/-- The schemas below a schema and the schema itself, in the order in which a compilation is done
with them. -/
def sites (site : Site) : List Site :=
  (site.below.attach.flatMap fun sub => sites sub.1) ++ [site]
termination_by sizeOf site.schema
decreasing_by exact sizeOf_below_lt sub.2

lemma sites_eq (site : Site) : sites site = site.below.flatMap sites ++ [site] := by
  rw [sites, List.flatMap_subtype fun sub _ => rfl, List.unattach_attach]

lemma site_induction {motive : Site → Prop}
    (step : ∀ site, (∀ sub ∈ site.below, motive sub) → motive site) (site : Site) :
    motive site := by
  induction site using sites.induct with
  | case1 site ih => exact step site fun sub hsub => ih ⟨sub, hsub⟩

lemma mem_sites_self (site : Site) : site ∈ sites site := by
  rw [sites_eq]
  exact List.mem_append_right _ List.mem_cons_self

lemma mem_sites_below {site inner sub : Site} (h : inner ∈ sites site) (hsub : sub ∈ inner.below) :
    sub ∈ sites site := by
  induction site using site_induction with
  | step site ih =>
    rw [sites_eq, List.mem_append, List.mem_flatMap] at h ⊢
    rcases h with ⟨other, hother, hin⟩ | h
    · exact .inl ⟨other, hother, ih other hother hin⟩
    · rw [List.mem_singleton.mp h] at hsub
      exact .inl ⟨sub, hsub, mem_sites_self sub⟩

/-- The schemas of a document: those of its definitions, then those of the root. -/
def documentSites (document : Json) : List Site :=
  (entrySites .definition ["definitions"] (Compile.definitions? document)).flatMap sites ++
    sites ⟨.root, [], document⟩

lemma mem_documentSites_below {document : Json} {site sub : Site}
    (h : site ∈ documentSites document) (hsub : sub ∈ site.below) : sub ∈ documentSites document := by
  rw [documentSites, List.mem_append, List.mem_flatMap] at h ⊢
  rcases h with ⟨entry, hentry, hin⟩ | h
  · exact .inl ⟨entry, hentry, mem_sites_below hin hsub⟩
  · exact .inr (mem_sites_below h hsub)

end JsonTypeDefinition.Proofs
