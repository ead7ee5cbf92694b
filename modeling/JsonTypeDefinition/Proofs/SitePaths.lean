import JsonTypeDefinition.Proofs.Sites
import Mathlib.Data.List.Nodup

/-!
# Where schemas stand

A path of keys leads from a document to what stands there. In a document that repeats no key, the
path of each of its schemas leads to that schema, and no two schemas share a path.
-/

namespace JsonTypeDefinition.Proofs

/-- What stands at the end of a path of keys. -/
def resolve : Json → Path → Option Json
  | value, [] => some value
  | .object members, key :: rest =>
    (Members.get? members key).bind fun part => resolve part rest
  | _, _ :: _ => none

lemma resolve_append (value : Json) (path more : Path) :
    resolve value (path ++ more) = (resolve value path).bind fun part => resolve part more := by
  induction path generalizing value with
  | nil => rw [List.nil_append, resolve, Option.bind_some]
  | cons key rest ih =>
    cases value with
    | object members =>
      rw [List.cons_append, resolve, resolve, Option.bind_assoc]
      simp only [ih]
    | _ => rfl

/-- A path leads to a value that repeats no key. -/
structure Leads (document : Json) (path : Path) (value : Json) : Prop where
  resolves : resolve document path = some value
  distinct : distinctKeys value = true

section Paths

variable {document : Json} {path : Path} {members : Members} {key name : String} {value : Json}

lemma leads_root (h : distinctKeys document = true) : Leads document [] document :=
  ⟨by rw [resolve], h⟩

lemma leads_key (h : Leads document path (.object members)) (hv : members.get? key = some value) :
    Leads document (path ++ [key]) value := by
  refine ⟨?_, distinctKeys_get? h.distinct hv⟩
  rw [resolve_append, h.resolves, Option.bind_some, resolve, hv, Option.bind_some, resolve]

lemma entries_nodup (h : distinctKeys (.object members) = true) (key : String) :
    (Members.keys (entriesIn (members.get? key))).Nodup := by
  cases hf : members.get? key with
  | none => exact List.nodup_nil
  | some found =>
    cases found with
    | object entries => exact (distinctKeys_object (distinctKeys_get? h hf)).1
    | _ => exact List.nodup_nil

lemma definitions_nodup (h : distinctKeys document = true) :
    (Members.keys (entriesIn (Compile.definitions? document))).Nodup := by
  cases document with
  | object members => exact entries_nodup h "definitions"
  | _ => exact List.nodup_nil

lemma leads_entry (h : Leads document path (.object members))
    (hm : (name, value) ∈ entriesIn (members.get? key)) :
    Leads document (path ++ [key] ++ [name]) value := by
  have hnodup := entries_nodup h.distinct key
  cases hf : members.get? key with
  | none =>
    rw [hf] at hm
    cases hm
  | some found =>
    rw [hf] at hm hnodup
    cases found with
    | object entries => exact leads_key (leads_key h hf) (get?_of_mem hnodup hm)
    | _ => cases hm

lemma leads_entrySite {position : Position} {site : Site}
    (h : Leads document path (.object members))
    (hsite : site ∈ entrySites position (path ++ [key]) (members.get? key)) :
    Leads document site.path site.schema := by
  obtain ⟨⟨name, value⟩, hm, rfl⟩ := List.mem_map.mp hsite
  exact leads_entry h hm

lemma leads_formSite {form : Form} {site : Site} (h : Leads document path (.object members))
    (hsite : site ∈ formSites path members form) : Leads document site.path site.schema := by
  cases form with
  | empty | type | enum | ref => cases hsite
  | elements | values =>
    obtain ⟨value, hv, rfl⟩ := List.mem_map.mp hsite
    exact leads_key h (Option.mem_toList.mp hv)
  | properties => rcases List.mem_append.mp hsite with hs | hs <;> exact leads_entrySite h hs
  | discriminator => exact leads_entrySite h hsite

lemma leads_below {site sub : Site} (h : Leads document site.path site.schema)
    (hsub : sub ∈ site.below) : Leads document sub.path sub.schema := by
  obtain ⟨members, form, hs, -, hform⟩ := mem_below hsub
  rw [hs] at h
  exact leads_formSite h hform

lemma leads_sites {site : Site} (h : Leads document site.path site.schema) :
    ∀ inner ∈ sites site, Leads document inner.path inner.schema := by
  induction site using site_induction with
  | step site ih =>
    intro inner hinner
    rw [sites_eq, List.mem_append, List.mem_singleton] at hinner
    rcases hinner with hinner | rfl
    · obtain ⟨sub, hsub, hin⟩ := List.mem_flatMap.mp hinner
      exact ih sub hsub (leads_below h hsub) inner hin
    · exact h

end Paths

lemma documentSites_eq (document : Json) :
    documentSites document = (entrySites .definition ["definitions"]
      (Compile.definitions? document) ++ Site.below ⟨.root, [], document⟩).flatMap sites ++
        [⟨.root, [], document⟩] := by
  rw [documentSites, sites_eq, List.flatMap_append, List.append_assoc]

lemma leads_definition {document : Json} (h : distinctKeys document = true) {site : Site}
    (hsite : site ∈ entrySites .definition ["definitions"] (Compile.definitions? document)) :
    Leads document site.path site.schema := by
  cases document with
  | object members =>
    have hroot : Leads (.object members) [] (.object members) := leads_root h
    exact leads_entrySite hroot hsite
  | _ => cases hsite

theorem documentSites_lead {document : Json} (h : distinctKeys document = true) :
    ∀ site ∈ documentSites document, Leads document site.path site.schema := by
  intro site hsite
  rcases List.mem_append.mp hsite with hs | hs
  · obtain ⟨entry, hentry, hin⟩ := List.mem_flatMap.mp hs
    exact leads_sites (leads_definition h hentry) site hin
  · exact leads_sites (leads_root h) site hs

/-- No path goes on from both. -/
def Apart (a b : Path) : Prop :=
  ∀ path, a <+: path → ¬ b <+: path

section Distinct

variable {document : Json} {members : Members} {site sub : Site}

lemma apart_of_ne {key other : String} (h : key ≠ other) (path more rest : Path) :
    Apart (path ++ key :: more) (path ++ other :: rest) := by
  rintro whole ⟨tail, rfl⟩ hb
  rw [List.append_assoc, List.prefix_append_right_inj, List.cons_append,
    List.cons_prefix_cons] at hb
  exact h hb.1.symm

lemma below_token (hsub : sub ∈ site.below) :
    ∃ token more, sub.path = site.path ++ token :: more ∧ token ≠ "definitions" := by
  obtain ⟨members, form, -, -, hform⟩ := mem_below hsub
  have hentry : ∀ position key, key ≠ "definitions" →
      sub ∈ entrySites position (site.path ++ [key]) (Members.get? members key) →
      ∃ token more, sub.path = site.path ++ token :: more ∧ token ≠ "definitions" := by
    intro position key hkey hsub
    obtain ⟨⟨name, value⟩, -, rfl⟩ := List.mem_map.mp hsub
    exact ⟨key, [name], List.append_assoc _ _ _, hkey⟩
  cases form with
  | empty | type | enum | ref => cases hform
  | elements | values =>
    obtain ⟨value, -, rfl⟩ := List.mem_map.mp hform
    exact ⟨_, [], rfl, by decide⟩
  | properties =>
    rcases List.mem_append.mp hform with hs | hs
    · exact hentry .nested "properties" (by decide) hs
    · exact hentry .nested "optionalProperties" (by decide) hs
  | discriminator => exact hentry _ "mapping" (by decide) hform

lemma sites_extend_path {inner : Site} (h : inner ∈ sites site) : site.path <+: inner.path := by
  induction site using site_induction with
  | step site ih =>
    rw [sites_eq, List.mem_append, List.mem_singleton] at h
    rcases h with h | rfl
    · obtain ⟨sub, hsub, hin⟩ := List.mem_flatMap.mp h
      obtain ⟨token, more, hpath, -⟩ := below_token hsub
      have hdown : site.path <+: sub.path := hpath ▸ List.prefix_append _ _
      exact hdown.trans (ih sub hsub hin)
    · exact List.prefix_refl _

lemma entrySites_apart (position : Position) (path : Path) {found : Option Json}
    (h : (Members.keys (entriesIn found)).Nodup) :
    (entrySites position path found).Pairwise fun a b => Apart a.path b.path := by
  rw [Members.keys, List.Nodup, List.pairwise_map] at h
  exact List.pairwise_map.mpr (h.imp fun hne => apart_of_ne hne path [] [])

lemma formSites_apart (h : distinctKeys (.object members) = true) (path : Path) (form : Form) :
    (formSites path members form).Pairwise fun a b => Apart a.path b.path := by
  have hentries := fun position key =>
    entrySites_apart position (path ++ [key]) (entries_nodup h key)
  have hsub : ∀ (found : Option Json) (toSite : Json → Site),
      (found.toList.map toSite).Pairwise fun a b => Apart a.path b.path := by
    intro found toSite
    cases found with
    | none => exact List.Pairwise.nil
    | some value => exact List.pairwise_singleton _ _
  cases form with
  | empty | type | enum | ref => exact List.Pairwise.nil
  | elements | values => exact hsub _ _
  | properties =>
    refine List.pairwise_append.mpr ⟨hentries _ _, hentries _ _, fun a ha b hb => ?_⟩
    obtain ⟨⟨name, value⟩, -, rfl⟩ := List.mem_map.mp ha
    obtain ⟨⟨other, part⟩, -, rfl⟩ := List.mem_map.mp hb
    have hapart := apart_of_ne (by decide : "properties" ≠ "optionalProperties") path
    simpa only [List.append_assoc, List.singleton_append] using hapart [name] [other]
  | discriminator => exact hentries _ _

lemma below_apart (h : distinctKeys site.schema = true) :
    site.below.Pairwise fun a b => Apart a.path b.path := by
  unfold Site.below
  split
  · rename_i members hs
    rw [hs] at h
    cases form? members with
    | none => exact List.Pairwise.nil
    | some form => exact formSites_apart h site.path form
  · exact List.Pairwise.nil

lemma blocks_nodup {subs : List Site}
    (happart : subs.Pairwise fun a b => Apart a.path b.path)
    (hblocks : ∀ sub ∈ subs, ((sites sub).map Site.path).Nodup)
    (habove : ∀ sub ∈ subs, ∃ token more, sub.path = site.path ++ token :: more) :
    ((subs.flatMap sites ++ [site]).map Site.path).Nodup := by
  have hlonger : ∀ inner ∈ subs.flatMap sites, inner.path ≠ site.path := by
    intro inner hinner he
    obtain ⟨sub, hsub, hin⟩ := List.mem_flatMap.mp hinner
    obtain ⟨token, more, hpath⟩ := habove sub hsub
    have hlength := (sites_extend_path hin).length_le
    rw [he, hpath, List.length_append, List.length_cons] at hlength
    omega
  have hdisjoint : subs.Pairwise fun a b =>
      List.Disjoint ((sites a).map Site.path) ((sites b).map Site.path) := by
    refine happart.imp fun hab path ha hb => ?_
    obtain ⟨inner, hinner, rfl⟩ := List.mem_map.mp ha
    obtain ⟨other, hother, he⟩ := List.mem_map.mp hb
    exact hab inner.path (sites_extend_path hinner) (he ▸ sites_extend_path hother)
  rw [List.map_append, List.map_flatMap, List.map_singleton, List.nodup_append]
  refine ⟨List.nodup_flatMap.mpr ⟨hblocks, hdisjoint⟩, List.nodup_singleton _, ?_⟩
  intro path hpath other hother
  rw [List.mem_singleton] at hother
  obtain ⟨sub, hsub, hin⟩ := List.mem_flatMap.mp hpath
  obtain ⟨inner, hinner, rfl⟩ := List.mem_map.mp hin
  rw [hother]
  exact hlonger inner (List.mem_flatMap.mpr ⟨sub, hsub, hinner⟩)

lemma sites_nodup (h : Leads document site.path site.schema) :
    ((sites site).map Site.path).Nodup := by
  induction site using site_induction with
  | step site ih =>
    rw [sites_eq]
    refine blocks_nodup (below_apart h.distinct) (fun sub hsub => ih sub hsub (leads_below h hsub))
      fun sub hsub => ?_
    obtain ⟨token, more, hpath, -⟩ := below_token hsub
    exact ⟨token, more, hpath⟩

end Distinct

theorem documentSites_nodup {document : Json} (h : distinctKeys document = true) :
    ((documentSites document).map Site.path).Nodup := by
  have hdefinitions := entrySites_apart .definition ["definitions"] (definitions_nodup h)
  -- For its path, a definition stands below the root, apart from what the root's form has there.
  rw [documentSites_eq]
  refine blocks_nodup (List.pairwise_append.mpr ⟨hdefinitions, below_apart h, ?_⟩) ?_ ?_
  · intro definition hdefinition sub hsub
    obtain ⟨⟨name, value⟩, -, rfl⟩ := List.mem_map.mp hdefinition
    obtain ⟨token, more, hpath, hne⟩ := below_token hsub
    rw [hpath]
    exact apart_of_ne (Ne.symm hne) [] [name] more
  · intro sub hsub
    rcases List.mem_append.mp hsub with hs | hs
    · exact sites_nodup (leads_definition h hs)
    · exact sites_nodup (leads_below (leads_root h) hs)
  · intro sub hsub
    rcases List.mem_append.mp hsub with hs | hs
    · obtain ⟨⟨name, value⟩, -, rfl⟩ := List.mem_map.mp hs
      exact ⟨"definitions", [name], rfl⟩
    · obtain ⟨token, more, hpath, -⟩ := below_token hs
      exact ⟨token, more, hpath⟩

end JsonTypeDefinition.Proofs
