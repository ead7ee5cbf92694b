import JsonTypeDefinition.Proofs.Circuits
import JsonTypeDefinition.Proofs.LibraryFaults

/-!
# Circular definitions

`RefersTo` is the graph of definitions that are nothing but references. The errors of a document
list its cycles, between the errors of the definitions and those of the root schema.
-/

open Relation

namespace JsonTypeDefinition.Proofs

/-- A definition is an object whose only form key is that of a reference to `target`. -/
def RefersTo (entries : Members) (name target : String) : Prop :=
  ∃ members : Members, entries.get? name = some (.object members) ∧
    (∀ key ∈ Members.keys members, (Form.ofKey? key).isSome ↔ key = "ref") ∧
    members.get? "ref" = some (.string target)

lemma hasForm_ref_iff {members : Members} {target : String}
    (hr : members.get? "ref" = some (.string target)) :
    HasForm (Members.keys members) .ref ↔
      ∀ key ∈ Members.keys members, (Form.ofKey? key).isSome ↔ key = "ref" := by
  have hmem : "ref" ∈ Members.keys members := by
    rw [← has_iff_mem_keys, Members.has, hr]
    rfl
  have hkey : Form.ofKey? "ref" = some .ref := by decide
  constructor
  · intro h key hk
    constructor
    · intro hs
      obtain ⟨other, ho⟩ := Option.isSome_iff_exists.mp hs
      have he := h.only key hk other ho
      exact ofKey?_eq_name (he ▸ ho) (by simp)
    · rintro rfl
      rw [hkey]
      rfl
  · intro h
    refine ⟨fun key hk other ho => ?_, fun _ => ⟨"ref", hmem, hkey⟩⟩
    have he : key = "ref" := (h key hk).mp (by rw [ho]; rfl)
    rw [he, hkey] at ho
    exact (Option.some.inj ho).symm

lemma reference?_eq_some_iff {scope : Scope} {value : Json} {target : String}
    (hd : distinctKeys value) :
    reference? scope value = some target ↔
      ∃ members : Members, value = .object members ∧
        (∀ key ∈ Members.keys members, (Form.ofKey? key).isSome ↔ key = "ref") ∧
        members.get? "ref" = some (.string target) := by
  have hfield : ∀ members : Members, (Compile.field members "ref").string? = some target ↔
      members.get? "ref" = some (.string target) := by
    intro members
    unfold Compile.field
    rcases members.get? "ref" with _ | ⟨_ | _ | _ | _ | _ | _⟩ <;> simp [Json.string?]
  cases value with
  | object members =>
    have hn := (distinctKeys_object hd).1
    simp only [Json.object.injEq, exists_eq_left', reference?]
    constructor
    · intro h
      split at h
      · rename_i keys hk
        split_ifs at h with hf
        have hr := (hfield members).mp h
        refine ⟨(hasForm_ref_iff hr).mp ?_, hr⟩
        rw [← hf]
        exact (hasForm_of_ofKeys hk).1
      · cases h
    · rintro ⟨hk, hr⟩
      rw [ofKeys_of_hasForm hn ((hasForm_ref_iff hr).mpr hk)]
      exact (if_pos rfl).trans ((hfield members).mpr hr)
  | _ => simp [reference?]

lemma lookup_edgesOf (scope : Scope) {entries : Members} (hn : (Members.keys entries).Nodup)
    (name : String) :
    (edgesOf scope entries).lookup name = (entries.get? name).bind (reference? scope) := by
  induction entries with
  | nil => rfl
  | cons entry rest ih =>
    obtain ⟨source, value⟩ := entry
    obtain ⟨hnot, hn⟩ := List.nodup_cons.mp hn
    rw [lookup_edgesOf_cons, ih hn, get?_cons]
    by_cases he : source = name
    · have hnone : Members.get? rest name = none := get?_eq_none_iff.mpr (he ▸ hnot)
      rw [if_pos he, if_pos he, hnone, Option.bind_none, Option.or_none, Option.bind_some]
    · rw [if_neg he, if_neg he, Option.none_or]

/-- Where no key is repeated, the edges gathered from the notes are the references between the
definitions. -/
lemma step_edgesOf {scope : Scope} {entries : Members} (hd : distinctKeys (.object entries)) :
    Step (edgesOf scope entries) = RefersTo entries := by
  funext name target
  rw [Step, lookup_edgesOf scope (distinctKeys_object hd).1]
  apply propext
  cases hv : entries.get? name with
  | none => simp [RefersTo, hv]
  | some value =>
    rw [Option.bind_some, reference?_eq_some_iff (distinctKeys_get? hd hv)]
    simp only [RefersTo, hv, Option.some.injEq]

lemma distinctKeys_definitions {document found : Json} (hd : distinctKeys document)
    (h : Compile.definitions? document = some found) : distinctKeys found := by
  cases document with
  | object members => exact distinctKeys_get? hd h
  | _ => cases h

/-- The errors of a document report the cycles between its definitions: after the errors inside
these, before those of the root schema, and nowhere else unless a hook reports one. -/
structure ReportsCycles (options : Options) (document : Json) (entries : Members)
    (cycles : List (List String)) : Prop where
  errors : compileErrors options document =
    errorsOfEntries (scopeOf options document) .definition ["definitions"] entries ++
      cycles.map circularError ++ errorsOf (scopeOf options document) .root [] document
  listed : ListsCycles (RefersTo entries) cycles
  inside : ∀ error ∈ errorsOfEntries (scopeOf options document) .definition ["definitions"] entries,
    ∃ name ∈ Members.keys entries, ["definitions", name] <+: error.path
  outside : ∀ error ∈ errorsOf (scopeOf options document) .root [] document,
    ¬ ["definitions"] <+: error.path
  hooked : ∀ error ∈ compileErrors options document, isCircular error.fault →
    error ∈ cycles.map circularError ∨
      ∃ form members path, error.fault ∈ (options.contribution form members path).faults
  /-- The hooks of the library report none. -/
  only : ∀ engine, (∀ extension ∈ options.extensions, extension ∈ libraryExtensions engine) →
    ∀ error ∈ compileErrors options document,
      isCircular error.fault ↔ error ∈ cycles.map circularError

lemma inside_belongs {options : Options} {document : Json} {entries : Members}
    {error : SchemaError} (he : error ∈ errorsOfEntries (scopeOf options document) .definition
      ["definitions"] entries) :
    ∃ name ∈ Members.keys entries, Belongs options (["definitions"] ++ [name]) error := by
  obtain ⟨⟨name, value⟩, hm, he⟩ := List.mem_flatMap.mp he
  exact ⟨name, List.mem_map.mpr ⟨_, hm, rfl⟩, errorsOf_belong _ value _ _ error he⟩

/-- Whatever else is wrong with a document, its errors report the cycles of its definitions. -/
theorem compileErrors_report_cycles (options : Options) {document : Json} {entries : Members}
    (h : Compile.definitions? document = some (.object entries)) (hd : distinctKeys document) :
    ∃ cycles, ReportsCycles options document entries cycles := by
  have hde := distinctKeys_definitions hd h
  have hroot := errorsOf_belong (scopeOf options document) document .root []
  have herrors : compileErrors options document =
      errorsOfEntries (scopeOf options document) .definition ["definitions"] entries ++
        (Cycle.find (edgesOf (scopeOf options document) entries)).map circularError ++
        errorsOf (scopeOf options document) .root [] document := by
    rw [compileErrors_eq, documentErrors, h]
    rfl
  have hhooked : ∀ error ∈ compileErrors options document, isCircular error.fault →
      error ∈ (Cycle.find (edgesOf (scopeOf options document) entries)).map circularError ∨
        ∃ form members path, error.fault ∈ (options.contribution form members path).faults := by
    intro error he hc
    rw [herrors, List.mem_append, List.mem_append] at he
    rcases he with (he | he) | he
    · obtain ⟨name, -, hb⟩ := inside_belongs he
      exact .inr (hb.hooked hc)
    · exact .inl he
    · exact .inr ((hroot error he).hooked hc)
  refine ⟨_, herrors, step_edgesOf hde ▸ find_lists_cycles _, ?_, ?_, hhooked, ?_⟩
  · intro error he
    obtain ⟨name, hn, ⟨rest, hp, -⟩, -⟩ := inside_belongs he
    exact ⟨name, hn, rest, hp.symm⟩
  · rintro error he ⟨more, hp⟩
    obtain ⟨rest, hrest, hhead⟩ := (hroot error he).below
    rw [List.nil_append, ← hp] at hrest
    rw [← hrest] at hhead
    exact hhead rfl
  · intro engine hlibrary error he
    constructor
    · intro hc
      rcases hhooked error he hc with hm | ⟨form, members, path, hf⟩
      · exact hm
      · have hno := contribution_uncircular hlibrary form members path error.fault hf
        rw [hno] at hc
        cases hc
    · intro hm
      obtain ⟨names, -, rfl⟩ := List.mem_map.mp hm
      rfl

/-- A document with a cycle of two definitions, and references that are on no cycle. -/
def twoWayDocument : Json :=
  .object [("ref", .string "up"), ("definitions", .object
    [("up", .object [("ref", .string "down")]),
      ("down", .object [("ref", .string "up"), ("metadata", .null)]),
      ("lost", .object [("ref", .string "nowhere")]),
      ("tree", .object [("elements", .object [("ref", .string "tree")])])])]

theorem twoWayDocument_reports_cycles :
    ∃ entries, Compile.definitions? twoWayDocument = some (.object entries) ∧
      distinctKeys twoWayDocument ∧
      ∃ cycles, ReportsCycles literalLibrary twoWayDocument entries cycles :=
  ⟨_, rfl, by decide, compileErrors_report_cycles _ rfl (by decide)⟩

end JsonTypeDefinition.Proofs
