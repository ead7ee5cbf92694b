import JsonTypeDefinition.Proofs.EnforcedChecks
import JsonTypeDefinition.Proofs.ExtensionOrder
import JsonTypeDefinition.Proofs.IntegerTypes
import JsonTypeDefinition.Proofs.LeapSecondRejections

/-!
# Multiples

A divisor that compiles is whole, and so is every number that passes the check of its type. Then the
remainder of the division of both is zero just if the number is a multiple of the divisor, unless
the divisor is zero: there is no remainder then, and not even zero is taken for a multiple of it.
-/

namespace JsonTypeDefinition.Proofs
open Checks

/-- A schema object of an integer type whose checks ask for multiples. -/
structure AsksMultiples (members : Members) (type : Primitive) (asked : Json) : Prop where
  named : members.get? "type" = some (.string type.name)
  integer : type.isInteger = true
  asks : ∃ checks, members.get? "x:checks" = some (.object checks) ∧
    Members.get? checks "multipleOf" = some asked

def isMultiple : Violation → Bool
  | .notMultipleOf _ => true
  | _ => false

/-- What is reported of the integer `i` where multiples of `m` are asked for, if `error` says that
it is none. -/
inductive MultipleReport (m i : Int) (error : InstanceError) : List InstanceError → Prop where
  | multiple {k : Int} (hm : m ≠ 0) (h : i = k * m) : MultipleReport m i error []
  | other (h : ∀ k : Int, i ≠ k * m) : MultipleReport m i error [error]
  | zero (hm : m = 0) : MultipleReport m i error [error]

/-- Where multiples are asked for, it is a whole number that they are multiples of, and what is
reported of a value that passes the check of its type is as said. -/
structure ReportsMultiples (document : Json) (validator : Validator) : Prop where
  visits : ∀ value, (validator.validate value).toList =
    (entered validator value).flatMap (entryErrors validator)
  finds : ∀ (id : Nat) node members type asked, validator.nodes[id]? = some node →
    resolve document node.schemaPath = some (.object members) → AsksMultiples members type asked →
      ∃ (divisor : Number) (m : Int), asked = .number divisor ∧ divisor.value = m ∧
        ∀ entry : Entry, entry.id = id → type.violation? entry.value = none →
          ∃ (n : Number) (i : Int), entry.value = .number n ∧ n.value = i ∧
            MultipleReport m i
              ⟨node.schemaPath ++ ["type"], entry.place, .notMultipleOf divisor.toBinary64⟩
              ((entryErrors validator entry).filter fun error => isMultiple error.violation)

section Division

variable {x y : Binary64} {i m : Int}

lemma integerPart_intCast (k : Int) : integerPart k = k := by
  rw [integerPart, Rat.num_intCast, Rat.den_intCast, Nat.cast_one, Int.tdiv_one]

lemma rem?_eq_zero_iff (hx : x.toRat = i) (hy : y.toRat = m) :
    x.rem? y = some 0 ↔ m ≠ 0 ∧ ∃ k : Int, i = k * m := by
  rw [Binary64.rem?, hx, hy]
  by_cases hm : m = 0
  · simp [hm]
  · have hcast : (m : Rat) ≠ 0 := by exact_mod_cast hm
    rw [if_neg hcast, Option.some_inj, sub_eq_zero]
    constructor
    · intro h
      refine ⟨hm, integerPart (i / m), ?_⟩
      rw [mul_comm]
      exact_mod_cast h
    · rintro ⟨-, k, rfl⟩
      rw [Int.cast_mul, mul_div_cancel_right₀ _ hcast, integerPart_intCast, mul_comm]

lemma multipleReport (error : InstanceError) (hx : x.toRat = i) (hy : y.toRat = m) :
    MultipleReport m i error (if x.rem? y = some 0 then [] else [error]) := by
  have hiff := rem?_eq_zero_iff hx hy
  split_ifs with h
  · obtain ⟨hm, k, hk⟩ := hiff.mp h
    exact .multiple hm hk
  · by_cases hm : m = 0
    · exact .zero hm
    · exact .other fun k hk => h (hiff.mpr ⟨hm, k, hk⟩)

end Division

section Checks

variable {engine : PatternEngine} {members checks : Members} {type : Primitive} {divisor n : Number}

lemma bounds_not_multiple {measure : Measure} {lower upper : BoundKeys} {find : Lookup}
    {target : Rat} {violations : List Violation}
    (h : BoundsFind measure lower upper find target violations) :
    violations.filter isMultiple = [] := by
  cases h <;> rfl

lemma multipleFinds_iff {violations : List Violation}
    (h : MultipleFinds checks.get? n violations)
    (hasked : checks.get? "multipleOf" = some (.number divisor)) :
    violations = if n.toBinary64.rem? divisor.toBinary64 = some 0 then []
      else [.notMultipleOf divisor.toBinary64] := by
  cases h with
  | multiple h => rw [if_pos (h divisor hasked)]
  | rest hdivisor hrest =>
    cases hasked.symm.trans hdivisor
    rw [if_neg hrest]

lemma typePart_multiples (htype : typeOf? members = some type)
    (hsilent : (typePart engine type checks.get?).faults = [])
    (hasked : checks.get? "multipleOf" = some (.number divisor))
    (hn : isOfType type (.number n) = true) :
    (finds (typePart engine type checks.get?) (.number n)).filter isMultiple =
      if n.toBinary64.rem? divisor.toBinary64 = some 0 then []
        else [.notMultipleOf divisor.toBinary64] := by
  have hfinds := typePart_finds htype hsilent hn
  generalize finds (typePart engine type checks.get?) (.number n) = violations at hfinds ⊢
  cases hfinds with
  | number _ _ hvalue hmultiple =>
    rw [List.filter_append, bounds_not_multiple hvalue, List.nil_append,
      multipleFinds_iff hmultiple hasked]
    split_ifs <;> rfl
  | other hform => exact absurd hform (by decide)

end Checks

section Extensions

variable {engine : PatternEngine} {calls : List Extension} {extension : Extension}
  {members : Members}

lemma mem_firstOfName (h : extension ∈ firstOfName calls) : extension ∈ calls := by
  obtain ⟨⟨other, i⟩, hpair, he⟩ := List.mem_filterMap.mp h
  dsimp only at he
  split_ifs at he
  obtain rfl := Option.some.inj he
  exact List.fst_mem_of_mem_zipIdx hpair

lemma eq_checks_of_name (h : extension ∈ libraryExtensions engine)
    (hname : extension.name = Checks.extensionName) : extension = Checks.extensionWith engine := by
  simp only [libraryExtensions, List.mem_cons, List.not_mem_nil, or_false] at h
  rcases h with rfl | rfl | rfl
  · exact absurd hname (by decide)
  · exact absurd hname (by decide)
  · rfl

lemma mem_held_checks (hlibrary : ∀ extension ∈ calls, extension ∈ libraryExtensions engine)
    (hchecks : Checks.extensionWith engine ∈ calls) :
    Checks.extensionWith engine ∈ firstOfName calls := by
  have hany : calls.any (fun other => other.name == Checks.extensionName) = true :=
    List.any_eq_true.mpr ⟨_, hchecks, beq_self_eq_true _⟩
  rw [← any_ofExtensions, ofExtensions_holds, List.any_eq_true] at hany
  obtain ⟨other, hother, hname⟩ := hany
  rwa [← eq_checks_of_name (hlibrary other (mem_firstOfName hother)) (eq_of_beq hname)]

lemma held_checks (hlibrary : ∀ extension ∈ calls, extension ∈ libraryExtensions engine)
    (hchecks : Checks.extensionWith engine ∈ calls) :
    ((firstOfName calls).filter fun extension => extension.name = Checks.extensionName) =
      [Checks.extensionWith engine] := by
  have hnodup := (names_nodup calls).of_map
  have hperm : ((firstOfName calls).filter fun extension =>
      extension.name = Checks.extensionName).Perm [Checks.extensionWith engine] := by
    refine (List.perm_ext_iff_of_nodup (hnodup.filter _) (List.nodup_singleton _)).mpr ?_
    intro extension
    rw [List.mem_filter, List.mem_singleton, decide_eq_true_iff]
    constructor
    · rintro ⟨he, hname⟩
      exact eq_checks_of_name (hlibrary extension (mem_firstOfName he)) hname
    · rintro rfl
      exact ⟨mem_held_checks hlibrary hchecks, rfl⟩
  exact List.perm_singleton.mp hperm

lemma checks_contribution {checks : Members} {type : Primitive}
    (htype : typeOf? members = some type)
    (hchecks : members.get? "x:checks" = some (.object checks)) (path : Path) :
    (only (Checks.extensionWith engine)).contribution .type members path =
      joined (typePart engine type checks.get?)
        { faults := surplusFaults (without (knownKeys .type members) checks) } := by
  have honly : (only (Checks.extensionWith engine)).contribution .type members path =
      hook (readForm engine .type) members path := contribution_checks .type members path
  rw [honly, hook_reads engine .type members checks path hchecks, formPart, htype, Option.elim_some]

lemma others_not_multiple (h : extension ∈ libraryExtensions engine)
    (hname : extension.name ≠ Checks.extensionName) (path : Path) (value : Json) :
    (finds ((only extension).contribution .type members path) value).filter isMultiple = [] := by
  simp only [libraryExtensions, List.mem_cons, List.not_mem_nil, or_false] at h
  rcases h with rfl | rfl | rfl
  · rfl
  · have hsupplements : ((only LeapSeconds.extension).contribution .type members path).supplements =
        _ := attached_supplements .type members path
    rw [finds, hsupplements]
    split_ifs
    · rw [List.flatMap_singleton]
      unfold LeapSeconds.supplement
      split
      · split_ifs <;> rfl
      · rfl
    · rfl
  · exact absurd rfl hname

end Extensions

section Nodes

variable {engine : PatternEngine} {calls : List Extension} {document : Json}
  {validator : Validator} {id : Nat} {node : Node} {members : Members} {type : Primitive}

lemma node_of_type {options : Options} (h : compile options document = .ok validator)
    (hd : distinctKeys document = true) (hnode : validator.nodes[id]? = some node)
    (hleads : resolve document node.schemaPath = some (.object members))
    (hnamed : members.get? "type" = some (.string type.name)) :
    node.shape = .type type ∧ typeOf? members = some type ∧
      (options.contribution .type members node.formPath).faults = [] := by
  have hname : Primitive.ofName? type.name = some type := by cases type <;> decide
  obtain ⟨site, hsite⟩ := site_of_id h hnode
  obtain ⟨found, hof⟩ := node_of_site h hd hsite hnode
  obtain rfl : members = found := by simpa using hleads.symm.trans hof.leads
  cases hof.stands with
  | @object _ _ _ keys shape _ hkeys _ _ hstored hshape =>
    cases hnode.symm.trans hstored
    have hmem : "type" ∈ Members.keys members := List.mem_map.mpr ⟨_, get?_mem hnamed, rfl⟩
    have hform : keys.form = .type := ((hasForm_of_ofKeys hkeys).1.only "type" hmem .type rfl).symm
    have hsilent := (nothing_reported ((compile_ok_iff options document).mp ⟨validator, h⟩)).hooks
      site (List.mem_of_getElem? hsite) members keys.form hof.schema (form?_of_ofKeys hkeys)
    rw [hform] at hshape hsilent
    cases hshape with
    | @type _ _ _ name named hget hnamed' =>
      obtain rfl : type.name = name := by simpa using hnamed.symm.trans hget
      obtain rfl : type = named := Option.some.inj (hname.symm.trans hnamed')
      refine ⟨rfl, ?_, hsilent⟩
      rw [typeOf?, hget, Option.bind_some, Json.string?, Option.bind_some, hname]

lemma typePart_silent {path : Path} {checks : Members}
    (hlibrary : ∀ extension ∈ calls, extension ∈ libraryExtensions engine)
    (hchecks : Checks.extensionWith engine ∈ calls) (htype : typeOf? members = some type)
    (hfound : members.get? "x:checks" = some (.object checks))
    (h : ((Options.ofExtensions calls).contribution .type members path).faults = []) :
    (typePart engine type checks.get?).faults = [] := by
  rw [(contribution_each _ _ _ _).1, ofExtensions_holds, List.flatMap_eq_nil_iff] at h
  have hpart := h (Checks.extensionWith engine) (mem_held_checks hlibrary hchecks)
  rw [checks_contribution htype hfound, joined, List.append_eq_nil_iff] at hpart
  exact hpart.1

lemma suppliedBy_multiples (hshape : node.shape = .type type)
    (hleads : resolve document node.schemaPath = some (.object members)) (extension : Extension)
    (place : Path) (value : Json) :
    (supplementErrors (suppliedBy extension document node) place value).filter
        (fun error => isMultiple error.violation) =
      ((finds ((only extension).contribution .type members node.formPath) value).filter
        isMultiple).map fun violation => ⟨node.schemaPath ++ ["type"], place, violation⟩ := by
  have hpath : (suppliedBy extension document node).supplementPath =
      node.schemaPath ++ ["type"] := by
    simp only [suppliedBy, Node.supplementPath, Node.formPath, hshape]
    rfl
  have hsupplements : (suppliedBy extension document node).supplements =
      ((only extension).contribution .type members node.formPath).supplements := by
    rw [suppliedBy, hleads, hshape]
    rfl
  rw [supplementErrors_eq, List.filter_map, hpath, hsupplements]
  rfl

lemma multiple_errors (hlibrary : ∀ extension ∈ calls, extension ∈ libraryExtensions engine)
    (hchecks : Checks.extensionWith engine ∈ calls)
    (h : compile (.ofExtensions calls) document = .ok validator)
    (hd : distinctKeys document = true) (hnode : validator.nodes[id]? = some node)
    (hleads : resolve document node.schemaPath = some (.object members)) {divisor : Number}
    (hasks : AsksMultiples members type (.number divisor)) {n : Number}
    (hn : type.violation? (.number n) = none) (place : Path) :
    (supplementErrors node place (.number n)).filter (fun error => isMultiple error.violation) =
      if n.toBinary64.rem? divisor.toBinary64 = some 0 then []
      else [⟨node.schemaPath ++ ["type"], place, .notMultipleOf divisor.toBinary64⟩] := by
  obtain ⟨hshape, htype, hsilent⟩ := node_of_type h hd hnode hleads hasks.named
  obtain ⟨checks, hfound, hasked⟩ := hasks.asks
  have hof : isOfType type (.number n) = true := by
    by_contra hno
    rw [violation?_eq, if_neg hno] at hn
    cases hn
  have hpart := typePart_silent hlibrary hchecks htype hfound hsilent
  have heach : ∀ extension ∈ firstOfName calls,
      (supplementErrors (suppliedBy extension document node) place (.number n)).filter
          (fun error => isMultiple error.violation) =
        if extension.name = Checks.extensionName then
          if n.toBinary64.rem? divisor.toBinary64 = some 0 then []
          else [⟨node.schemaPath ++ ["type"], place, .notMultipleOf divisor.toBinary64⟩]
        else [] := by
    intro extension he
    have hknown := hlibrary extension (mem_firstOfName he)
    rw [suppliedBy_multiples hshape hleads]
    by_cases hname : extension.name = Checks.extensionName
    · obtain rfl := eq_checks_of_name hknown hname
      rw [if_pos hname, checks_contribution htype hfound, finds_joined, List.filter_append,
        typePart_multiples htype hpart hasked hof]
      split_ifs <;> rfl
    · rw [if_neg hname, others_not_multiple hknown hname, List.map_nil]
  rw [supplements_each h hd hnode, ofExtensions_holds, List.filter_flatMap,
    List.flatMap_congr heach, flatMap_named, held_checks hlibrary hchecks, List.flatMap_singleton]

lemma asked_divisor (hlibrary : ∀ extension ∈ calls, extension ∈ libraryExtensions engine)
    (hchecks : Checks.extensionWith engine ∈ calls)
    (h : compile (.ofExtensions calls) document = .ok validator)
    (hd : distinctKeys document = true) (hnode : validator.nodes[id]? = some node)
    (hleads : resolve document node.schemaPath = some (.object members)) {asked : Json}
    (hasks : AsksMultiples members type asked) :
    ∃ (divisor : Number) (m : Int), asked = .number divisor ∧ divisor.value = m := by
  obtain ⟨-, htype, hsilent⟩ := node_of_type h hd hnode hleads hasks.named
  obtain ⟨checks, hfound, hasked⟩ := hasks.asks
  have hpart := typePart_silent hlibrary hchecks htype hfound hsilent
  obtain ⟨-, -, -, hdivisors⟩ := typePart_faults_eq_nil_iff.mp hpart
  obtain ⟨-, divisor, rfl, hwhole⟩ := hdivisors asked hasked
  obtain ⟨m, hm⟩ := isWhole_iff.mp hwhole
  exact ⟨divisor, m, rfl, hm⟩

lemma integer_of_accepted (hinteger : type.isInteger = true) {value : Json}
    (hvalue : type.violation? value = none) :
    ∃ (n : Number) (i : Int), value = .number n ∧ n.value = i := by
  obtain ⟨⟨low, high⟩, hrange⟩ := Option.isSome_iff_exists.mp hinteger
  cases value with
  | number n =>
    have hwhole : isWhole n.value = true := by
      by_contra hno
      simp [Primitive.violation?, hrange, Json.number?, Bool.eq_false_iff.mpr hno] at hvalue
    obtain ⟨i, hi⟩ := isWhole_iff.mp hwhole
    exact ⟨n, i, rfl, hi⟩
  | _ => simp [Primitive.violation?, hrange, Json.number?] at hvalue

end Nodes

/-- Where a document asks for multiples with the extension for checks, among others of the library
or alone, just those integers are reported that are no multiple of the divisor, and all if it is
zero. -/
theorem multiples_reported {engine : PatternEngine} {calls : List Extension}
    (hlibrary : ∀ extension ∈ calls, extension ∈ libraryExtensions engine)
    (hchecks : Checks.extensionWith engine ∈ calls) {document : Json} {validator : Validator}
    (hd : distinctKeys document = true)
    (h : compile (.ofExtensions calls) document = .ok validator) :
    ReportsMultiples document validator := by
  refine ⟨validate_entered (compiled_stands h), ?_⟩
  intro id node members type asked hnode hleads hasks
  obtain ⟨divisor, m, rfl, hm⟩ := asked_divisor hlibrary hchecks h hd hnode hleads hasks
  refine ⟨divisor, m, rfl, hm, ?_⟩
  intro entry hid hn
  obtain ⟨n, i, hvalue, hi⟩ := integer_of_accepted hasks.integer hn
  rw [hvalue] at hn
  refine ⟨n, i, hvalue, hi, ?_⟩
  have hlooks : entry.node? validator = some node :=
    node?_eq_some_iff.mpr ⟨hid ▸ hnode, by simp [hvalue, Json.kind]⟩
  obtain ⟨hshape, -, -⟩ := node_of_type h hd hnode hleads hasks.named
  rw [entryErrors_of_node hlooks, nodeErrors_type hshape, hvalue, hn]
  dsimp only
  rw [multiple_errors hlibrary hchecks h hd hnode hleads hasks hn]
  exact multipleReport _ hi hm

/-- Whole dozens below zero, next to what only zero is a multiple of. -/
def dozensDocument : Json :=
  .object [("elements", .object [("properties", .object
    [("dozens", .object [("type", .string "int16"),
        ("x:checks", .object [("multipleOf", .number (.int (-12)))])]),
      ("none", .object [("type", .string "uint32"),
        ("x:checks", .object [("multipleOf", .number (.int 9007199254740993))])])])])]

/-- A multiple and a number that is none, for each of the divisors. -/
def dozensCounted : Json :=
  .array [.object [("dozens", .number (.int 36)), ("none", .number (.int 0))],
    .object [("dozens", .number (.int (-37))), ("none", .number (.int 4294967295))]]

/-- The calls enable the extension for checks twice, among others. -/
def dozensCalls : List Extension :=
  [Checks.extensionWith literalEngine, LeapSeconds.extension, Checks.extensionWith literalEngine,
    EmptyMappings.extension]

theorem dozensDocument_reports :
    (∀ extension ∈ dozensCalls, extension ∈ libraryExtensions literalEngine) ∧
      Checks.extensionWith literalEngine ∈ dozensCalls ∧
      distinctKeys dozensDocument = true ∧
      ∃ validator, compile (.ofExtensions dozensCalls) dozensDocument = .ok validator ∧
        ReportsMultiples dozensDocument validator ∧
        (validator.validate dozensCounted).toList.map
            (fun error => (error.instancePath, error.violation.code)) =
          [(["1", "dozens"], "EXTENSION:X_CHECKS:NOT_MULTIPLE_OF"),
            (["1", "none"], "EXTENSION:X_CHECKS:NOT_MULTIPLE_OF")] := by
  have hlibrary : ∀ extension ∈ dozensCalls, extension ∈ libraryExtensions literalEngine := by
    simp [dozensCalls, libraryExtensions]
  have hchecks : Checks.extensionWith literalEngine ∈ dozensCalls := List.mem_cons_self
  have hd : distinctKeys dozensDocument = true := by decide
  have hfound : (compile (.ofExtensions dozensCalls) dozensDocument).toOption.map (fun validator =>
      (validator.validate dozensCounted).toList.map fun error =>
        (error.instancePath, error.violation.code)) =
      some [(["1", "dozens"], "EXTENSION:X_CHECKS:NOT_MULTIPLE_OF"),
        (["1", "none"], "EXTENSION:X_CHECKS:NOT_MULTIPLE_OF")] := by
    decide +kernel
  obtain ⟨validator, h, hfound⟩ := compiles_with hfound
  exact ⟨hlibrary, hchecks, hd, validator, h, multiples_reported hlibrary hchecks hd h, hfound⟩

def zerosDocument : Json :=
  .object [("type", .string "int8"), ("x:checks", .object [("multipleOf", .number (.int 0))])]

/-- Zero is an integer and zero times every integer, but reported as no multiple of zero. -/
theorem zero_reported :
    Primitive.int8.violation? (.number (.int 0)) = none ∧ (Number.int 0).value = (0 : Int) ∧
      (∃ k : Int, (0 : Int) = k * 0) ∧
      ∃ validator, compile (withChecks literalEngine) zerosDocument = .ok validator ∧
        (validator.validate (.number (.int 0))).toList.map
            (fun error => (error.schemaPath, error.instancePath, error.violation.code)) =
          [(["type"], [], "EXTENSION:X_CHECKS:NOT_MULTIPLE_OF")] := by
  have hfound : (compile (withChecks literalEngine) zerosDocument).toOption.map (fun validator =>
      (validator.validate (.number (.int 0))).toList.map fun error =>
        (error.schemaPath, error.instancePath, error.violation.code)) =
      some [(["type"], [], "EXTENSION:X_CHECKS:NOT_MULTIPLE_OF")] := by
    decide +kernel
  obtain ⟨validator, h, hfound⟩ := compiles_with hfound
  exact ⟨by decide +kernel, by decide +kernel, ⟨0, rfl⟩, validator, h, hfound⟩

end JsonTypeDefinition.Proofs
