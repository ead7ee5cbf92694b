import JsonTypeDefinition.Extension.LeapSeconds
import JsonTypeDefinition.Proofs.ArenaInvariant
import JsonTypeDefinition.Proofs.Entries
import JsonTypeDefinition.Proofs.TimestampTexts

/-!
# Where leap seconds are rejected

The extension against leap seconds looks at two bytes of a text. As it only sees texts that are
timestamps, and these have their second at a fixed place, it rejects just the timestamps whose
second is 60.
-/

namespace JsonTypeDefinition.Proofs
open Timestamp

def withoutLeapSeconds : Options :=
  .ofExtensions [LeapSeconds.extension]

/-- What a visit to the node of a schema object finds wrong. -/
inductive VisitFinds (members : Members) (node : Node) (entry : Entry) :
    List InstanceError → Prop where
  | otherSchema {errors : List InstanceError}
      (htype : members.get? "type" ≠ some (.string "timestamp"))
      (h : ∀ error ∈ errors, error.violation ≠ .leapSecond) : VisitFinds members node entry errors
  | null (htype : members.get? "type" = some (.string "timestamp"))
      (hnullable : node.nullable = true) (hnull : entry.value = .null) :
      VisitFinds members node entry []
  | mismatch (htype : members.get? "type" = some (.string "timestamp"))
      (hlooks : ¬ (node.nullable = true ∧ entry.value = .null))
      (h : ∀ s, entry.value = .string s → isTimestamp s = false) :
      VisitFinds members node entry
        [⟨node.schemaPath ++ ["type"], entry.place, .typeMismatch .timestamp entry.value.kind⟩]
  | leapSecond {s : String} {t : Timestamp}
      (htype : members.get? "type" = some (.string "timestamp")) (hvalue : entry.value = .string s)
      (ht : parse? s = some t) (hsecond : t.second = 60) :
      VisitFinds members node entry [⟨node.schemaPath ++ ["type"], entry.place, .leapSecond⟩]
  | otherSecond {s : String} {t : Timestamp}
      (htype : members.get? "type" = some (.string "timestamp")) (hvalue : entry.value = .string s)
      (ht : parse? s = some t) (hsecond : t.second ≠ 60) : VisitFinds members node entry []

/-- A validation reports what is found in the visits to nodes, each of a schema of the document, one
after another. -/
structure RejectsLeapSeconds (document : Json) (validator : Validator) (value : Json) : Prop where
  visits : (validator.validate value).toList =
    (entered validator value).flatMap (entryErrors validator)
  finds : ∀ entry ∈ entered validator value, ∃ node members,
    validator.nodes[entry.id]? = some node ∧
      resolve document node.schemaPath = some (.object members) ∧
      VisitFinds members node entry (entryErrors validator entry)

section Bytes

variable {s : String} {t : Timestamp} {text : List Char}

lemma ascii_bytes (h : ∀ c ∈ text, c.toNat < 128) :
    text.flatMap String.utf8EncodeChar = text.map fun c => UInt8.ofNat c.toNat := by
  induction text with
  | nil => rfl
  | cons c rest ih =>
    obtain ⟨hc, hrest⟩ := List.forall_mem_cons.mp h
    have hone : String.utf8EncodeChar c = [UInt8.ofNat c.toNat] := by
      have hle : c.val.toNat ≤ 127 := Nat.le_of_lt_succ hc
      rw [String.utf8EncodeChar, if_pos hle]
      rfl
    rw [List.flatMap_cons, hone, ih hrest, List.map_cons, List.singleton_append]

lemma padded_length (places n : Nat) : (padded places n).length = places := by
  induction places generalizing n with
  | zero => rfl
  | succ places ih => rw [padded, List.length_cons, ih]

lemma second_written (h : Spells t text) : (text.drop 17).take 2 = padded 2 t.second := by
  obtain ⟨separator, fraction, offset, -, -, -, rfl⟩ := h.written
  have hfront : (padded 4 t.year ++ '-' :: padded 2 t.month ++ '-' :: padded 2 t.day ++
      separator :: padded 2 t.hour ++ ':' :: padded 2 t.minute ++ [':']).length = 17 := by
    simp only [List.length_append, List.length_cons, List.length_nil, padded_length]
  have htext : padded 4 t.year ++ '-' :: padded 2 t.month ++ '-' :: padded 2 t.day ++
      separator :: padded 2 t.hour ++ ':' :: padded 2 t.minute ++ ':' :: padded 2 t.second ++
      fraction ++ offset = (padded 4 t.year ++ '-' :: padded 2 t.month ++ '-' :: padded 2 t.day ++
      separator :: padded 2 t.hour ++ ':' :: padded 2 t.minute ++ [':']) ++
      (padded 2 t.second ++ (fraction ++ offset)) := by
    simp only [List.append_assoc, List.cons_append, List.nil_append]
  rw [htext, List.drop_left' hfront, List.take_left' (padded_length 2 t.second)]

lemma sixty_bytes {n : Nat} (h : n ≤ 60) :
    ((padded 2 n).map fun c => UInt8.ofNat c.toNat) = [0x36, 0x30] ↔ n = 60 := by
  interval_cases n <;> decide

lemma secondBytes_iff (h : parse? s = some t) :
    LeapSeconds.secondBytes s = [0x36, 0x30] ↔ t.second = 60 := by
  have hspells : Spells t s.toList := parse?_eq_some_iff.mp h
  rw [LeapSeconds.secondBytes, ascii_bytes (spells_ascii hspells), ← List.map_drop, ← List.map_take,
    second_written hspells, sixty_bytes hspells.second]

end Bytes

section Nodes

variable {options : Options} {document value : Json} {validator : Validator} {members : Members}
  {node : Node} {entry : Entry}

lemma attached_supplements (form : Form) (members : Members) (path : Path) :
    (withoutLeapSeconds.contribution form members path).supplements =
      if form = .type ∧ (members.get? "type").bind Json.string? = some "timestamp" then
        [LeapSeconds.supplement]
      else [] := by
  have hhooks : withoutLeapSeconds.hooksFor form =
      if form = .type then [LeapSeconds.hook] else [] := by
    cases form <;> rfl
  rw [Options.contribution, hhooks]
  by_cases hform : form = .type
  · simp only [hform, if_true, true_and, List.map_cons, List.map_nil, List.flatMap_cons,
      List.flatMap_nil, List.append_nil, LeapSeconds.hook]
    split_ifs <;> rfl
  · rw [if_neg hform, if_neg fun h => hform h.1]
    rfl

lemma entered_standing (h : IsCompiled options document validator)
    (he : entry ∈ entered validator value) : Standing options document validator entry.id := by
  have hreachable := entries_reachable he
  clear he
  induction hreachable with
  | refl => exact root_standing h
  | tail _ hstep ih =>
    obtain ⟨node, hnode, leg, hleg, rfl⟩ := onward_iff.mp hstep
    exact (leg_moves h ih (node?_eq_some_iff.mp hnode).1 hleg).1

lemma null_of_kind {value : Json} (h : value.kind = .null) : value = .null := by
  cases value with
  | null => rfl
  | _ => cases h

lemma violation?_accepted {s : String} (h : isTimestamp s = true) :
    Primitive.timestamp.violation? (.string s) = none := by
  simp [Primitive.violation?, Primitive.range?, h]

lemma violation?_refused (h : ∀ s, value = .string s → isTimestamp s = false) :
    Primitive.timestamp.violation? value = some (.typeMismatch .timestamp value.kind) := by
  cases value with
  | string s => simp [Primitive.violation?, Primitive.range?, h s rfl]
  | _ => simp [Primitive.violation?, Primitive.range?]

/-- The supplements of a type come in the place of its own error. -/
lemma nodeErrors_type {type : Primitive} (hshape : node.shape = .type type) (place : Path)
    (value : Json) : nodeErrors node place value =
      match type.violation? value with
      | none => supplementErrors node place value
      | some violation => [⟨node.formPath, place, violation⟩] := by
  simp only [nodeErrors, ownErrors, runsSupplements, hshape]
  cases type.violation? value with
  | none => rw [Option.isNone_none, if_pos rfl, List.nil_append]
  | some violation => rfl

lemma ownErrors_core {place : Path} {error : InstanceError}
    (h : error ∈ ownErrors node place value) : error.violation ≠ .leapSecond := by
  intro hviolation
  have hcore : ofExtension error.violation = false := by
    cases ownErrors_cases ⟨#[], #[], 0⟩ h with
    | form _ _ hcore => exact hcore
    | tag _ _ _ _ _ _ hcore => exact hcore
    | _ => rfl
  rw [hviolation] at hcore
  cases hcore

lemma plain_finds (hnode : validator.nodes[entry.id]? = some node) (hplain : node.supplements = [])
    {error : InstanceError} (h : error ∈ entryErrors validator entry) :
    error.violation ≠ .leapSecond := by
  rw [entryErrors] at h
  cases hlooks : entry.node? validator with
  | none =>
    rw [hlooks] at h
    cases h
  | some other =>
    obtain rfl : node = other :=
      Option.some.inj (hnode.symm.trans (node?_eq_some_iff.mp hlooks).1)
    rw [hlooks, Option.elim_some, nodeErrors, supplementErrors, hplain, List.flatMap_nil, ite_self,
      List.append_nil] at h
    exact ownErrors_core h

lemma timestamp_finds (hnode : validator.nodes[entry.id]? = some node)
    (hshape : node.shape = .type .timestamp)
    (hsupplements : node.supplements = [LeapSeconds.supplement])
    (htype : members.get? "type" = some (.string "timestamp")) :
    VisitFinds members node entry (entryErrors validator entry) := by
  have hpath : node.formPath = node.schemaPath ++ ["type"] := by
    rw [Node.formPath, hshape]
    rfl
  have hsupplementPath : node.supplementPath = node.schemaPath ++ ["type"] := by
    rw [Node.supplementPath, hshape, hpath]
  by_cases hskips : node.nullable = true ∧ entry.value = .null
  · have hnone : entry.node? validator = none := by
      rw [Entry.node?, hnode, hskips.2]
      simp [hskips.1, Json.kind]
    rw [entryErrors, hnone]
    exact .null htype hskips.1 hskips.2
  have hlooks : entry.node? validator = some node := by
    refine node?_eq_some_iff.mpr ⟨hnode, Bool.eq_false_iff.mpr fun hboth => hskips ?_⟩
    obtain ⟨hnullable, hnull⟩ : node.nullable = true ∧ entry.value.kind = .null := by
      simpa using hboth
    exact ⟨hnullable, null_of_kind hnull⟩
  rw [entryErrors_of_node hlooks, nodeErrors_type hshape]
  by_cases haccepted : ∃ s, entry.value = .string s ∧ isTimestamp s = true
  · obtain ⟨s, hvalue, hs⟩ := haccepted
    obtain ⟨t, ht⟩ := Option.isSome_iff_exists.mp hs
    rw [hvalue, violation?_accepted hs]
    dsimp only
    rw [supplementErrors, hsupplements, List.flatMap_singleton, LeapSeconds.supplement,
      hsupplementPath]
    by_cases hsecond : t.second = 60
    · rw [if_pos ((secondBytes_iff ht).mpr hsecond)]
      exact .leapSecond htype hvalue ht hsecond
    · rw [if_neg (mt (secondBytes_iff ht).mp hsecond)]
      exact .otherSecond htype hvalue ht hsecond
  · have hrefused : ∀ s, entry.value = .string s → isTimestamp s = false := fun s hvalue =>
      Bool.eq_false_iff.mpr fun hs => haccepted ⟨s, hvalue, hs⟩
    rw [violation?_refused hrefused, hpath]
    exact .mismatch htype hskips hrefused

lemma visit_finds (h : compile withoutLeapSeconds document = .ok validator)
    (hd : distinctKeys document = true) (hnode : validator.nodes[entry.id]? = some node) :
    ∃ members, resolve document node.schemaPath = some (.object members) ∧
      VisitFinds members node entry (entryErrors validator entry) := by
  obtain ⟨site, members, hof⟩ := node_of_id h hd hnode
  refine ⟨members, hof.leads, ?_⟩
  cases hof.stands with
  | @object _ _ _ keys shape _ hkeys _ _ hstored hshape =>
    cases hnode.symm.trans hstored
    have hsupplements := attached_supplements keys.form members (keys.form.path site.path)
    by_cases htype : members.get? "type" = some (.string "timestamp")
    · have hform : keys.form = .type :=
        ((hasForm_of_ofKeys hkeys).1.only "type" (List.mem_map_of_mem (get?_mem htype)) .type
          rfl).symm
      rw [if_pos ⟨hform, by rw [htype]; rfl⟩] at hsupplements
      rw [hform] at hshape
      cases hshape with
      | @type _ _ _ name type hname hnamed =>
        obtain rfl : "timestamp" = name := by simpa using htype.symm.trans hname
        obtain rfl : Primitive.timestamp = type := Option.some.inj hnamed
        exact timestamp_finds hnode rfl hsupplements htype
    · have hother : ¬ (keys.form = .type ∧
          (members.get? "type").bind Json.string? = some "timestamp") := by
        rintro ⟨-, hname⟩
        obtain ⟨value, hvalue, hs⟩ := Option.bind_eq_some_iff.mp hname
        cases value with
        | string s => exact htype (by rw [hvalue, Option.some.inj hs])
        | _ => cases hs
      rw [if_neg hother] at hsupplements
      exact .otherSchema htype fun error => plain_finds hnode hsupplements

end Nodes

/-- With the extension against leap seconds, just the timestamps whose second is 60 are rejected, by
just one error. -/
theorem leap_seconds_rejected {document : Json} {validator : Validator}
    (hd : distinctKeys document = true)
    (h : compile withoutLeapSeconds document = .ok validator) (value : Json) :
    RejectsLeapSeconds document validator value := by
  have hcompiled := compiled_stands h
  refine ⟨validate_entered hcompiled value, fun entry hentry => ?_⟩
  obtain ⟨node, hnode⟩ := standing_node (entered_standing hcompiled hentry)
  obtain ⟨members, hleads, hfinds⟩ := visit_finds h hd hnode
  exact ⟨node, members, hnode, hleads, hfinds⟩

/-- A list of timestamps, some of which may be missing. -/
def clockList : Json :=
  .object [("elements", .object [("type", .string "timestamp"), ("nullable", .bool true)])]

def clockTimes : Json :=
  .array [.string "1990-12-31T23:59:60Z", .null, .string "1990-12-31t15:59:60.25-08:00",
    .string "1990-12-31T23:59:59Z", .string "1990-12-31T23:59:60"]

theorem clockList_rejects :
    ∃ validator, compile withoutLeapSeconds clockList = .ok validator ∧
      distinctKeys clockList = true ∧ RejectsLeapSeconds clockList validator clockTimes ∧
      (validator.validate clockTimes).toList.map
          (fun error => (error.instancePath, error.violation.code)) =
        [(["0"], Violation.leapSecond.code), (["2"], Violation.leapSecond.code),
          (["4"], "TYPE_FORM:TYPE_MISMATCH")] := by
  have hd : distinctKeys clockList = true := by decide
  have hfound : (compile withoutLeapSeconds clockList).toOption.map (fun validator =>
      (validator.validate clockTimes).toList.map fun error =>
        (error.instancePath, error.violation.code)) =
      some [(["0"], Violation.leapSecond.code), (["2"], Violation.leapSecond.code),
        (["4"], "TYPE_FORM:TYPE_MISMATCH")] := by
    decide +kernel
  obtain ⟨validator, h, hfound⟩ := compiles_with hfound
  exact ⟨validator, h, hd, leap_seconds_rejected hd h clockTimes, hfound⟩

end JsonTypeDefinition.Proofs
