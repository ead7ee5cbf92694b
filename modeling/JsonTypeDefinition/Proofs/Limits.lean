import JsonTypeDefinition.Proofs.WalkTermination

/-!
# Limits cut off

A limit on the errors cuts the errors of a run off and changes none of them. A limit on the depth
ends a run at the first reference that exceeds it, and changes nothing of what was found before.
-/

namespace JsonTypeDefinition.Proofs

section Replays

variable {events : List Event} {maxDepth maxErrors : Nat}

lemma replay_found (limits : Limits) (errors : Array InstanceError) (more : List InstanceError)
    (rest : List Event) :
    replay limits errors (.found more :: rest) =
      if limits.maxErrors ≠ 0 ∧ limits.maxErrors ≤ (errors ++ more.toArray).size then
        (.error .enoughErrors, (errors ++ more.toArray).take limits.maxErrors)
      else replay limits (errors ++ more.toArray) rest := by
  rw [replay, play]
  split_ifs <;> rfl

lemma replay_opened (limits : Limits) (errors : Array InstanceError) (places : List Path)
    (rest : List Event) :
    replay limits errors (.opened places :: rest) =
      if limits.maxDepth ≠ 0 ∧ limits.maxDepth < places.length then (.error .tooDeep, errors)
      else replay limits errors rest := by
  rw [replay, play]
  split_ifs <;> rfl

lemma replay_keeps (maxDepth : Nat) (events : List Event) :
    ∀ errors, errors.toList <+: (replay { maxDepth } errors events).2.toList := by
  induction events with
  | nil => exact fun errors => List.prefix_refl _
  | cons event rest ih =>
    intro errors
    cases event with
    | found more =>
      have hrest := ih (errors ++ more.toArray)
      rw [Array.toList_append] at hrest
      exact (List.prefix_append _ _).trans hrest
    | opened places =>
      rw [replay_opened]
      split_ifs
      · exact List.prefix_refl _
      · exact ih errors
    | exhausted => exact List.prefix_refl _

lemma take_of_prefix {errors all : Array InstanceError} (h : errors.toList <+: all.toList) {n : Nat}
    (hn : n ≤ errors.size) : all.take n = errors.take n := by
  obtain ⟨more, hmore⟩ := h
  have htake : (errors.toList ++ more).take n = errors.toList.take n :=
    List.take_append_of_le_length hn
  rw [hmore] at htake
  simpa only [← Array.toList_inj, Array.take_eq_extract, Array.toList_extract,
    List.extract_eq_take_drop, List.drop_zero, Nat.sub_zero] using htake

/-- A limit on the errors that is not reached yet takes as many as it allows of those found without
it, and makes no difference where there are fewer. -/
lemma replay_truncates (hlimit : maxErrors ≠ 0) (maxDepth : Nat) (events : List Event) :
    ∀ errors : Array InstanceError, errors.size < maxErrors →
      replay { maxDepth, maxErrors } errors events =
        if maxErrors ≤ (replay { maxDepth } errors events).2.size then
          (.error .enoughErrors, (replay { maxDepth } errors events).2.take maxErrors)
        else replay { maxDepth } errors events := by
  induction events with
  | nil => exact fun errors hfew => (if_neg (Nat.not_le.mpr hfew)).symm
  | cons event rest ih =>
    intro errors hfew
    cases event with
    | found more =>
      have hopen : replay { maxDepth } errors (.found more :: rest) =
          replay { maxDepth } (errors ++ more.toArray) rest := rfl
      rw [hopen, replay_found]
      by_cases henough : maxErrors ≤ (errors ++ more.toArray).size
      · -- What comes after is not reached, and a run that reaches it keeps what is there already.
        have hkept := replay_keeps maxDepth rest (errors ++ more.toArray)
        have hall : maxErrors ≤ (replay { maxDepth } (errors ++ more.toArray) rest).2.size :=
          Nat.le_trans henough hkept.length_le
        rw [if_pos ⟨hlimit, henough⟩, if_pos hall, take_of_prefix hkept henough]
      · rw [if_neg fun h => henough h.2]
        exact ih _ (Nat.not_le.mp henough)
    | opened places =>
      rw [replay_opened, replay_opened]
      by_cases hdeep : maxDepth ≠ 0 ∧ maxDepth < places.length
      · rw [if_pos hdeep, if_pos hdeep, if_neg (Nat.not_le.mpr hfew)]
      · rw [if_neg hdeep, if_neg hdeep]
        exact ih errors hfew
    | exhausted => exact (if_neg (Nat.not_le.mpr hfew)).symm

lemma replay_prefix (maxDepth : Nat) (events : List Event) :
    ∀ errors, (replay { maxDepth } errors events).2.toList <+:
      (replay {} errors events).2.toList := by
  induction events with
  | nil => exact fun errors => List.prefix_refl _
  | cons event rest ih =>
    intro errors
    cases event with
    | found more => exact ih (errors ++ more.toArray)
    | opened places =>
      have hopen : replay {} errors (.opened places :: rest) = replay {} errors rest := rfl
      rw [hopen, replay_opened]
      split_ifs
      · exact replay_keeps 0 rest errors
      · exact ih errors
    | exhausted => exact List.prefix_refl _

lemma replay_tooDeep_iff (maxDepth : Nat) (events : List Event) :
    ∀ errors, (replay { maxDepth } errors events).1 = .error .tooDeep ↔
      ∃ event ∈ events, ¬ Passes maxDepth event := by
  induction events with
  | nil => simp [replay]
  | cons event rest ih =>
    intro errors
    cases event with
    | found more =>
      have hopen : replay { maxDepth } errors (.found more :: rest) =
          replay { maxDepth } (errors ++ more.toArray) rest := rfl
      simp [hopen, ih, Passes]
    | opened places =>
      rw [replay_opened]
      by_cases hdeep : maxDepth ≠ 0 ∧ maxDepth < places.length
      · simp [Passes, hdeep]
      · have hpasses : maxDepth = 0 ∨ places.length ≤ maxDepth := by omega
        rw [if_neg hdeep]
        simp [ih, Passes, hpasses]
    | exhausted => simp [replay, play, Passes]

end Replays

/-- What the run of a value with a limit on the depth alone finds, up to its end or to where it
exceeds the limit. -/
def foundWithin (validator : Validator) (maxDepth : Nat) (value : Json) : Array InstanceError :=
  (validator.run { maxDepth } value).2

def ExceedsDepth (validator : Validator) (maxDepth : Nat) (value : Json) : Prop :=
  (validator.run { maxDepth } value).1 = .error .tooDeep

/-- The limit on the errors is reached by what a run finds. -/
def HasEnough (validator : Validator) (limits : Limits) (value : Json) : Prop :=
  limits.maxErrors ≠ 0 ∧ limits.maxErrors ≤ (foundWithin validator limits.maxDepth value).size

/-- Limits cut the errors of a value off and change none of them. -/
structure CutsOff (validator : Validator) (value : Json) (limits : Limits) : Prop where
  /-- Enough errors are an answer, also where the run would go on to exceed the depth. -/
  enough : HasEnough validator limits value → validator.validateWithin limits value =
    .ok ((foundWithin validator limits.maxDepth value).take limits.maxErrors)
  refused : ¬ HasEnough validator limits value → ExceedsDepth validator limits.maxDepth value →
    validator.validateWithin limits value = .error .maxDepthExceeded
  all : ¬ HasEnough validator limits value → ¬ ExceedsDepth validator limits.maxDepth value →
    validator.validateWithin limits value = .ok (foundWithin validator limits.maxDepth value)
  /-- Only a reference that is opened inside too many others exceeds the depth. -/
  exceeds : ExceedsDepth validator limits.maxDepth value ↔ limits.maxDepth ≠ 0 ∧
    ∃ places, .opened places ∈ events validator value ∧ limits.maxDepth < places.length
  start : (foundWithin validator limits.maxDepth value).toList <+: (validator.validate value).toList
  /-- A limit on the depth that is not exceeded can be raised or lifted. -/
  deeper : limits.maxDepth ≠ 0 → ¬ ExceedsDepth validator limits.maxDepth value →
    ∀ maxDepth, limits.maxDepth ≤ maxDepth ∨ maxDepth = 0 →
      validator.validateWithin { limits with maxDepth } value =
        validator.validateWithin limits value
  unlimited : validator.validateWithin {} value = .ok (validator.validate value)
  accepts : validator.check value = .ok () ↔ validator.validate value = #[]
  rejects : ∀ errors, validator.check value = .error errors ↔
    validator.validate value = errors ∧ errors ≠ #[]

section Answers

variable {options : Options} {document : Json} {validator : Validator} {value : Json}
variable {limits : Limits}

/-- A run with both limits is the run with a limit on the depth alone, cut off where it has found
enough. -/
lemma run_cut (validator : Validator) (limits : Limits) (value : Json) :
    (HasEnough validator limits value ∧ validator.run limits value =
        (.error .enoughErrors,
          (foundWithin validator limits.maxDepth value).take limits.maxErrors)) ∨
      (¬ HasEnough validator limits value ∧
        validator.run limits value = validator.run { maxDepth := limits.maxDepth } value) := by
  obtain ⟨maxDepth, maxErrors⟩ := limits
  by_cases hlimit : maxErrors = 0
  · subst hlimit
    exact .inr ⟨fun h => h.1 rfl, rfl⟩
  have htruncates := replay_truncates hlimit maxDepth (events validator value) #[]
    (Nat.pos_of_ne_zero hlimit)
  rw [← run_replays, ← run_replays] at htruncates
  by_cases henough : maxErrors ≤ (foundWithin validator maxDepth value).size
  · exact .inl ⟨⟨hlimit, henough⟩, htruncates.trans (if_pos henough)⟩
  · exact .inr ⟨fun h => henough h.2, htruncates.trans (if_neg henough)⟩

lemma validateWithin_tooDeep (h : (validator.run limits value).1 = .error .tooDeep) :
    validator.validateWithin limits value = .error .maxDepthExceeded := by
  unfold Validator.validateWithin
  generalize validator.run limits value = result at h
  obtain ⟨outcome, errors⟩ := result
  cases h
  rfl

lemma exceedsDepth_iff (h : IsCompiled options document validator) (maxDepth : Nat) :
    ExceedsDepth validator maxDepth value ↔ maxDepth ≠ 0 ∧
      ∃ places, .opened places ∈ events validator value ∧ maxDepth < places.length := by
  rw [ExceedsDepth, run_replays, replay_tooDeep_iff]
  constructor
  · rintro ⟨event, he, hstops⟩
    cases event with
    | found => exact absurd trivial hstops
    | opened places =>
      obtain ⟨hlimit, hdeep⟩ := not_or.mp hstops
      exact ⟨hlimit, places, he, Nat.not_le.mp hdeep⟩
    | exhausted => exact absurd he (events_last h)
  · rintro ⟨hlimit, places, he, hdeep⟩
    exact ⟨_, he, not_or.mpr ⟨hlimit, Nat.not_le.mpr hdeep⟩⟩

lemma run_undepthed {maxDepth : Nat}
    (hwithin : ¬ ExceedsDepth validator maxDepth value) (maxErrors : Nat) :
    validator.run { maxDepth, maxErrors } value = validator.run { maxErrors } value := by
  have hpass : ∀ event ∈ events validator value, Passes maxDepth event := by
    rw [ExceedsDepth, run_replays, replay_tooDeep_iff] at hwithin
    push Not at hwithin
    exact hwithin
  have hsame : replay { maxDepth, maxErrors } #[] (events validator value) =
      replay { maxErrors } #[] (events validator value) := (replay_passes hpass #[]).1
  rw [run_replays, run_replays, hsame]

lemma exceedsDepth_mono (h : IsCompiled options document validator) {maxDepth deeper : Nat}
    (hlimit : maxDepth ≠ 0) (hle : maxDepth ≤ deeper ∨ deeper = 0)
    (hexceeds : ExceedsDepth validator deeper value) : ExceedsDepth validator maxDepth value := by
  obtain ⟨hdeeper, places, he, hdeep⟩ := (exceedsDepth_iff h deeper).mp hexceeds
  have hplaces : maxDepth < places.length := by omega
  exact (exceedsDepth_iff h maxDepth).mpr ⟨hlimit, places, he, hplaces⟩

lemma check_ok_iff (validator : Validator) (value : Json) :
    validator.check value = .ok () ↔ validator.validate value = #[] := by
  simp [Validator.check]

lemma check_error_iff (validator : Validator) (value : Json) (errors : Array InstanceError) :
    validator.check value = .error errors ↔ validator.validate value = errors ∧ errors ≠ #[] := by
  simp only [Validator.check, Array.isEmpty_iff]
  split_ifs with hnone
  · simp only [hnone, false_iff, not_and, not_not]
    exact Eq.symm
  · simp only [Except.error.injEq]
    exact ⟨fun h => ⟨h, h ▸ hnone⟩, And.left⟩

end Answers

/-- The limits on a validation with a compiled document cut its errors off, however it was
compiled. -/
theorem limits_cut_off {options : Options} {document : Json} {validator : Validator}
    (h : compile options document = .ok validator) (value : Json) (limits : Limits) :
    CutsOff validator value limits := by
  have hcompiled := compiled_stands h
  have hcut := run_cut validator limits value
  have hunlimited : ¬ ExceedsDepth validator 0 value := fun hexceeds =>
    ((exceedsDepth_iff hcompiled 0).mp hexceeds).1 rfl
  refine ⟨fun henough => ?_, fun hfew hexceeds => ?_, fun hfew hwithin => ?_,
    exceedsDepth_iff hcompiled limits.maxDepth, ?_, fun hlimit hwithin maxDepth hle => ?_,
    validateWithin_ok hunlimited, check_ok_iff validator value, check_error_iff validator value⟩
  · obtain ⟨-, hrun⟩ := hcut.resolve_right fun hfew => hfew.1 henough
    rw [validateWithin_ok (by simp [hrun]), hrun]
  · obtain ⟨-, hrun⟩ := hcut.resolve_left fun henough => hfew henough.1
    exact validateWithin_tooDeep (hrun ▸ hexceeds)
  · obtain ⟨-, hrun⟩ := hcut.resolve_left fun henough => hfew henough.1
    rw [validateWithin_ok (hrun ▸ hwithin), hrun]
    rfl
  · rw [foundWithin, Validator.validate, run_replays, run_replays]
    exact replay_prefix limits.maxDepth _ #[]
  · have hdeeper := mt (exceedsDepth_mono hcompiled hlimit hle) hwithin
    unfold Validator.validateWithin
    rw [run_undepthed hwithin, run_undepthed hdeeper]

/-- A link of a chain has a name and maybe a next link. -/
def chain : Json :=
  .object [("definitions", .object
      [("link", .object [("optionalProperties", .object
        [("name", .object [("type", .string "string")]),
          ("next", .object [("ref", .string "link")])])])]),
    ("ref", .string "link")]

def namelessLinks : Json :=
  .object [("name", .null), ("next", .object [("name", .null),
    ("next", .object [("name", .null)])])]

/-- The third link is too deep, unless two errors are enough. -/
theorem namelessLinks_cut_off :
    ∃ validator, compile literalLibrary chain = .ok validator ∧
      CutsOff validator namelessLinks { maxDepth := 2, maxErrors := 2 } ∧
      (validator.validateWithin { maxDepth := 2, maxErrors := 2 } namelessLinks).isOk = true ∧
      (validator.validateWithin { maxDepth := 2, maxErrors := 3 } namelessLinks).isOk = false := by
  have hanswers : (compile literalLibrary chain).toOption.map
      (fun validator =>
        ((validator.validateWithin { maxDepth := 2, maxErrors := 2 } namelessLinks).isOk,
          (validator.validateWithin { maxDepth := 2, maxErrors := 3 } namelessLinks).isOk)) =
        some (true, false) := by
    decide +kernel
  obtain ⟨validator, h, hanswers⟩ := compiles_with hanswers
  exact ⟨validator, h, limits_cut_off h namelessLinks { maxDepth := 2, maxErrors := 2 },
    Prod.mk.inj hanswers⟩

/-- A depth of zero is no limit: it is not exceeded, and yet a greater one makes a difference. -/
theorem zero_depth_unlimited :
    ∃ validator, compile literalLibrary nestedLists = .ok validator ∧
      ¬ ExceedsDepth validator 0 (.array []) ∧
      ¬ ∀ maxDepth, 0 ≤ maxDepth → validator.validateWithin { maxDepth } (.array []) =
        validator.validateWithin { maxDepth := 0 } (.array []) := by
  have hanswers : (compile literalLibrary nestedLists).toOption.map
      (fun validator => ((validator.validateWithin { maxDepth := 0 } (.array [])).isOk,
        (validator.validateWithin { maxDepth := 1 } (.array [])).isOk)) = some (true, false) := by
    decide +kernel
  obtain ⟨validator, h, hanswers⟩ := compiles_with hanswers
  obtain ⟨hzero, hone⟩ := Prod.mk.inj hanswers
  refine ⟨validator, h, fun hexceeds => ?_, fun hall => ?_⟩
  · exact ((exceedsDepth_iff (compiled_stands h) 0).mp hexceeds).1 rfl
  · rw [hall 1 (Nat.zero_le 1), hzero] at hone
    cases hone

end JsonTypeDefinition.Proofs
