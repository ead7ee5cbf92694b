import JsonTypeDefinition.Checks.Rules
import JsonTypeDefinition.Proofs.Members
import Mathlib.Data.List.Nodup

/-!
# What a checks object comes to

A checks object is read key by key, and every key that is read is taken out of it. What comes of
this is a matter of what the keys hold: `Takes` says of a reader which keys it takes, and what it
answers and contributes as functions of the look-up in the object.
-/

namespace JsonTypeDefinition.Proofs
open Checks

/-- What the keys of an object hold. -/
abbrev Lookup := String → Option Json

def joined (first later : Contribution) : Contribution where
  faults := first.faults ++ later.faults
  supplements := first.supplements ++ later.supplements

def without (keys : List String) (members : Members) : Members :=
  members.filter fun member => !keys.contains member.1

/-- Progress once keys are taken out and something is contributed. -/
def readOn (progress : Progress) (keys : List String) (part : Contribution) : Progress where
  remaining := without keys progress.remaining
  faults := progress.faults ++ part.faults
  supplements := progress.supplements ++ part.supplements

/-- `reader` takes `keys` out, and what they hold is all that its answer and its part depend on. -/
structure Takes {α : Type} (reader : Reader α) (keys : List String) (answer : Lookup → α)
    (part : Lookup → Contribution) : Prop where
  run : ∀ progress, reader.run progress = (answer (Members.get? progress.remaining),
    readOn progress keys (part (Members.get? progress.remaining)))
  depends : ∀ find other : Lookup, (∀ key ∈ keys, find key = other key) →
    answer find = answer other ∧ part find = part other

section Rules

variable {α β : Type} {keys more : List String}

lemma get?_without {key : String} (h : key ∉ keys) (members : Members) :
    Members.get? (without keys members) key = members.get? key := by
  induction members with
  | nil => rfl
  | cons member rest ih =>
    obtain ⟨k, value⟩ := member
    rw [without, List.filter_cons, get?_cons]
    by_cases hk : k = key
    · have hkept : keys.contains k = false := by simpa [hk] using h
      rw [if_pos hk, hkept, Bool.not_false, if_pos rfl, get?_cons, if_pos hk]
    · rw [if_neg hk, ← ih, without]
      split_ifs
      · rw [get?_cons, if_neg hk]
      · rfl

lemma without_append (members : Members) :
    without more (without keys members) = without (keys ++ more) members := by
  simp only [without, List.filter_filter, List.contains_append, Bool.not_or, Bool.and_comm]

lemma without_nil (members : Members) : without [] members = members := by
  simp [without]

lemma readOn_readOn (progress : Progress) (part later : Contribution) :
    readOn (readOn progress keys part) more later =
      readOn progress (keys ++ more) (joined part later) := by
  simp only [readOn, joined, without_append, List.append_assoc]

lemma readOn_nothing (progress : Progress) : readOn progress [] {} = progress := by
  simp [readOn, without_nil]

lemma takes_pure (a : α) : Takes (pure a) [] (fun _ => a) fun _ => {} :=
  ⟨fun progress => by rw [readOn_nothing]; rfl, fun _ _ _ => ⟨rfl, rfl⟩⟩

lemma takes_bind {reader : Reader α} {next : α → Reader β} {answer : Lookup → α}
    {result : α → Lookup → β} {part : Lookup → Contribution} {later : α → Lookup → Contribution}
    (hr : Takes reader keys answer part) (hn : ∀ a, Takes (next a) more (result a) (later a))
    (hdisjoint : keys.Disjoint more) :
    Takes (reader >>= next) (keys ++ more) (fun find => result (answer find) find)
      fun find => joined (part find) (later (answer find) find) := by
  refine ⟨fun progress => ?_, fun find other h => ?_⟩
  · have hrun : (reader >>= next).run progress =
        (next (reader.run progress).1).run (reader.run progress).2 := rfl
    rw [hrun, hr.run, (hn _).run]
    -- What the first reader takes out is not what the second looks for.
    obtain ⟨hresult, hlater⟩ := (hn (answer (Members.get? progress.remaining))).depends
      (Members.get? (without keys progress.remaining)) (Members.get? progress.remaining)
      fun key hkey => get?_without (fun hm => hdisjoint hm hkey) _
    dsimp only [readOn]
    rw [hresult, hlater]
    exact congrArg _ (readOn_readOn _ _ _)
  · obtain ⟨ha, hp⟩ := hr.depends find other fun key hk => h key (List.mem_append_left _ hk)
    obtain ⟨hb, hq⟩ := (hn (answer find)).depends find other fun key hk =>
      h key (List.mem_append_right _ hk)
    rw [hp, ← ha, hb, hq]
    exact ⟨rfl, rfl⟩

lemma takes_congr {reader : Reader α} {answer result : Lookup → α}
    {part later : Lookup → Contribution} (h : Takes reader keys answer part) (hk : keys = more)
    (ha : ∀ find, answer find = result find) (hp : ∀ find, part find = later find) :
    Takes reader more result later := by
  obtain rfl := funext ha
  obtain rfl := funext hp
  rwa [← hk]

lemma takes_take (key : String) : Takes (Reader.take? key) [key] (fun find => find key)
    fun _ => {} := by
  refine ⟨fun progress => ?_, fun find other h => ⟨h key (List.mem_singleton_self key), rfl⟩⟩
  have hrun : (Reader.take? key).run progress = (progress.remaining.get? key,
      { progress with remaining := progress.remaining.filter fun member => member.1 != key }) := rfl
  have hrest : (progress.remaining.filter fun member => member.1 != key) =
      without [key] progress.remaining := by
    refine List.filter_congr fun member _ => ?_
    rw [List.contains_cons, List.contains_nil, Bool.or_false]
    rfl
  rw [hrun, hrest]
  simp [readOn]

lemma takes_report (faults : List SchemaFault) :
    Takes (Reader.report faults) [] (fun _ => ()) fun _ => { faults } := by
  refine ⟨fun progress => ?_, fun _ _ _ => ⟨rfl, rfl⟩⟩
  have hrun : (Reader.report faults).run progress =
      ((), { progress with faults := progress.faults ++ faults }) := rfl
  rw [hrun]
  simp [readOn, without_nil]

lemma takes_attach (supplement : Supplement) :
    Takes (Reader.attach supplement) [] (fun _ => ()) fun _ => { supplements := [supplement] } := by
  refine ⟨fun progress => ?_, fun _ _ _ => ⟨rfl, rfl⟩⟩
  have hrun : (Reader.attach supplement).run progress =
      ((), { progress with supplements := progress.supplements ++ [supplement] }) := rfl
  rw [hrun]
  simp [readOn, without_nil]

lemma takes_contribution {reader : Reader Unit} {answer : Lookup → Unit}
    {part : Lookup → Contribution} (h : Takes reader keys answer part) (checks : Members) :
    reader.contribution checks = joined (part checks.get?)
      { faults := surplusFaults (without keys checks) } := by
  have hrun := h.run { remaining := checks }
  unfold Reader.contribution
  rw [hrun]
  simp [readOn, joined]

end Rules

section Bounds

def sideKeys (keys : BoundKeys) : List String :=
  keys.inclusive :: keys.exclusive.toList

def ruleKeys (rule : BoundRule) : List String :=
  sideKeys rule.min ++ sideKeys rule.max

/-- Which of the values of a side counts. -/
def chosen : Option Json → Option Json → Option (Json × Bool)
  | _, some value => some (value, true)
  | inclusive, none => inclusive.map fun value => (value, false)

def boundIn (keys : BoundKeys) (find : Lookup) : Option (Json × Bool) :=
  chosen (find keys.inclusive) (keys.exclusive.bind find)

/-- The fault of a side with both of its keys. -/
def twiceFaults (rule : BoundRule) (side : Side) (find : Lookup) : List SchemaFault :=
  if ((rule.keys side).exclusive.bind find).isSome && (find (rule.keys side).inclusive).isSome then
    [.boundGivenTwice rule.measure side]
  else []

def limitFaults (rule : BoundRule) (admission : Admission) (side : Side) (value : Json) :
    List SchemaFault :=
  match limitOf rule admission side value with
  | .ok _ => []
  | .error faults => faults

def soundBound (rule : BoundRule) (admission : Admission) (side : Side) (find : Lookup) :
    Option Bound :=
  (boundIn (rule.keys side) find).bind fun (value, exclusive) =>
    (limitOf rule admission side value).toOption.map fun limit => ⟨limit, exclusive⟩

def sideFaults (rule : BoundRule) (admission : Admission) (side : Side) (find : Lookup) :
    List SchemaFault :=
  twiceFaults rule side find ++
    (boundIn (rule.keys side) find).elim [] fun (value, _) => limitFaults rule admission side value

/-- What is wrong with two bounds together, if there are two. -/
def bothFaults (measure : Measure) : Option Bound → Option Bound → List SchemaFault
  | some min, some max => crossFaults measure min max
  | _, _ => []

def boundsPart (rule : BoundRule) (admission : Admission) (find : Lookup) : Contribution :=
  let min := soundBound rule admission .min find
  let max := soundBound rule admission .max find
  { faults := sideFaults rule admission .min find ++ sideFaults rule admission .max find ++
      bothFaults rule.measure min max
    supplements := min.toList.map (boundSupplement rule .min) ++
      max.toList.map (boundSupplement rule .max) }

variable (rule : BoundRule) (admission : Admission)

lemma takes_chosen (rule : BoundRule) (side : Side) (inclusive exclusive : Option Json) :
    Takes (match inclusive, exclusive with
      | some _, some value => do
        Reader.report [.boundGivenTwice rule.measure side]
        return some (value, true)
      | none, some value => return some (value, true)
      | some value, none => return some (value, false)
      | none, none => return none : Reader (Option (Json × Bool))) []
      (fun _ => chosen inclusive exclusive)
      fun _ => { faults := if exclusive.isSome && inclusive.isSome then
        [.boundGivenTwice rule.measure side] else [] } := by
  rcases inclusive with _ | value <;> rcases exclusive with _ | other
  · exact takes_pure _
  · exact takes_pure _
  · exact takes_pure _
  · have htwice := takes_bind (takes_report [SchemaFault.boundGivenTwice rule.measure side])
      (fun _ => takes_pure (some (other, true))) (List.disjoint_nil_right [])
    exact takes_congr htwice rfl (fun _ => rfl) fun _ => rfl

lemma takes_takeBound (side : Side) (h : (sideKeys (rule.keys side)).Nodup) :
    Takes (takeBound? rule side) (sideKeys (rule.keys side)) (boundIn (rule.keys side))
      fun find => { faults := twiceFaults rule side find } := by
  unfold takeBound? twiceFaults
  generalize rule.keys side = keys at h ⊢
  obtain ⟨inclusive, exclusive⟩ := keys
  cases exclusive with
  | none =>
    have hlast := fun first => takes_bind (takes_pure (none : Option Json))
      (takes_chosen rule side first) (List.disjoint_nil_right [])
    have hall := takes_bind (takes_take inclusive) hlast (List.disjoint_nil_right [inclusive])
    refine takes_congr hall rfl (fun find => ?_) fun find => ?_
    · rfl
    · rfl
  | some key =>
    have hlast := fun first => takes_bind (takes_take key) (takes_chosen rule side first)
      (List.disjoint_nil_right [key])
    have hne : [inclusive].Disjoint [key] := by
      rw [List.disjoint_singleton, List.mem_singleton]
      exact fun he => (List.nodup_cons.mp h).1 (List.mem_singleton.mpr he.symm)
    refine takes_congr (takes_bind (takes_take inclusive) hlast hne) rfl (fun find => ?_)
      fun find => ?_
    · rfl
    · rfl

lemma takes_foundBound (side : Side) (found : Option (Json × Bool)) :
    Takes (match found with
      | none => return none
      | some (value, exclusive) =>
        match limitOf rule admission side value with
        | .ok limit => return some ⟨limit, exclusive⟩
        | .error faults => do
          Reader.report faults
          return none : Reader (Option Bound)) []
      (fun _ => found.bind fun (value, exclusive) =>
        (limitOf rule admission side value).toOption.map fun limit => ⟨limit, exclusive⟩)
      fun _ =>
        { faults := found.elim [] fun (value, _) => limitFaults rule admission side value } := by
  rcases found with _ | ⟨value, exclusive⟩
  · exact takes_pure none
  · simp only [Option.bind_some, Option.elim_some, limitFaults]
    cases limitOf rule admission side value with
    | ok limit => exact takes_pure _
    | error faults =>
      have hreport := takes_bind (takes_report faults)
        (fun _ => takes_pure (none : Option Bound)) (List.disjoint_nil_right [])
      refine takes_congr hreport rfl (fun _ => rfl) fun _ => ?_
      simp [joined]

lemma takes_readBound (side : Side) (h : (sideKeys (rule.keys side)).Nodup) :
    Takes (readBound rule admission side) (sideKeys (rule.keys side))
      (soundBound rule admission side)
      fun find => { faults := sideFaults rule admission side find } := by
  have hall := takes_bind (takes_takeBound rule side h) (takes_foundBound rule admission side)
    (List.disjoint_nil_right _)
  exact takes_congr hall (List.append_nil _) (fun _ => rfl) fun _ => rfl

lemma takes_attachBound (side : Side) (bound : Option Bound) :
    Takes (bound.forM fun bound => Reader.attach (boundSupplement rule side bound)) [] (fun _ => ())
      fun _ => { supplements := bound.toList.map (boundSupplement rule side) } := by
  cases bound with
  | none => exact takes_pure ()
  | some bound => exact takes_attach _

/-- What is left to do with the bounds of both sides. -/
def boundsEnd (rule : BoundRule) (min max : Option Bound) : Contribution where
  faults := bothFaults rule.measure min max
  supplements := min.toList.map (boundSupplement rule .min) ++
    max.toList.map (boundSupplement rule .max)

lemma takes_readBounds (h : (ruleKeys rule).Nodup) :
    Takes (readBounds rule admission) (ruleKeys rule) (fun _ => ())
      (boundsPart rule admission) := by
  obtain ⟨hmin, hmax, hdisjoint⟩ := List.nodup_append'.mp h
  have hattach := fun min max => takes_bind (takes_attachBound rule .min min)
    (fun _ => takes_attachBound rule .max max) (List.disjoint_nil_right [])
  have hreport := fun low high min max => takes_bind
    (takes_report (crossFaults rule.measure low high)) (fun _ => hattach min max)
    (List.disjoint_nil_right [])
  have hlast : ∀ min max : Option Bound, Takes (do
      match min, max with
      | some min, some max => Reader.report (crossFaults rule.measure min max)
      | _, _ => pure ()
      min.forM fun bound => Reader.attach (boundSupplement rule .min bound)
      max.forM fun bound => Reader.attach (boundSupplement rule .max bound)) []
      (fun _ => ()) fun _ => boundsEnd rule min max := by
    intro min max
    rcases min with _ | low
    · exact takes_congr (hattach none max) rfl (fun _ => rfl) fun _ => rfl
    rcases max with _ | high
    · exact takes_congr (hattach (some low) none) rfl (fun _ => rfl) fun _ => rfl
    · refine takes_congr (hreport low high (some low) (some high)) rfl (fun _ => rfl) fun _ => ?_
      simp only [joined, boundsEnd, bothFaults, List.append_nil, List.nil_append]
  have hmaximum := fun min => takes_bind (takes_readBound rule admission .max hmax) (hlast min)
    (List.disjoint_nil_right _)
  refine takes_congr (takes_bind (takes_readBound rule admission .min hmin) hmaximum ?_) ?_
    (fun _ => rfl) fun find => ?_
  · rwa [List.append_nil]
  · rw [List.append_nil]
    rfl
  · simp only [joined, boundsPart, boundsEnd, List.nil_append, List.append_assoc]

end Bounds

section Forms

variable {keys more : List String}

/-- What a key comes to that asks for one check. -/
def checkPart (key : String) (check : Json → Except SchemaFault Supplement) (find : Lookup) :
    Contribution :=
  match (find key).map check with
  | none => {}
  | some (.ok supplement) => { supplements := [supplement] }
  | some (.error fault) => { faults := [fault] }

lemma takes_foundCheck (key : String) (check : Json → Except SchemaFault Supplement)
    (found : Option Json) :
    Takes (match found with
      | none => pure ()
      | some value =>
        match check value with
        | .ok supplement => Reader.attach supplement
        | .error fault => Reader.report [fault] : Reader Unit) [] (fun _ => ())
      fun _ => checkPart key check fun _ => found := by
  unfold checkPart
  rcases found with _ | value
  · exact takes_pure ()
  · rw [Option.map_some]
    dsimp only
    cases check value with
    | ok supplement => exact takes_attach supplement
    | error fault => exact takes_report [fault]

lemma takes_readCheck (key : String) (check : Json → Except SchemaFault Supplement) :
    Takes (readCheck key check) [key] (fun _ => ()) (checkPart key check) :=
  takes_bind (takes_take key) (takes_foundCheck key check) (List.disjoint_nil_right [key])

def typeOf? (members : Members) : Option Primitive :=
  ((members.get? "type").bind Json.string?).bind Primitive.ofName?

def typePart (engine : PatternEngine) (type : Primitive) (find : Lookup) : Contribution :=
  joined (boundsPart lengthRule (lengthAdmission type) find) <|
    joined (checkPart "pattern" (patternCheck engine type) find) <|
      joined (boundsPart (valueRule type) (valueAdmission type) find)
        (checkPart "multipleOf" (multipleCheck type) find)

def elementsPart (find : Lookup) : Contribution :=
  joined (boundsPart elementsRule anyBound find)
    { supplements := if (find "uniqueElements").any Json.isTruthy then [uniqueSupplement] else [] }

def formPart (engine : PatternEngine) (form : Form) (members : Members) (find : Lookup) :
    Contribution :=
  match form with
  | .type => (typeOf? members).elim {} fun type => typePart engine type find
  | .elements => elementsPart find
  | .properties => boundsPart propertiesRule anyBound find
  | .values => boundsPart valuesRule anyBound find
  | .empty | .enum | .discriminator | .ref => {}

/-- The keys of the checks of a form, whether or not its type admits them. -/
def knownKeys (form : Form) (members : Members) : List String :=
  match form with
  | .type => (typeOf? members).elim [] fun _ =>
    ["minLength", "maxLength", "pattern", "minimum", "exclusiveMinimum", "maximum",
      "exclusiveMaximum", "multipleOf"]
  | .elements => ["minElements", "maxElements", "uniqueElements"]
  | .properties => ["minProperties", "maxProperties"]
  | .values => ["minValues", "maxValues"]
  | .empty | .enum | .discriminator | .ref => []

lemma disjoint_of_nodup (h : (keys ++ more).Nodup) : keys.Disjoint more :=
  (List.nodup_append'.mp h).2.2

lemma takes_readElements :
    Takes readElements (ruleKeys elementsRule ++ ["uniqueElements"]) (fun _ => ())
      elementsPart := by
  have hnext : ∀ found : Option Json, Takes (do
      if found.any Json.isTruthy then Reader.attach uniqueSupplement) [] (fun _ => ())
      fun _ => { supplements := if found.any Json.isTruthy then [uniqueSupplement] else [] } := by
    intro found
    by_cases h : found.any Json.isTruthy
    · rw [if_pos h, if_pos h]
      exact takes_attach uniqueSupplement
    · rw [if_neg h, if_neg h]
      exact takes_pure ()
  have hunique := takes_bind (takes_take "uniqueElements") hnext (List.disjoint_nil_right _)
  have hall := takes_bind (takes_readBounds elementsRule anyBound (by decide)) (fun _ => hunique)
    (disjoint_of_nodup (by decide))
  exact takes_congr hall rfl (fun _ => rfl) fun _ => rfl

lemma takes_readType (engine : PatternEngine) (members : Members) :
    Takes (readType engine members) (knownKeys .type members) (fun _ => ())
      (formPart engine .type members) := by
  unfold readType knownKeys formPart
  rw [← typeOf?]
  cases typeOf? members with
  | none => exact takes_pure ()
  | some type =>
    have hkeys : ruleKeys (valueRule type) =
        ["minimum", "exclusiveMinimum", "maximum", "exclusiveMaximum"] := rfl
    have hvalue := takes_readBounds (valueRule type) (valueAdmission type) (by rw [hkeys]; decide)
    rw [hkeys] at hvalue
    have hend := takes_bind hvalue (fun _ => takes_readCheck "multipleOf" (multipleCheck type))
      (disjoint_of_nodup (by decide))
    have hrest := takes_bind (takes_readCheck "pattern" (patternCheck engine type)) (fun _ => hend)
      (disjoint_of_nodup (by decide))
    have hall := takes_bind (takes_readBounds lengthRule (lengthAdmission type) (by decide))
      (fun _ => hrest) (disjoint_of_nodup (by decide))
    exact takes_congr hall rfl (fun _ => rfl) fun _ => rfl

lemma takes_readForm (engine : PatternEngine) (form : Form) (members : Members) :
    Takes (readForm engine form members) (knownKeys form members) (fun _ => ())
      (formPart engine form members) := by
  cases form with
  | type => exact takes_readType engine members
  | elements => exact takes_readElements
  | properties => exact takes_readBounds propertiesRule anyBound (by decide)
  | values => exact takes_readBounds valuesRule anyBound (by decide)
  | _ => exact takes_pure ()

theorem hook_reads (engine : PatternEngine) (form : Form) (members checks : Members)
    (path : Path) (h : members.get? key = some (.object checks)) :
    hook (readForm engine form) members path = joined (formPart engine form members checks.get?)
      { faults := surplusFaults (without (knownKeys form members) checks) } := by
  rw [hook, h]
  exact takes_contribution (takes_readForm engine form members) checks

end Forms

end JsonTypeDefinition.Proofs
