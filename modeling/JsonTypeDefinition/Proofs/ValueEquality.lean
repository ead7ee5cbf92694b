import JsonTypeDefinition.Json.Equality
import JsonTypeDefinition.Proofs.Reordered
import Mathlib.Data.List.Perm.Subperm
import Mathlib.Data.List.Forall2

/-!
# Equality of values

What `Json.sameValue` decides, on values whose objects repeat no key: `EqualByValue`, structural
equality up to the order of keys and up to the binary64 values of numbers. `Json.sameValue` asks of
two objects only that they have one size and that every member of the first has an equal one in the
second; as keys are distinct, the second then has no further key. `Around` is a value with a hole:
there one value may stand for an equal one. `Json.allDistinct` says that no two items of a list are
equal, so that neither the order of the items nor that of the keys in them matters to it.
-/

namespace JsonTypeDefinition.Proofs

/-- Two values are structurally equal up to the order of keys and up to the values of numbers. -/
inductive EqualByValue : Json → Json → Prop where
  | null : EqualByValue .null .null
  | bool (b : Bool) : EqualByValue (.bool b) (.bool b)
  | number {m n : Number} (hvalue : m.value = n.value) : EqualByValue (.number m) (.number n)
  | string (s : String) : EqualByValue (.string s) (.string s)
  | array {items others : List Json} (hlength : others.length = items.length)
      (hitems : ∀ (i : Nat) a b, items[i]? = some a → others[i]? = some b → EqualByValue a b) :
      EqualByValue (.array items) (.array others)
  | object {members others : Members}
      (hkeys : (Members.keys members).Perm (Members.keys others))
      (hvalues : ∀ key a b, members.get? key = some a → others.get? key = some b →
        EqualByValue a b) :
      EqualByValue (.object members) (.object others)

lemma related_at {R : Json → Json → Prop} {items others : List Json}
    (h : List.Forall₂ R items others) (i : Nat) (a b : Json) (ha : items[i]? = some a)
    (hb : others[i]? = some b) : R a b := by
  obtain ⟨hi, rfl⟩ := List.getElem?_eq_some_iff.mp ha
  obtain ⟨hj, rfl⟩ := List.getElem?_eq_some_iff.mp hb
  exact h.get hi hj

section Equivalence

variable {a b c : Json} {members others : Members} {key : String}

lemma equal_refl (a : Json) : EqualByValue a a := by
  induction a using value_induction with
  | step a ih =>
    cases a with
    | null => exact .null
    | bool b => exact .bool b
    | number n => exact .number rfl
    | string s => exact .string s
    | array items =>
      refine .array rfl fun i a b ha hb => ?_
      cases ha.symm.trans hb
      have hlt := List.sizeOf_lt_of_mem (List.mem_of_getElem? ha)
      refine ih a ?_
      simp only [Json.array.sizeOf_spec]
      omega
    | object members =>
      refine .object (.refl _) fun key a b ha hb => ?_
      cases ha.symm.trans hb
      exact ih a (sizeOf_member_lt (get?_mem ha))

lemma equal_symm (h : EqualByValue a b) : EqualByValue b a := by
  induction h with
  | null => exact .null
  | bool b => exact .bool b
  | number hvalue => exact .number hvalue.symm
  | string s => exact .string s
  | array hlength _ ih => exact .array hlength.symm fun i b a hb ha => ih i a b ha hb
  | object hkeys _ ih => exact .object hkeys.symm fun key b a hb ha => ih key a b ha hb

lemma found_of_perm (hkeys : (Members.keys members).Perm (Members.keys others))
    (ha : members.get? key = some a) : ∃ b, others.get? key = some b := by
  have hm : key ∈ Members.keys others := hkeys.mem_iff.mp (List.mem_map_of_mem (get?_mem ha))
  exact Option.isSome_iff_exists.mp (has_iff_mem_keys.mpr hm)

lemma equal_trans (hab : EqualByValue a b) (hbc : EqualByValue b c) : EqualByValue a c := by
  induction hab generalizing c with
  | null | bool | string => exact hbc
  | number hvalue =>
    cases hbc with
    | number hnext => exact .number (hvalue.trans hnext)
  | @array items others hlength _ ih =>
    cases hbc with
    | @array _ last hlast hitems =>
      refine .array (hlast.trans hlength) fun i a c ha hc => ?_
      have hlt : i < others.length := hlength ▸ (List.getElem?_eq_some_iff.mp ha).choose
      have hb := List.getElem?_eq_getElem hlt
      exact ih i a _ ha hb (hitems i _ c hb hc)
  | object hkeys _ ih =>
    cases hbc with
    | object hlast hvalues =>
      refine .object (hkeys.trans hlast) fun key a c ha hc => ?_
      obtain ⟨b, hb⟩ := found_of_perm hkeys ha
      exact ih key a b ha hb (hvalues key b c hb hc)

lemma equal_of_reordered (h : Reordered a b) : EqualByValue a b := by
  induction h with
  | null => exact .null
  | bool b => exact .bool b
  | number n => exact .number rfl
  | string s => exact .string s
  | array hlength _ ih => exact .array hlength ih
  | object _ hkeys _ ih => exact .object hkeys ih

end Equivalence

section Deciding

variable {a b c d : Json}

lemma sameItems_iff (items others : List Json) : Json.sameItems items others = true ↔
    others.length = items.length ∧ ∀ (i : Nat) a b, items[i]? = some a → others[i]? = some b →
      Json.sameValue a b = true :=
  itemwise_iff (fun items others => by cases items <;> cases others <;> rfl) items others

lemma sameMembers_iff (members others : Members) : Json.sameMembers members others = true ↔
    ∀ key a, (key, a) ∈ members → ∃ b, others.get? key = some b ∧ Json.sameValue a b = true :=
  memberwise_iff (fun members others => by cases members <;> rfl) members others

/-- As the first object repeats no key, it has as many keys as members: if they all occur in an
object of the same size, that object has no others. -/
lemma keys_perm {members others : Members} (hnodup : (Members.keys members).Nodup)
    (hlength : members.length = others.length)
    (hfound : ∀ key a, (key, a) ∈ members → ∃ b, others.get? key = some b) :
    (Members.keys members).Perm (Members.keys others) := by
  have hsub : Members.keys members ⊆ Members.keys others := by
    intro key hkey
    obtain ⟨⟨_, a⟩, hm, rfl⟩ := List.mem_map.mp hkey
    obtain ⟨b, hb⟩ := hfound _ a hm
    exact List.mem_map.mpr ⟨_, get?_mem hb, rfl⟩
  refine (List.subperm_of_subset hnodup hsub).perm_of_length_le ?_
  rw [Members.keys, Members.keys, List.length_map, List.length_map, hlength]

lemma equal_of_sameValue (a : Json) : ∀ b, distinctKeys a = true →
    Json.sameValue a b = true → EqualByValue a b := by
  induction a using value_induction with
  | step a ih =>
    intro b ha h
    cases a with
    | null => cases b <;> first | exact .null | cases h
    | bool x =>
      cases b with
      | bool y =>
        obtain rfl := eq_of_beq h
        exact .bool x
      | _ => cases h
    | number m =>
      cases b with
      | number n => exact .number (eq_of_beq h)
      | _ => cases h
    | string s =>
      cases b with
      | string t =>
        obtain rfl := eq_of_beq h
        exact .string s
      | _ => cases h
    | array items =>
      cases b with
      | array others =>
        obtain ⟨hlength, hitems⟩ := (sameItems_iff items others).mp h
        refine .array hlength fun i a b hi hb => ?_
        have hm := List.mem_of_getElem? hi
        have hlt := List.sizeOf_lt_of_mem hm
        refine ih a ?_ b ((distinctInItems_iff items).mp ha a hm) (hitems i a b hi hb)
        simp only [Json.array.sizeOf_spec]
        omega
      | _ => cases h
    | object members =>
      cases b with
      | object others =>
        rw [Json.sameValue, Bool.and_eq_true, beq_iff_eq, sameMembers_iff] at h
        obtain ⟨hlength, hmembers⟩ := h
        obtain ⟨hnodup, hdistinct⟩ := distinctKeys_object ha
        refine .object (keys_perm hnodup hlength fun key a hm => ?_) fun key a b hi hb => ?_
        · obtain ⟨b, hb, -⟩ := hmembers key a hm
          exact ⟨b, hb⟩
        · have hm := get?_mem hi
          obtain ⟨found, hfound, hsame⟩ := hmembers key a hm
          cases hb.symm.trans hfound
          exact ih a (sizeOf_member_lt hm) b (hdistinct key a hm) hsame
      | _ => cases h

lemma sameValue_of_equal (h : EqualByValue a b) (ha : distinctKeys a = true) :
    Json.sameValue a b = true := by
  induction h with
  | null => rfl
  | bool | string => exact beq_self_eq_true _
  | number hvalue => exact beq_iff_eq.mpr hvalue
  | @array items others hlength _ ih =>
    refine (sameItems_iff items others).mpr ⟨hlength, fun i a b hi hb => ih i a b hi hb ?_⟩
    exact (distinctInItems_iff items).mp ha a (List.mem_of_getElem? hi)
  | @object members others hkeys _ ih =>
    obtain ⟨hnodup, hdistinct⟩ := distinctKeys_object ha
    have hlength := hkeys.length_eq
    rw [Members.keys, Members.keys, List.length_map, List.length_map] at hlength
    rw [Json.sameValue, Bool.and_eq_true, beq_iff_eq, sameMembers_iff]
    refine ⟨hlength, fun key a hm => ?_⟩
    have hi := get?_of_mem hnodup hm
    obtain ⟨b, hb⟩ := found_of_perm hkeys hi
    exact ⟨b, hb, ih key a b hi hb (hdistinct key a hm)⟩

/-- The second value may repeat keys: if it does, it has too many members or lacks a key. -/
lemma sameValue_iff (ha : distinctKeys a = true) :
    Json.sameValue a b = true ↔ EqualByValue a b :=
  ⟨equal_of_sameValue a b ha, fun h => sameValue_of_equal h ha⟩

lemma sameValue_eq (hab : Reordered a b) (hcd : Reordered c d) :
    Json.sameValue b d = Json.sameValue a c := by
  have hfirst := equal_of_reordered hab
  have hsecond := equal_of_reordered hcd
  rw [Bool.eq_iff_iff, sameValue_iff (reordered_distinct (reordered_symm hab)),
    sameValue_iff (reordered_distinct hab)]
  exact ⟨fun h => equal_trans hfirst (equal_trans h (equal_symm hsecond)),
    fun h => equal_trans (equal_symm hfirst) (equal_trans h hsecond)⟩

end Deciding

section Contexts

/-- A value with a hole in place of one of the values in it. -/
inductive Around where
  | hole
  | item (before : List Json) (inner : Around) (after : List Json)
  | member (before : Members) (key : String) (inner : Around) (after : Members)

def Around.fill : Around → Json → Json
  | .hole, value => value
  | .item before inner after, value => .array (before ++ inner.fill value :: after)
  | .member before key inner after, value => .object (before ++ (key, inner.fill value) :: after)

variable {a b c d : Json} {around : Around}

lemma equal_fill (h : EqualByValue a b) (around : Around) :
    EqualByValue (around.fill a) (around.fill b) := by
  induction around with
  | hole => exact h
  | item before inner after ih =>
    have hsame : ∀ items, List.Forall₂ EqualByValue items items :=
      fun items => List.forall₂_same.mpr fun item _ => equal_refl item
    have hitems := List.rel_append (hsame before) (.cons ih (hsame after))
    exact .array hitems.length_eq.symm (related_at hitems)
  | member before key inner after ih =>
    refine .object (by simp [Members.keys]) fun name x y hx hy => ?_
    rw [Members.get?, List.lookup_append] at hx hy
    -- The member with the hole is the one found unless an earlier one has its key.
    cases hbefore : List.lookup name before with
    | some found =>
      rw [hbefore, Option.some_or, Option.some_inj] at hx hy
      rw [← hx, ← hy]
      exact equal_refl found
    | none =>
      rw [hbefore, Option.none_or, ← Members.get?, get?_cons] at hx hy
      by_cases hkey : key = name
      · rw [if_pos hkey, Option.some_inj] at hx hy
        rwa [← hx, ← hy]
      · rw [if_neg hkey] at hx hy
        cases hx.symm.trans hy
        exact equal_refl x

lemma distinctKeys_fill (h : distinctKeys (around.fill a) = true) :
    distinctKeys a = true ∧ (distinctKeys b = true → distinctKeys (around.fill b) = true) := by
  induction around with
  | hole => exact ⟨h, id⟩
  | item before inner after ih =>
    rw [Around.fill, distinctKeys, distinctInItems_iff, List.forall_mem_append,
      List.forall_mem_cons] at h ⊢
    obtain ⟨hbefore, hinner, hafter⟩ := h
    exact ⟨(ih hinner).1, fun hb => ⟨hbefore, (ih hinner).2 hb, hafter⟩⟩
  | member before key inner after ih =>
    have hkeys : ∀ value, Members.keys (before ++ (key, value) :: after)
        = Members.keys before ++ key :: Members.keys after := by
      intro value
      rw [Members.keys, List.map_append, List.map_cons]
      rfl
    rw [Around.fill, distinctKeys, Bool.and_eq_true, distinctInMembers_iff, hkeys] at h ⊢
    obtain ⟨hnodup, hvalues⟩ := h
    have hinner := ih (hvalues key _ (by simp))
    refine ⟨hinner.1, fun hb => ⟨hnodup, fun name value hm => ?_⟩⟩
    rcases List.mem_append.mp hm with hm | hm
    · exact hvalues name value (List.mem_append_left _ hm)
    · rcases List.mem_cons.mp hm with he | hm
      · cases he
        exact hinner.2 hb
      · exact hvalues name value (List.mem_append_right _ (List.mem_cons_of_mem _ hm))

end Contexts

section Lists

variable {items others sorted : List Json}

lemma allDistinct_iff (items : List Json) : Json.allDistinct items = true ↔
    items.Pairwise fun a b => Json.sameValue a b = false := by
  induction items with
  | nil => exact iff_of_true rfl .nil
  | cons a rest ih =>
    rw [Json.allDistinct, Bool.and_eq_true, ih, List.pairwise_cons, List.all_eq_true]
    simp only [Bool.not_eq_true']

lemma allDistinct_reordered (h : Reordered (.array items) (.array others)) :
    Json.allDistinct others = Json.allDistinct items := by
  have hone : ∀ {items others : List Json}, Reordered (.array items) (.array others) →
      Json.allDistinct items = true → Json.allDistinct others = true := by
    intro items others h hdistinct
    rw [allDistinct_iff, List.pairwise_iff_getElem] at hdistinct ⊢
    cases h with
    | array hlength hitems =>
      intro i j hi hj hij
      have hab := hitems i _ _ (List.getElem?_eq_getElem (hlength ▸ hi))
        (List.getElem?_eq_getElem hi)
      have hcd := hitems j _ _ (List.getElem?_eq_getElem (hlength ▸ hj))
        (List.getElem?_eq_getElem hj)
      rw [sameValue_eq hab hcd]
      exact hdistinct i j _ _ hij
  rw [Bool.eq_iff_iff]
  exact ⟨hone (reordered_symm h), hone h⟩

lemma allDistinct_iff_unequal (h : ∀ item ∈ items, distinctKeys item = true) :
    Json.allDistinct items = true ↔ items.Pairwise fun a b => ¬ EqualByValue a b := by
  rw [allDistinct_iff]
  refine List.Pairwise.iff_of_mem fun {a b} ha _ => ?_
  rw [← Bool.not_eq_true, sameValue_iff (h a ha)]

/-- As equality is symmetric, two places may be taken in either order. -/
lemma allDistinct_iff_places (h : ∀ item ∈ items, distinctKeys item = true) :
    Json.allDistinct items = true ↔ ∀ (i j : Nat) a b, i ≠ j → items[i]? = some a →
      items[j]? = some b → ¬ EqualByValue a b := by
  rw [allDistinct_iff_unequal h, List.pairwise_iff_getElem]
  constructor
  · intro hpairs i j a b hij ha hb hab
    obtain ⟨hi, rfl⟩ := List.getElem?_eq_some_iff.mp ha
    obtain ⟨hj, rfl⟩ := List.getElem?_eq_some_iff.mp hb
    rcases Nat.lt_or_gt_of_ne hij with hlt | hgt
    · exact hpairs i j hi hj hlt hab
    · exact hpairs j i hj hi hgt (equal_symm hab)
  · intro hplaces i j hi hj hlt
    exact hplaces i j _ _ (Nat.ne_of_lt hlt) (List.getElem?_eq_getElem hi)
      (List.getElem?_eq_getElem hj)

lemma allDistinct_perm (h : ∀ item ∈ items, distinctKeys item = true)
    (hperm : items.Perm sorted) : Json.allDistinct sorted = Json.allDistinct items := by
  have hsorted : ∀ item ∈ sorted, distinctKeys item = true :=
    fun item hm => h item (hperm.mem_iff.mpr hm)
  rw [Bool.eq_iff_iff, allDistinct_iff_unequal h, allDistinct_iff_unequal hsorted]
  exact hperm.symm.pairwise_iff fun hab hba => hab (equal_symm hba)

end Lists

/-- A test of two values is an equality of those that repeat no key, and a test of lists asks that
no two of their items be equal. -/
structure RealEquality (same : Json → Json → Bool) (distinct : List Json → Bool) : Prop where
  equivalence : Equivalence fun a b : { value : Json // distinctKeys value = true } =>
    same a b = true
  structural : ∀ a b, distinctKeys a = true → distinctKeys b = true →
    (same a b = true ↔ EqualByValue a b)
  /-- With an equal value in its place, the whole is equal to what it was and to the same others. -/
  replaces : ∀ (around : Around) a b, distinctKeys (around.fill a) = true →
    distinctKeys b = true → same a b = true → same (around.fill a) (around.fill b) = true ∧
      ∀ other, distinctKeys other = true →
        same (around.fill b) other = same (around.fill a) other
  unique : ∀ items, (∀ item ∈ items, distinctKeys item = true) →
    (distinct items = true ↔ ∀ (i j : Nat) a b, i ≠ j → items[i]? = some a →
      items[j]? = some b → ¬ EqualByValue a b)
  /-- Neither the order of the items nor that of the keys in them matters. -/
  orderless : ∀ items sorted others, items.Perm sorted → List.Forall₂ Reordered sorted others →
    distinct others = distinct items

theorem values_compared : RealEquality Json.sameValue Json.allDistinct where
  equivalence := by
    refine ⟨fun a => ?_, fun {a b} hab => ?_, fun {a b c} hab hbc => ?_⟩
    · exact (sameValue_iff a.2).mpr (equal_refl a)
    · exact (sameValue_iff b.2).mpr (equal_symm ((sameValue_iff a.2).mp hab))
    · rw [sameValue_iff a.2] at hab ⊢
      exact equal_trans hab ((sameValue_iff b.2).mp hbc)
  structural := fun a b ha _ => sameValue_iff ha
  replaces := by
    intro around a b hfilled hb hab
    obtain ⟨ha, hfill⟩ := distinctKeys_fill (b := b) hfilled
    have hequal := equal_fill ((sameValue_iff ha).mp hab) around
    refine ⟨(sameValue_iff hfilled).mpr hequal, fun other _ => ?_⟩
    rw [Bool.eq_iff_iff, sameValue_iff hfilled, sameValue_iff (hfill hb)]
    exact ⟨equal_trans hequal, equal_trans (equal_symm hequal)⟩
  unique := fun _ h => allDistinct_iff_places h
  orderless := by
    intro items sorted others hperm hothers
    have hsorted : Reordered (.array sorted) (.array others) :=
      .array hothers.length_eq.symm (related_at hothers)
    have hdistinct := (distinctInItems_iff sorted).mp (reordered_distinct hsorted)
    rw [allDistinct_reordered hsorted]
    exact allDistinct_perm (fun item hm => hdistinct item (hperm.mem_iff.mp hm)) hperm

example : Json.sameValue
    (.object [("a", .number (.int 1)), ("b", .array [.number (.float ⟨0, true⟩)])])
    (.object [("b", .array [.number (.int 0)]), ("a", .number (.float ⟨1, false⟩))]) = true := by
  decide +kernel

end JsonTypeDefinition.Proofs
