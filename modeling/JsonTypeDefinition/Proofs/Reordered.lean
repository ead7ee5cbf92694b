import JsonTypeDefinition.Proofs.Members
import Mathlib.Data.Multiset.Bind
import Mathlib.Data.List.Nodup

/-!
# Values with their keys in another order

`Reordered` relates values that are equal up to the order of the keys of the objects in them. Such
values are equal for all that does not look at the order: they have the same kind and levels.
-/

namespace JsonTypeDefinition.Proofs

/-- Two values, neither of which repeats a key in an object, are equal up to the order of keys. -/
inductive Reordered : Json → Json → Prop where
  | null : Reordered .null .null
  | bool (b : Bool) : Reordered (.bool b) (.bool b)
  | number (n : Number) : Reordered (.number n) (.number n)
  | string (s : String) : Reordered (.string s) (.string s)
  | array {items others : List Json} (hlength : others.length = items.length)
      (hitems : ∀ (i : Nat) a b, items[i]? = some a → others[i]? = some b → Reordered a b) :
      Reordered (.array items) (.array others)
  | object {members others : Members} (hnodup : (Members.keys members).Nodup)
      (hkeys : (Members.keys members).Perm (Members.keys others))
      (hvalues : ∀ key a b, members.get? key = some a → others.get? key = some b →
        Reordered a b) :
      Reordered (.object members) (.object others)

section Matched

variable {α β γ δ : Type} {R : α → β → Prop} {S : γ → δ → Prop} {xs : List α} {ys : List β}

/-- Two lists are, in some order, related item by item. -/
def Matched (R : α → β → Prop) (xs : List α) (ys : List β) : Prop :=
  Multiset.Rel R (xs : Multiset α) (ys : Multiset β)

lemma matched_nil : Matched R [] [] :=
  .zero

lemma matched_cons {x : α} {y : β} (h : R x y) (hrest : Matched R xs ys) :
    Matched R (x :: xs) (y :: ys) :=
  .cons h hrest

lemma matched_of_forall₂ (h : List.Forall₂ R xs ys) : Matched R xs ys := by
  induction h with
  | nil => exact matched_nil
  | cons hhead _ ih => exact matched_cons hhead ih

lemma matched_map (h : Matched R xs ys) {f : α → γ} {g : β → δ}
    (hfg : ∀ x y, R x y → S (f x) (g y)) : Matched S (xs.map f) (ys.map g) := by
  have hmap := Multiset.rel_map.mpr (h.mono fun x _ y _ hxy => hfg x y hxy)
  rwa [Multiset.map_coe, Multiset.map_coe] at hmap

lemma matched_flatMap (h : Matched R xs ys) {f : α → List γ} {g : β → List δ}
    (hfg : ∀ x y, R x y → Matched S (f x) (g y)) : Matched S (xs.flatMap f) (ys.flatMap g) := by
  have hbind := Multiset.rel_bind (p := S) (f := fun x => (f x : Multiset γ))
    (g := fun y => (g y : Multiset δ)) (fun x y hxy => hfg x y hxy) h
  rwa [Multiset.coe_bind, Multiset.coe_bind] at hbind

lemma matched_perm {xs zs : List γ} (h : Matched Eq xs zs) : xs.Perm zs :=
  Multiset.coe_eq_coe.mp (Multiset.rel_eq.mp h)

lemma matched_of_perm {xs zs : List γ} (h : xs.Perm zs) : Matched Eq xs zs :=
  Multiset.rel_eq.mpr (Multiset.coe_eq_coe.mpr h)

end Matched

section Lookups

variable {a b : Json} {members others : Members}

lemma reordered_symm (h : Reordered a b) : Reordered b a := by
  induction h with
  | null => exact .null
  | bool b => exact .bool b
  | number n => exact .number n
  | string s => exact .string s
  | array hlength _ ih => exact .array hlength.symm fun i b a hb ha => ih i a b ha hb
  | object hnodup hkeys _ ih =>
    exact .object (hkeys.nodup_iff.mp hnodup) hkeys.symm fun key b a hb ha => ih key a b ha hb

lemma get?_reordered (h : Reordered (.object members) (.object others)) (key : String) :
    Option.Rel Reordered (members.get? key) (others.get? key) := by
  cases h with
  | object _ hkeys hvalues =>
    cases ha : members.get? key with
    | none =>
      have hnone : others.get? key = none := by
        rw [get?_eq_none_iff] at ha ⊢
        rwa [← hkeys.mem_iff]
      rw [hnone]
      exact .none
    | some a =>
      have hsome : others.get? key ≠ none := by
        rw [Ne, get?_eq_none_iff, not_not, ← hkeys.mem_iff]
        exact List.mem_map_of_mem (get?_mem ha)
      obtain ⟨b, hb⟩ := Option.ne_none_iff_exists'.mp hsome
      rw [hb]
      exact .some (hvalues key a b ha hb)

lemma value_reordered (h : Reordered (.object members) (.object others)) {key : String}
    (ha : members.get? key = some a) : ∃ b, others.get? key = some b ∧ Reordered a b := by
  have hget := get?_reordered h key
  rw [ha] at hget
  generalize others.get? key = found at hget ⊢
  cases hget with
  | some hab => exact ⟨_, rfl, hab⟩

lemma get?_string (h : Reordered (.object members) (.object others)) {key s : String}
    (hs : members.get? key = some (.string s)) : others.get? key = some (.string s) := by
  obtain ⟨b, hb, hab⟩ := value_reordered h hs
  cases hab
  exact hb

lemma reordered_distinct (h : Reordered a b) : distinctKeys a = true := by
  induction h with
  | null | bool | number | string => rfl
  | @array items others hlength _ ih =>
    rw [distinctKeys, distinctInItems_iff]
    intro item hitem
    obtain ⟨i, hi⟩ := List.mem_iff_getElem?.mp hitem
    have hlt : i < others.length := hlength ▸ (List.getElem?_eq_some_iff.mp hi).choose
    exact ih i item _ hi (List.getElem?_eq_getElem hlt)
  | object hnodup hkeys hvalues ih =>
    rw [distinctKeys, Bool.and_eq_true, decide_eq_true_iff, distinctInMembers_iff]
    refine ⟨hnodup, fun key value hm => ?_⟩
    have hvalue := get?_of_mem hnodup hm
    obtain ⟨other, hother, -⟩ := value_reordered (.object hnodup hkeys hvalues) hvalue
    exact ih key value other hvalue hother

lemma keys_reordered (h : Reordered (.object members) (.object others)) :
    (Members.keys members).Nodup ∧ (Members.keys others).Nodup ∧
      (Members.keys members).Perm (Members.keys others) := by
  cases h with
  | object hnodup hkeys _ => exact ⟨hnodup, hkeys.nodup_iff.mp hnodup, hkeys⟩

lemma found_reordered {α : Type} (f : Option Json → α)
    (hf : ∀ a b, Reordered a b → f (some b) = f (some a)) {found other : Option Json}
    (h : Option.Rel Reordered found other) : f other = f found := by
  cases h with
  | none => rfl
  | some hab => exact hf _ _ hab

lemma has_reordered (h : Reordered (.object members) (.object others)) (key : String) :
    others.has key = members.has key :=
  found_reordered Option.isSome (fun _ _ _ => rfl) (get?_reordered h key)

lemma members_matched (h : Reordered (.object members) (.object others)) :
    Matched (fun member other => other.1 = member.1 ∧ Reordered member.2 other.2)
      members others := by
  obtain ⟨hnodup, hothers, hkeys⟩ := keys_reordered h
  have hnames : List.Forall₂ (fun key (other : String × Json) => other.1 = key)
      (Members.keys others) others := by
    rw [Members.keys, List.forall₂_map_left_iff]
    exact List.forall₂_same.mpr fun _ _ => rfl
  obtain ⟨sorted, hsorted, hperm⟩ := List.perm_comp_forall₂ hkeys hnames
  rw [Members.keys, List.forall₂_map_left_iff] at hsorted
  have hmatched : Matched (fun member other => other.1 = member.1 ∧ Reordered member.2 other.2)
      members sorted := by
    refine matched_of_forall₂ (List.forall₂_iff_zip.mpr ⟨hsorted.length_eq, ?_⟩)
    intro member other hm
    have hname := (List.forall₂_iff_zip.mp hsorted).2 hm
    obtain ⟨hmember, hother⟩ := List.of_mem_zip hm
    obtain ⟨found, hfound, hvalue⟩ := value_reordered h (get?_of_mem hnodup hmember)
    rw [← hname, get?_of_mem hothers (hperm.mem_iff.mp hother)] at hfound
    cases hfound
    exact ⟨hname, hvalue⟩
  unfold Matched at hmatched ⊢
  rwa [Multiset.coe_eq_coe.mpr hperm] at hmatched

lemma entriesIn_reordered {found other : Option Json} (h : Option.Rel Reordered found other) :
    Reordered (.object (entriesIn found)) (.object (entriesIn other)) := by
  have hempty : Reordered (.object []) (.object []) := .object .nil .nil nofun
  cases h with
  | none => exact hempty
  | some hvalue =>
    cases hvalue with
    | object hnodup hkeys hvalues => exact .object hnodup hkeys hvalues
    | _ => exact hempty

end Lookups

section Values

variable {a b : Json}

/-- What a value says of itself, but for what an array or an object holds. -/
structure SameOutside (a b : Json) : Prop where
  kind : b.kind = a.kind
  truthy : b.isTruthy = a.isTruthy
  bool : b.bool? = a.bool?
  number : b.number? = a.number?
  string : b.string? = a.string?
  array : b.array?.isSome = a.array?.isSome
  object : b.object?.isSome = a.object?.isSome

lemma sameOutside_of_reordered (h : Reordered a b) : SameOutside a b := by
  cases h <;> exact ⟨rfl, rfl, rfl, rfl, rfl, rfl, rfl⟩

lemma length_reordered {members others : Members}
    (h : Reordered (.object members) (.object others)) : others.length = members.length := by
  have hlength := (keys_reordered h).2.2.length_eq
  rwa [Members.keys, Members.keys, List.length_map, List.length_map, eq_comm] at hlength

lemma levelsOfItems_le_iff (items : List Json) (n : Nat) :
    Json.levelsOfItems items ≤ n ↔ ∀ item ∈ items, item.levels ≤ n := by
  induction items with
  | nil => simp [Json.levelsOfItems]
  | cons item rest ih => simp [Json.levelsOfItems, ih]

lemma levelsOfMembers_le_iff (members : Members) (n : Nat) :
    Json.levelsOfMembers members ≤ n ↔ ∀ key value, (key, value) ∈ members → value.levels ≤ n := by
  induction members with
  | nil => simp [Json.levelsOfMembers]
  | cons member rest ih =>
    obtain ⟨key, value⟩ := member
    rw [Json.levelsOfMembers, Nat.max_le, ih]
    grind

lemma levels_reordered (h : Reordered a b) : b.levels ≤ a.levels := by
  induction h with
  | null | bool | number | string => exact Nat.le_refl _
  | @array items others hlength _ ih =>
    rw [Json.levels, Json.levels, Nat.add_le_add_iff_right, levelsOfItems_le_iff]
    intro other hother
    obtain ⟨i, hi⟩ := List.mem_iff_getElem?.mp hother
    have hlt : i < items.length := hlength ▸ (List.getElem?_eq_some_iff.mp hi).choose
    have hitem := List.getElem?_eq_getElem hlt
    exact (ih i _ other hitem hi).trans
      ((levelsOfItems_le_iff items _).mp (Nat.le_refl _) _ (List.mem_of_getElem? hitem))
  | @object members others hnodup hkeys hvalues ih =>
    rw [Json.levels, Json.levels, Nat.add_le_add_iff_right, levelsOfMembers_le_iff]
    intro key other hm
    have hother := get?_of_mem (hkeys.nodup_iff.mp hnodup) hm
    have hback := reordered_symm (.object hnodup hkeys hvalues)
    obtain ⟨value, hvalue, -⟩ := value_reordered hback hother
    exact (ih key value other hvalue hother).trans
      ((levelsOfMembers_le_iff members _).mp (Nat.le_refl _) key value (get?_mem hvalue))

lemma itemwise_iff {same : Json → Json → Bool} {all : List Json → List Json → Bool}
    (hall : ∀ items others, all items others = match items, others with
      | [], [] => true
      | a :: items, b :: others => same a b && all items others
      | _, _ => false) (items others : List Json) :
    all items others = true ↔ others.length = items.length ∧
      ∀ (i : Nat) a b, items[i]? = some a → others[i]? = some b → same a b = true := by
  induction items generalizing others with
  | nil => cases others <;> simp [hall]
  | cons a items ih =>
    cases others with
    | nil => simp [hall]
    | cons b others =>
      rw [hall, Bool.and_eq_true, ih]
      constructor
      · rintro ⟨hsame, hlength, hrest⟩
        refine ⟨congrArg (· + 1) hlength, fun i => ?_⟩
        cases i with
        | zero => rintro _ _ ⟨⟩ ⟨⟩; exact hsame
        | succ i => exact hrest i
      · rintro ⟨hlength, hall⟩
        exact ⟨hall 0 a b rfl rfl, Nat.succ.inj hlength, fun i => hall (i + 1)⟩

lemma memberwise_iff {same : Json → Json → Bool} {all : List (String × Json) → Members → Bool}
    (hall : ∀ members others, all members others = match members with
      | [] => true
      | (key, a) :: rest => (match Members.get? others key with
        | some b => same a b
        | none => false) && all rest others) (members others : Members) :
    all members others = true ↔
      ∀ key a, (key, a) ∈ members → ∃ b, others.get? key = some b ∧ same a b = true := by
  induction members with
  | nil => simp [hall]
  | cons member rest ih =>
    obtain ⟨key, a⟩ := member
    rw [hall, Bool.and_eq_true, ih]
    cases hget : others.get? key with
    | none => grind
    | some b => grind

end Values

section Deciding

mutual

/-- Whether two values are equal up to the order of keys. -/
def isReordered : Json → Json → Bool
  | .null, .null => true
  | .bool a, .bool b => a == b
  | .number m, .number n => m == n
  | .string s, .string t => s == t
  | .array items, .array others => areItemsReordered items others
  | .object members, .object others =>
    decide (Members.keys members).Nodup &&
      (Members.keys members).isPerm (Members.keys others) && areMembersReordered members others
  | _, _ => false

def areItemsReordered : List Json → List Json → Bool
  | [], [] => true
  | a :: items, b :: others => isReordered a b && areItemsReordered items others
  | _, _ => false

def areMembersReordered : List (String × Json) → Members → Bool
  | [], _ => true
  | (key, a) :: rest, others =>
    (match others.get? key with
      | some b => isReordered a b
      | none => false) && areMembersReordered rest others

end

lemma areItemsReordered_iff (items others : List Json) : areItemsReordered items others = true ↔
    others.length = items.length ∧ ∀ (i : Nat) a b, items[i]? = some a → others[i]? = some b →
      isReordered a b = true :=
  itemwise_iff (fun items others => by cases items <;> cases others <;> rfl) items others

lemma areMembersReordered_iff (members others : Members) :
    areMembersReordered members others = true ↔
      ∀ key a, (key, a) ∈ members → ∃ b, others.get? key = some b ∧ isReordered a b = true :=
  memberwise_iff (fun members others => by cases members <;> rfl) members others

lemma reordered_of_isReordered (a : Json) : ∀ b, isReordered a b = true → Reordered a b := by
  induction a using value_induction with
  | step a ih =>
    intro b h
    cases a with
    | null => cases b <;> first | exact .null | cases h
    | bool x =>
      cases b with
      | bool y =>
        obtain rfl := eq_of_beq h
        exact .bool x
      | _ => cases h
    | number m =>
      cases b with
      | number n =>
        obtain rfl := eq_of_beq h
        exact .number m
      | _ => cases h
    | string s =>
      cases b with
      | string t =>
        obtain rfl := eq_of_beq h
        exact .string s
      | _ => cases h
    | array items =>
      cases b with
      | array others =>
        obtain ⟨hlength, hitems⟩ := (areItemsReordered_iff items others).mp h
        refine .array hlength fun i a b ha hb => ih a ?_ b (hitems i a b ha hb)
        have hlt := List.sizeOf_lt_of_mem (List.mem_of_getElem? ha)
        simp only [Json.array.sizeOf_spec]
        omega
      | _ => cases h
    | object members =>
      cases b with
      | object others =>
        rw [isReordered, Bool.and_eq_true, Bool.and_eq_true, decide_eq_true_iff, List.isPerm_iff,
          areMembersReordered_iff] at h
        obtain ⟨⟨hnodup, hkeys⟩, hmembers⟩ := h
        refine .object hnodup hkeys fun key a b ha hb => ?_
        obtain ⟨found, hfound, hsame⟩ := hmembers key a (get?_mem ha)
        cases hb.symm.trans hfound
        exact ih a (sizeOf_member_lt (get?_mem ha)) b hsame
      | _ => cases h

lemma isReordered_of_reordered {a b : Json} (h : Reordered a b) : isReordered a b = true := by
  induction h with
  | null => rfl
  | bool | number | string => exact beq_self_eq_true _
  | @array items others hlength _ ih =>
    exact (areItemsReordered_iff items others).mpr ⟨hlength, ih⟩
  | @object members others hnodup hkeys hvalues ih =>
    rw [isReordered, Bool.and_eq_true, Bool.and_eq_true, decide_eq_true_iff, List.isPerm_iff,
      areMembersReordered_iff]
    refine ⟨⟨hnodup, hkeys⟩, fun key a hm => ?_⟩
    have ha := get?_of_mem hnodup hm
    obtain ⟨b, hb, -⟩ := value_reordered (.object hnodup hkeys hvalues) ha
    exact ⟨b, hb, ih key a b ha hb⟩

instance (a b : Json) : Decidable (Reordered a b) :=
  decidable_of_iff _ ⟨reordered_of_isReordered a b, isReordered_of_reordered⟩

example : Reordered (.object [("a", .array [.null, .object [("b", .null), ("c", .bool true)]]),
      ("d", .string "")])
    (.object [("d", .string ""),
      ("a", .array [.null, .object [("c", .bool true), ("b", .null)]])]) := by
  decide

end Deciding

end JsonTypeDefinition.Proofs
