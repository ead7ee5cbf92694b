import JsonTypeDefinition.Number.Binary64
import Mathlib.Algebra.Field.Rat
import Mathlib.Algebra.Order.Ring.Rat
import Mathlib.Data.Rat.Floor
import Mathlib.Tactic.Lemma
import Mathlib.Tactic.Linarith
import Mathlib.Tactic.Ring

/-!
# Whole numbers in binary64

Whole numbers up to `2 ^ 53` are multiples of their spacing, so that rounding leaves them alone and
arithmetic that gives no others is exact. Rounding moves the ones beyond, but they stay whole and
stay beyond: no whole number crosses one below `2 ^ 53`.
-/

namespace JsonTypeDefinition.Proofs

section Rounding

lemma wholeLimit_eq : wholeLimit = 2 ^ 53 := rfl

lemma roundHalfEven_intCast (n : Int) : roundHalfEven n = n := by
  simp [roundHalfEven, Rat.floor_intCast]

lemma abs_intCast (n : Int) : (n : Rat).abs = (n.natAbs : Rat) := by
  rcases le_total 0 n with hn | hn
  · rw [Rat.abs_of_nonneg (by exact_mod_cast hn), ← Int.cast_natCast, Int.natAbs_of_nonneg hn]
  · rw [Rat.abs_of_nonpos (by exact_mod_cast hn), ← Int.cast_natCast, Int.ofNat_natAbs_of_nonpos hn,
      Int.cast_neg]

lemma floorLog2_natCast {n : Nat} (h : n ≠ 0) : floorLog2 n = n.log2 := by
  have hnum : (n : Rat).num.natAbs.log2 = n.log2 := by rw [Rat.num_natCast, Int.natAbs_natCast]
  have hden : (n : Rat).den.log2 = 0 := by rw [Rat.den_natCast]; decide
  have hpow : (2 : Rat) ^ ((n.log2 : Int) - (0 : Nat)) ≤ n := by
    rw [Nat.cast_zero, sub_zero, zpow_natCast]
    exact_mod_cast Nat.log2_self_le h
  unfold floorLog2
  rw [hnum, hden]
  dsimp only
  rw [if_pos hpow, Nat.cast_zero, sub_zero]

lemma floorLog2_natCast_le (n : Nat) : floorLog2 n ≤ n.log2 := by
  rcases eq_or_ne n 0 with rfl | hn
  · decide
  · exact (floorLog2_natCast hn).le

lemma eq_wholeLimit_of_log2 {n : Nat} (h : n ≤ wholeLimit) (hlog : 53 ≤ n.log2) :
    n = wholeLimit ∧ n.log2 = 53 := by
  have hpos : n ≠ 0 := by
    rintro rfl
    rw [Nat.log2_zero] at hlog
    omega
  have habove : 2 ^ 53 ≤ n :=
    le_trans (Nat.pow_le_pow_right (by decide) hlog) (Nat.log2_self_le hpos)
  have hbelow : n.log2 < 54 := by
    rw [Nat.log2_lt hpos]
    rw [wholeLimit_eq] at h
    omega
  exact ⟨le_antisymm h habove, by omega⟩

lemma whole_div_spacing {n : Int} (h : n.natAbs ≤ wholeLimit) :
    ∃ m : Int, (n : Rat) / spacing n = m := by
  obtain ⟨e, he⟩ : ∃ e, e = max (floorLog2 (n : Rat).abs - 52) (-1074) := ⟨_, rfl⟩
  have hlog : floorLog2 (n : Rat).abs ≤ n.natAbs.log2 := by
    rw [abs_intCast]
    exact floorLog2_natCast_le n.natAbs
  rw [spacing, ← he]
  by_cases hsmall : e ≤ 0
  · obtain ⟨k, rfl⟩ := Int.exists_eq_neg_ofNat hsmall
    refine ⟨n * 2 ^ k, ?_⟩
    rw [zpow_neg, zpow_natCast, div_inv_eq_mul]
    push_cast
    rfl
  · -- Numbers are two apart from the limit on, but the limit is even.
    obtain ⟨hlimit, hlast⟩ := eq_wholeLimit_of_log2 h (by omega)
    have hone : e = 1 := by omega
    have hsign : n = 2 * 2 ^ 52 ∨ n = 2 * -2 ^ 52 := by
      rw [wholeLimit_eq] at hlimit
      omega
    rw [hone, zpow_one]
    rcases hsign with rfl | rfl
    · exact ⟨2 ^ 52, by push_cast; ring⟩
    · exact ⟨-2 ^ 52, by push_cast; ring⟩

/-- That whole numbers up to the limit are let through changes no result of rounding. -/
theorem nearest_eq_rounded (q : Rat) :
    nearest q = roundHalfEven (q / spacing q) * spacing q := by
  unfold nearest
  split_ifs with h
  · obtain ⟨hwhole, hlimit⟩ := h
    have hq : (q.num : Rat) = q := Rat.coe_int_num_of_den_eq_one (by simpa [isWhole] using hwhole)
    obtain ⟨m, hm⟩ := whole_div_spacing hlimit
    have hspacing : spacing q ≠ 0 := by
      unfold spacing
      exact zpow_ne_zero _ (by norm_num)
    rw [hq] at hm
    rw [hm, roundHalfEven_intCast, ← hm, div_mul_cancel₀ q hspacing]
  · rfl

end Rounding

namespace Binary64

variable {x y : Binary64} {m n : Int}

lemma ofRat_whole (h : n.natAbs ≤ 2 ^ 53) : (Binary64.ofRat n).toRat = n := by
  have hwhole : isWhole (n : Rat) = true := by simp [isWhole]
  have hnum : (n : Rat).num.natAbs ≤ wholeLimit := by rwa [Rat.num_intCast, wholeLimit_eq]
  exact if_pos ⟨hwhole, hnum⟩

lemma add_whole (hx : x.toRat = m) (hy : y.toRat = n) (h : (m + n).natAbs ≤ 2 ^ 53) :
    (x + y).toRat = (m + n : Int) := by
  change (Binary64.ofRat (x.toRat + y.toRat)).toRat = _
  rw [hx, hy, ← Int.cast_add, ofRat_whole h]

lemma mul_whole (hx : x.toRat = m) (hy : y.toRat = n) (h : (m * n).natAbs ≤ 2 ^ 53) :
    (x * y).toRat = (m * n : Int) := by
  change (Binary64.ofRat (x.toRat * y.toRat)).toRat = _
  rw [hx, hy, ← Int.cast_mul, ofRat_whole h]

lemma div_whole (hx : x.toRat = (m * n : Int)) (hy : y.toRat = n) (hn : n ≠ 0)
    (h : m.natAbs ≤ 2 ^ 53) : (x / y).toRat = m := by
  change (Binary64.ofRat (x.toRat / y.toRat)).toRat = _
  have hcast : (n : Rat) ≠ 0 := by exact_mod_cast hn
  rw [hx, hy, Int.cast_mul, mul_div_cancel_right₀ _ hcast, ofRat_whole h]

end Binary64

section Beyond

lemma roundHalfEven_floor (q : Rat) :
    roundHalfEven q = q.floor ∨ roundHalfEven q = q.floor + 1 := by
  unfold roundHalfEven
  dsimp only
  split_ifs
  · exact .inl rfl
  · exact .inr rfl
  · exact .inl rfl
  · exact .inr rfl

lemma le_roundHalfEven {q : Rat} {m : Int} (h : m ≤ q) : m ≤ roundHalfEven q := by
  have hfloor : m ≤ q.floor := Rat.le_floor_iff.mpr h
  rcases roundHalfEven_floor q with hq | hq <;> omega

lemma roundHalfEven_le {q : Rat} {m : Int} (h : q ≤ m) : roundHalfEven q ≤ m := by
  rcases h.eq_or_lt with rfl | hlt
  · rw [roundHalfEven_intCast]
  · have hfloor : q.floor < m := Rat.floor_lt_iff.mpr hlt
    rcases roundHalfEven_floor q with hq | hq <;> omega

lemma spacing_beyond {n : Int} (h : wholeLimit < n.natAbs) :
    ∃ k : Nat, spacing n = (2 ^ (k + 1) : Int) ∧ 2 ^ 52 * 2 ^ (k + 1) ≤ n.natAbs := by
  have hne : n.natAbs ≠ 0 := by omega
  have hlog : 53 ≤ n.natAbs.log2 := by
    rw [Nat.le_log2 hne]
    exact h.le
  obtain ⟨k, hk⟩ := Nat.exists_eq_add_of_le hlog
  refine ⟨k, ?_, ?_⟩
  · have hexponent : max ((n.natAbs.log2 : Int) - 52) (-1074) = (k + 1 : Nat) := by omega
    rw [spacing, abs_intCast, floorLog2_natCast hne, hexponent, zpow_natCast]
    push_cast
    rfl
  · have hpow : 2 ^ 52 * 2 ^ (k + 1) = 2 ^ n.natAbs.log2 := by
      rw [← pow_add, hk]
      congr 1
      omega
    rw [hpow]
    exact Nat.log2_self_le hne

lemma nearest_beyond {n : Int} (h : wholeLimit < n.natAbs) :
    ∃ m : Int, nearest n = m ∧ (0 ≤ n → 2 ^ 53 ≤ m) ∧ (n ≤ 0 → m ≤ -2 ^ 53) := by
  obtain ⟨k, hspacing, hmany⟩ := spacing_beyond h
  have hpos : (0 : Rat) < (2 ^ (k + 1) : Int) := Int.cast_pos.mpr (pow_pos (by decide) _)
  have htwo : (2 : Int) ≤ 2 ^ (k + 1) := by
    have hpower : (0 : Int) < 2 ^ k := pow_pos (by decide) k
    rw [pow_succ]
    omega
  refine ⟨roundHalfEven (n / (2 ^ (k + 1) : Int)) * 2 ^ (k + 1), ?_, fun hn => ?_, fun hn => ?_⟩
  · rw [nearest_eq_rounded, hspacing]
    push_cast
    rfl
  · have hint : (2 ^ 52 * 2 ^ (k + 1) : Int) ≤ n := by
      zify at hmany
      rwa [abs_of_nonneg hn] at hmany
    have hquotient : ((2 ^ 52 : Int) : Rat) ≤ n / (2 ^ (k + 1) : Int) := by
      rw [le_div_iff₀ hpos]
      exact_mod_cast hint
    nlinarith [le_roundHalfEven hquotient]
  · have hint : n ≤ (-2 ^ 52 * 2 ^ (k + 1) : Int) := by
      zify at hmany
      rw [abs_of_nonpos hn] at hmany
      linarith
    have hquotient : (n / (2 ^ (k + 1) : Int) : Rat) ≤ ((-2 ^ 52 : Int) : Rat) := by
      rw [div_le_iff₀ hpos]
      exact_mod_cast hint
    nlinarith [roundHalfEven_le hquotient]

/-- Rounding keeps a whole number whole and moves it across no number below the limit. -/
theorem nearest_keeps_order (n : Int) : ∃ m : Int, nearest n = m ∧
    ∀ b : Int, b.natAbs < wholeLimit → (m ≤ b ↔ n ≤ b) ∧ (b ≤ m ↔ b ≤ n) := by
  by_cases h : n.natAbs ≤ wholeLimit
  · exact ⟨n, Binary64.ofRat_whole h, fun _ _ => ⟨.rfl, .rfl⟩⟩
  · obtain ⟨m, hm, habove, hbelow⟩ := nearest_beyond (not_le.mp h)
    refine ⟨m, hm, fun b hb => ?_⟩
    rw [wholeLimit_eq] at h hb
    rcases le_total 0 n with hn | hn
    · have hfar := habove hn
      constructor <;> omega
    · have hfar := hbelow hn
      constructor <;> omega

end Beyond

end JsonTypeDefinition.Proofs
