/-
The decimals of binary numbers. The decimal that is found for a number lies between the midpoints to the
neighbours of the number, so it is read as that number. There always is one: with seventeen digits after
the first, the steps between decimals are smaller than the distance to the nearest midpoint.
-/
import Interconnect.Number.Shortest
import Interconnect.Proofs.Number.Rounding
import Mathlib.Algebra.Order.Floor.Semifield
import Mathlib.Data.Rat.Floor

namespace Interconnect

namespace Shortest

open Binary64

variable {m c : ℕ} {e p : ℤ}

/-! ## Comparing and dividing -/

theorem zpow_mul_pow_toNat {b : ℚ} (hb : b ≠ 0) (p : ℤ) : b ^ p * b ^ (-p).toNat = b ^ p.toNat := by
  rw [← zpow_natCast, ← zpow_natCast, ← zpow_add₀ hb]
  congr 1
  omega

/-- What both sides are multiplied with to become whole. -/
def scale (p e : ℤ) : ℚ := 10 ^ (-p).toNat * 2 ^ (-e).toNat

theorem scale_pos (p e : ℤ) : 0 < scale p e := by
  unfold scale
  positivity

theorem decimal_mul_scale (a : ℕ) (p e : ℤ) :
    a * 10 ^ p * scale p e = (a * Nat.pow 10 p.toNat * Nat.pow 2 (-e).toNat : ℕ) := by
  have hten := zpow_mul_pow_toNat (b := 10) (by norm_num) p
  simp only [Nat.pow_eq]
  push_cast
  rw [← hten, scale]
  ring

theorem binary_mul_scale (b : ℕ) (p e : ℤ) :
    b * 2 ^ e * scale p e = (b * Nat.pow 2 e.toNat * Nat.pow 10 (-p).toNat : ℕ) := by
  have htwo := zpow_mul_pow_toNat (b := 2) two_ne_zero e
  simp only [Nat.pow_eq]
  push_cast
  rw [← htwo, scale]
  ring

theorem compareScaled_eq_gt_iff {a b : ℕ} :
    compareScaled a p b e = .gt ↔ (b : ℚ) * 2 ^ e < a * 10 ^ p := by
  rw [compareScaled, Nat.compare_eq_gt, ← mul_lt_mul_iff_of_pos_right (scale_pos p e),
    decimal_mul_scale, binary_mul_scale, Nat.cast_lt]

theorem compareScaled_eq_lt_iff {a b : ℕ} :
    compareScaled a p b e = .lt ↔ (a : ℚ) * 10 ^ p < b * 2 ^ e := by
  rw [compareScaled, Nat.compare_eq_lt, ← mul_lt_mul_iff_of_pos_right (scale_pos p e),
    decimal_mul_scale, binary_mul_scale, Nat.cast_lt]

theorem compareScaled_eq_eq_iff {a b : ℕ} :
    compareScaled a p b e = .eq ↔ (a : ℚ) * 10 ^ p = b * 2 ^ e := by
  rw [compareScaled, Nat.compare_eq_eq, ← mul_left_inj' (scale_pos p e).ne', decimal_mul_scale,
    binary_mul_scale, Nat.cast_inj]

/-- The number lies between two neighbouring multiples of the power of ten. -/
theorem floorAt_bounds (m : ℕ) (e p : ℤ) :
    (floorAt m e p : ℚ) * 10 ^ p ≤ m * 2 ^ e ∧ (m : ℚ) * 2 ^ e < (floorAt m e p + 1) * 10 ^ p := by
  have hten : (0 : ℚ) < 10 ^ p := by positivity
  have hfloor : floorAt m e p = ⌊(m : ℚ) * 2 ^ e / 10 ^ p⌋₊ := by
    have hstep := decimal_mul_scale 1 p e
    rw [Nat.cast_one, one_mul, one_mul] at hstep
    rw [← mul_div_mul_right _ _ (scale_pos p e).ne', binary_mul_scale, hstep, Nat.floor_div_eq_div,
      floorAt, Nat.mul_comm (Nat.pow 2 (-e).toNat)]
  rw [hfloor, ← le_div_iff₀ hten, ← div_lt_iff₀ hten]
  exact ⟨Nat.floor_le (by positivity), Nat.lt_floor_add_one _⟩

/-! ## Reading back -/

theorem readsBack_iff (hm : 0 < m) :
    readsBack m e c p = true ↔ RoundsTo m e (c * 10 ^ p) := by
  have hstep : (0 : ℚ) < 2 ^ e := by positivity
  have hquarter : ∀ x : ℚ, x * 2 ^ (e - 2) = x / 4 * 2 ^ e := by
    intro x
    rw [zpow_sub₀ two_ne_zero]
    ring
  have hbelow : ((if m = Nat.pow 2 52 ∧ minExponent < e then 4 * m - 1 else 4 * m - 2 : ℕ) : ℚ) / 4 =
      m - gap m e := by
    unfold gap
    split
    · rw [Nat.cast_sub (by omega)]
      push_cast
      ring
    · rw [Nat.cast_sub (by omega)]
      push_cast
      ring
  have habove : ((4 * m + 2 : ℕ) : ℚ) / 4 = m + 1 / 2 := by
    push_cast
    ring
  simp only [readsBack, Bool.and_eq_true, Bool.or_eq_true, decide_eq_true_eq, compareScaled_eq_gt_iff,
    compareScaled_eq_lt_iff, compareScaled_eq_eq_iff, hquarter, hbelow, habove]
  rw [← lt_div_iff₀ hstep, ← div_lt_iff₀ hstep, ← div_eq_iff hstep.ne', ← div_eq_iff hstep.ne']
  exact ⟨fun h => ⟨h.1.imp_right (And.imp_right Eq.symm), h.2⟩,
    fun h => ⟨h.low.imp_right (And.imp_right Eq.symm), h.high⟩⟩

/-! ## The first digit -/

/-- The first digit of the number stands for no more than the number. -/
theorem zpow_magnitude_le (hm : 0 < m) (he : minExponent ≤ e) : 10 ^ magnitude m e ≤ (m : ℚ) * 2 ^ e := by
  unfold magnitude
  dsimp only
  split
  · rename_i hwhole
    obtain ⟨hle, -⟩ := floorAt_bounds m e 0
    rw [zpow_zero, mul_one] at hle
    have hpow : (10 : ℚ) ^ (digitCount (floorAt m e 0) - 1) ≤ floorAt m e 0 := by
      exact_mod_cast pow_digitCount_le hwhole
    have hpos := digitCount_pos (floorAt m e 0)
    rw [show (digitCount (floorAt m e 0) : ℤ) - 1 = (digitCount (floorAt m e 0) - 1 : ℕ) by omega,
      zpow_natCast]
    exact hpow.trans hle
  · obtain ⟨hle, hlt⟩ := floorAt_bounds m e (-400)
    have hshown : 0 < floorAt m e (-400) := by
      -- even the smallest number is larger than a step at that scale
      refine Nat.pos_of_ne_zero fun hzero => ?_
      rw [hzero, Nat.cast_zero, zero_add, one_mul] at hlt
      have hmantissa : (1 : ℚ) ≤ m := by exact_mod_cast hm
      have hsmallest : (2 : ℚ) ^ (-1075 : ℤ) ≤ 2 ^ e :=
        zpow_le_zpow_right₀ one_le_two (le_trans (by decide) he)
      have hnumber : (2 : ℚ) ^ e ≤ m * 2 ^ e := le_mul_of_one_le_left (by positivity) hmantissa
      exact absurd (hlt.trans ten_zpow_lt_two_zpow) (not_lt.2 (hsmallest.trans hnumber))
    have hpow : (10 : ℚ) ^ (digitCount (floorAt m e (-400)) - 1) ≤ floorAt m e (-400) := by
      exact_mod_cast pow_digitCount_le hshown
    have hpos := digitCount_pos (floorAt m e (-400))
    rw [show (digitCount (floorAt m e (-400)) : ℤ) - 401 =
        (digitCount (floorAt m e (-400)) - 1 : ℕ) + (-400) by omega,
      zpow_add₀ (by norm_num), zpow_natCast]
    exact (mul_le_mul_of_nonneg_right hpow (by positivity)).trans hle

/-! ## Searching -/

theorem readsBack_of_pick (h : pick m e p = some c) : readsBack m e c p = true := by
  unfold pick at h
  dsimp only at h
  split at h <;> cases h
  · rename_i hlower hupper
    split
    · exact hupper
    · exact hlower
  · rename_i hlower hupper
    exact hlower
  · rename_i hlower hupper
    exact hupper

theorem exists_pick (h : readsBack m e (floorAt m e p) p = true) : ∃ c, pick m e p = some c := by
  unfold pick
  dsimp only
  rw [h]
  split
  · exact ⟨_, rfl⟩
  · exact ⟨_, rfl⟩
  · exact ⟨_, rfl⟩
  · rename_i hlower hupper
    cases hlower

theorem readsBack_of_search {grids : ℕ} {q : ℤ} (h : search m e p grids = some (c, q)) :
    readsBack m e c q = true := by
  induction grids generalizing p with
  | zero => cases h
  | succ grids ih =>
    unfold search at h
    split at h
    · rename_i hpick
      cases h
      exact readsBack_of_pick hpick
    · exact ih h

/-- What reads back on one of the grids is not overlooked. -/
theorem exists_search {grids k : ℕ} (hk : k < grids) (h : ∃ c, pick m e (p - k) = some c) :
    ∃ found, search m e p grids = some found := by
  induction grids generalizing p k with
  | zero => cases hk
  | succ grids ih =>
    unfold search
    split
    · exact ⟨_, rfl⟩
    · rename_i hnone
      cases k with
      | zero =>
        obtain ⟨c, hc⟩ := h
        rw [Nat.cast_zero, sub_zero, hnone] at hc
        cases hc
      | succ k =>
        refine ih (Nat.lt_of_succ_lt_succ hk) ?_
        rwa [Nat.cast_succ, ← sub_sub, sub_right_comm] at h

/-- With seventeen digits after the first, the next smaller decimal reads back. -/
theorem readsBack_floorAt (hm : 0 < m) (form : Representable m e) :
    readsBack m e (floorAt m e (magnitude m e - 17)) (magnitude m e - 17) = true := by
  have hstep : (0 : ℚ) < 2 ^ e := by positivity
  have hmagnitude := zpow_magnitude_le hm form.min_le
  obtain ⟨hle, hlt⟩ := floorAt_bounds m e (magnitude m e - 17)
  rw [readsBack_iff hm]
  generalize floorAt m e (magnitude m e - 17) = c at hle hlt ⊢
  -- a step of the grid is less than a quarter of a step of the mantissa
  have hgrid : (10 : ℚ) ^ (magnitude m e - 17) < 1 / 4 * 2 ^ e := by
    have hmantissa : (m : ℚ) < 2 ^ 53 := by exact_mod_cast form.mantissa_lt
    rw [zpow_sub₀ (by norm_num)]
    norm_cast
    rw [div_lt_iff₀ (by positivity)]
    calc (10 : ℚ) ^ magnitude m e ≤ m * 2 ^ e := hmagnitude
      _ < 2 ^ 53 * 2 ^ e := mul_lt_mul_of_pos_right hmantissa hstep
      _ ≤ 1 / 4 * 2 ^ e * (10 ^ 17 : ℕ) := by
        push_cast
        linarith
  have hgap : 1 / 4 ≤ gap m e := by
    unfold gap
    split <;> norm_num
  refine ⟨.inl ?_, .inl ?_⟩
  · have hmidpoint := mul_le_mul_of_nonneg_right hgap hstep.le
    rw [add_mul, one_mul] at hlt
    rw [lt_div_iff₀ hstep, sub_mul]
    linarith
  · rw [div_lt_iff₀ hstep]
    linarith

/-! ## The decimal -/

/-- Moving zeros into the power of ten does not change the value. -/
theorem stripZeros_value (c : ℕ) (p : ℤ) (n : ℕ) :
    ((stripZeros c p n).1 : ℚ) * 10 ^ (stripZeros c p n).2 = c * 10 ^ p := by
  induction n generalizing c p with
  | zero => rfl
  | succ n ih =>
    unfold stripZeros
    split
    · rename_i hzero
      have hc : c = c / 10 * 10 := by
        simp only [Bool.and_eq_true, decide_eq_true_eq] at hzero
        omega
      rw [ih, zpow_add_one₀ (by norm_num)]
      conv_rhs => rw [hc]
      push_cast
      ring
    · rfl

/-- The decimal of a number lies between the midpoints to its neighbours. -/
theorem roundsTo_decimal (hm : 0 < m) (form : Representable m e) :
    RoundsTo m e ((decimal m e).1 * 10 ^ (decimal m e).2) := by
  unfold decimal
  obtain ⟨⟨c, p⟩, hfound⟩ :=
    exists_search (by decide : 17 < 18) (exists_pick (readsBack_floorAt hm form))
  rw [hfound]
  dsimp only
  rw [stripZeros_value, ← readsBack_iff hm]
  exact readsBack_of_search hfound

theorem decimal_pos (hm : 0 < m) (form : Representable m e) : 0 < (decimal m e).1 := by
  have hpos := (zpow_pos two_pos _).trans_le ((roundsTo_decimal hm form).zpow_le hm)
  rw [mul_pos_iff_of_pos_right (by positivity)] at hpos
  exact_mod_cast hpos

end Shortest

end Interconnect
