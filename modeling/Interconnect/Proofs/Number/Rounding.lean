/-
Rounding to binary numbers. A decimal is read as the number `m · 2 ^ e` whenever its value lies between
the midpoints to the neighbours of that number, and on a midpoint if `m` is even. The exponent follows
from the size of the value and the mantissa from what is left; only just below a power of two is the
exponent too small at first, and there the mantissa is rounded up to a power of two itself.
-/
import Interconnect.Number.Binary64
import Mathlib.Algebra.Order.Field.Power
import Mathlib.Algebra.Order.Field.Rat
import Mathlib.Tactic.FieldSimp
import Mathlib.Tactic.Linarith
import Mathlib.Tactic.Positivity
import Mathlib.Tactic.Ring

namespace Interconnect

namespace Binary64

/-! ## Whole numbers -/

/-- The whole number is nearest to the ratio, and it is even if another one is as near. -/
structure IsNearest (q : ℚ) (n : ℕ) : Prop where
  low : n - 1 / 2 < q ∨ n % 2 = 0 ∧ n - 1 / 2 = q
  high : q < n + 1 / 2 ∨ n % 2 = 0 ∧ q = n + 1 / 2

theorem isNearest_roundRatio (num : ℕ) {den : ℕ} (hd : 0 < den) :
    IsNearest (num / den) (roundRatio num den) := by
  have hden : (0 : ℚ) < den := by exact_mod_cast hd
  have hrest : num % den < den := Nat.mod_lt _ hd
  have hnum := Nat.div_add_mod' num den
  unfold roundRatio
  generalize num / den = q at hnum ⊢
  generalize num % den = r at hnum hrest ⊢
  -- the ratio is the quotient and the share of the remainder
  have hratio : (num : ℚ) / den = q + r / den := by
    rw [← hnum]
    push_cast
    field_simp
  have hnonneg : (0 : ℚ) ≤ r / den := by positivity
  have hone : (r : ℚ) / den < 1 := (div_lt_one hden).2 (by exact_mod_cast hrest)
  have hlow : (r : ℚ) / den < 1 / 2 ↔ 2 * r < den := by
    rw [div_lt_div_iff₀ hden two_pos, mul_comm, one_mul]
    exact_mod_cast Iff.rfl
  have hhigh : (1 : ℚ) / 2 < r / den ↔ den < 2 * r := by
    rw [div_lt_div_iff₀ two_pos hden, mul_comm, mul_one, mul_comm (r : ℚ)]
    exact_mod_cast Iff.rfl
  rw [hratio]
  generalize (r : ℚ) / den = x at hnonneg hone hlow hhigh ⊢
  dsimp only
  split
  · rename_i h
    have := hlow.2 h
    exact ⟨.inl (by linarith), .inl (by linarith)⟩
  · rename_i hge
    split
    · rename_i h
      have := hhigh.2 h
      exact ⟨.inl (by push_cast; linarith), .inl (by push_cast; linarith)⟩
    · rename_i hle
      have hx : x = 1 / 2 := le_antisymm (not_lt.1 (mt hhigh.1 hle)) (not_lt.1 (mt hlow.1 hge))
      split
      · rename_i heven
        exact ⟨.inl (by linarith), .inr ⟨heven, by rw [hx]⟩⟩
      · rename_i hodd
        exact ⟨.inr ⟨by omega, by push_cast; linarith⟩, .inl (by push_cast; linarith)⟩

theorem IsNearest.unique {q : ℚ} {n n' : ℕ} (h : IsNearest q n) (h' : IsNearest q n') : n = n' := by
  -- of two different ones, the smaller lies below the larger by one at least
  have hle : ∀ {n n' : ℕ}, IsNearest q n → IsNearest q n' → n ≤ n' := by
    intro n n' h h'
    by_contra hlt
    have hstep : (n' : ℚ) + 1 ≤ n := by exact_mod_cast Nat.lt_of_not_le hlt
    rcases h.low with hlow | ⟨heven, hlow⟩
    · rcases h'.high with hhigh | ⟨-, hhigh⟩ <;> linarith
    · rcases h'.high with hhigh | ⟨heven', hhigh⟩
      · linarith
      · -- both are as near, so they are neighbours and not both even
        have hnext : n = n' + 1 := by exact_mod_cast (by linarith : (n : ℚ) = n' + 1)
        omega
  exact Nat.le_antisymm (hle h h') (hle h' h)

/-! ## Exponents -/

theorem scaled_pos (num : ℕ) {den : ℕ} (hd : 0 < den) (e : ℤ) : 0 < (scaled num den e).2 := by
  unfold scaled
  split
  · exact Nat.mul_pos hd (Nat.pow_pos two_pos)
  · exact hd

theorem ratio_scaled (num den : ℕ) (e : ℤ) :
    ((scaled num den e).1 : ℚ) / (scaled num den e).2 = num / den / 2 ^ e := by
  unfold scaled
  split
  · rename_i he
    obtain ⟨n, rfl⟩ := Int.eq_ofNat_of_zero_le he
    simp [div_div]
  · rename_i he
    obtain ⟨n, rfl⟩ : ∃ n : ℕ, e = -n := ⟨(-e).toNat, by omega⟩
    simp [mul_div_right_comm]

theorem isNearest_scaled (num : ℕ) {den : ℕ} (hd : 0 < den) (e : ℤ) :
    IsNearest (num / den / 2 ^ e) (roundRatio (scaled num den e).1 (scaled num den e).2) := by
  rw [← ratio_scaled]
  exact isNearest_roundRatio _ (scaled_pos num hd e)

/-- The exponent at which the value has a mantissa of 53 bits, or the smallest one. -/
structure IsExponent (v : ℚ) (e : ℤ) : Prop where
  min_le : minExponent ≤ e
  lt : v < 2 ^ (e + 53)
  full : 2 ^ (e + 52) ≤ v ∨ e = minExponent

theorem IsExponent.unique {v : ℚ} {e e' : ℤ} (h : IsExponent v e) (h' : IsExponent v e') : e = e' := by
  have hle : ∀ {e e' : ℤ}, IsExponent v e → IsExponent v e' → e ≤ e' := by
    intro e e' h h'
    rcases h.full with hfull | hmin
    · have := (zpow_lt_zpow_iff_right₀ one_lt_two).1 (hfull.trans_lt h'.lt)
      omega
    · exact hmin ▸ h'.min_le
  exact le_antisymm (hle h h') (hle h' h)

/-- A ratio lies between the powers of two that the logarithms of its parts give. -/
theorem ratio_between_logs {num den : ℕ} (hn : 0 < num) (hd : 0 < den) :
    (2 : ℚ) ^ ((num.log2 : ℤ) - den.log2 - 1) < num / den ∧
      (num : ℚ) / den < 2 ^ ((num.log2 : ℤ) - den.log2 + 1) := by
  have hden : (0 : ℚ) < den := by exact_mod_cast hd
  have hn₁ : (2 : ℚ) ^ num.log2 ≤ num := by exact_mod_cast Nat.log2_self_le hn.ne'
  have hn₂ : (num : ℚ) < 2 ^ (num.log2 + 1) := by exact_mod_cast Nat.lt_log2_self
  have hd₁ : (2 : ℚ) ^ den.log2 ≤ den := by exact_mod_cast Nat.log2_self_le hd.ne'
  have hd₂ : (den : ℚ) < 2 ^ (den.log2 + 1) := by exact_mod_cast Nat.lt_log2_self
  have hlow : (2 : ℚ) ^ ((num.log2 : ℤ) - den.log2 - 1) = 2 ^ num.log2 / 2 ^ (den.log2 + 1) := by
    rw [sub_sub, zpow_sub₀ two_ne_zero]
    norm_cast
  have hhigh : (2 : ℚ) ^ ((num.log2 : ℤ) - den.log2 + 1) = 2 ^ (num.log2 + 1) / 2 ^ den.log2 := by
    rw [sub_add_eq_add_sub, zpow_sub₀ two_ne_zero]
    norm_cast
  rw [hlow, hhigh]
  constructor
  · exact div_lt_div₀' hn₁ hd₂ (by positivity) hden
  · exact div_lt_div₀ hn₂ hd₁ (by positivity) (by positivity)

theorem isExponent_exponentOf {num den : ℕ} (hn : 0 < num) (hd : 0 < den) :
    IsExponent (num / den) (exponentOf num den) := by
  obtain ⟨hlow, hhigh⟩ := ratio_between_logs hn hd
  unfold exponentOf
  dsimp only
  generalize (num.log2 : ℤ) - den.log2 = guess at hlow hhigh ⊢
  -- the logarithm of the ratio is the guess, or one less
  have hlog : ∃ log : ℤ, (if (scaled num den guess).1 < (scaled num den guess).2 then guess - 1
      else guess) = log ∧ (2 : ℚ) ^ log ≤ num / den ∧ (num : ℚ) / den < 2 ^ (log + 1) := by
    have hpow : (0 : ℚ) < 2 ^ guess := by positivity
    have hpos : (0 : ℚ) < (scaled num den guess).2 := by exact_mod_cast scaled_pos num hd guess
    have hlt : (scaled num den guess).1 < (scaled num den guess).2 ↔ (num : ℚ) / den < 2 ^ guess := by
      rw [← div_lt_one hpow, ← ratio_scaled, div_lt_one hpos]
      exact_mod_cast Iff.rfl
    split
    · rename_i h
      exact ⟨_, rfl, hlow.le, by rw [sub_add_cancel]; exact hlt.1 h⟩
    · rename_i h
      exact ⟨_, rfl, not_lt.1 (mt hlt.2 h), hhigh⟩
  obtain ⟨log, heq, hlow, hhigh⟩ := hlog
  rw [heq]
  refine ⟨le_max_right _ _, hhigh.trans_le (zpow_le_zpow_right₀ one_le_two ?_), ?_⟩
  · have := le_max_left (log - 52) minExponent
    omega
  · rcases max_choice (log - 52) minExponent with h | h
    · rw [h, sub_add_cancel]
      exact .inl hlow
    · exact .inr h

/-! ## Numbers -/

/-- How far the midpoint to the next smaller number lies below `m · 2 ^ e`, in steps of `2 ^ e`. Below a
power of two the steps are half as wide. -/
def gap (m : ℕ) (e : ℤ) : ℚ := if m = Nat.pow 2 52 ∧ minExponent < e then 1 / 4 else 1 / 2

/-- The value lies between the midpoints to the neighbours of `m · 2 ^ e`; on a midpoint only if the
mantissa is even. -/
structure RoundsTo (m : ℕ) (e : ℤ) (v : ℚ) : Prop where
  low : m - gap m e < v / 2 ^ e ∨ m % 2 = 0 ∧ m - gap m e = v / 2 ^ e
  high : v / 2 ^ e < m + 1 / 2 ∨ m % 2 = 0 ∧ v / 2 ^ e = m + 1 / 2

theorem gap_le (m : ℕ) (e : ℤ) : gap m e ≤ 1 / 2 := by
  unfold gap
  split <;> norm_num

variable {m : ℕ} {e : ℤ} {v : ℚ}

namespace RoundsTo

theorem low_le (h : RoundsTo m e v) : m - gap m e ≤ v / 2 ^ e :=
  h.low.elim le_of_lt fun h => h.2.le

theorem le_high (h : RoundsTo m e v) : v / 2 ^ e ≤ m + 1 / 2 :=
  h.high.elim le_of_lt fun h => h.2.le

theorem lt_zpow (h : RoundsTo m e v) (form : Representable m e) : v < 2 ^ (e + 53) := by
  have hmantissa : (m : ℚ) + 1 ≤ 2 ^ 53 := by exact_mod_cast form.mantissa_lt
  have hhigh := h.le_high
  rw [zpow_add₀ two_ne_zero, ← div_lt_iff₀' (by positivity)]
  norm_cast
  push_cast
  linarith

theorem zpow_le (h : RoundsTo m e v) (hm : 0 < m) : 2 ^ (e - 1) ≤ v := by
  have hmantissa : (1 : ℚ) ≤ m := by exact_mod_cast hm
  have hlow := h.low_le
  have hgap := gap_le m e
  rw [zpow_sub_one₀ two_ne_zero, ← le_div_iff₀' (by positivity)]
  linarith

/-- The value has the exponent of the number, and its mantissa is the nearest; or the number is a power of
two and the value lies below it, where the mantissa that is nearest has one bit too many. -/
theorem exponent_cases (h : RoundsTo m e v) (form : Representable m e) :
    (IsExponent v e ∧ IsNearest (v / 2 ^ e) m) ∨
      m = Nat.pow 2 52 ∧ IsExponent v (e - 1) ∧ IsNearest (v / 2 ^ (e - 1)) (Nat.pow 2 53) := by
  have hstep : (0 : ℚ) < 2 ^ e := by positivity
  by_cases hfull : 2 ^ (e + 52) ≤ v ∨ e = minExponent
  · refine .inl ⟨⟨form.min_le, h.lt_zpow form, hfull⟩, ?_, h.high⟩
    have hlow := h.low
    unfold gap at hlow
    split at hlow
    · exact .inl (by linarith [hlow.elim le_of_lt fun h => h.2.le])
    · exact hlow
  · obtain ⟨hbelow, hmin⟩ := not_or.1 hfull
    have hbelow : v / 2 ^ e < 2 ^ 52 := by
      rw [not_le, zpow_add₀ two_ne_zero, ← div_lt_iff₀' hstep] at hbelow
      exact_mod_cast hbelow
    have hlow := h.low_le
    have hgap := gap_le m e
    -- the mantissa has all its bits, and it is too small for more than the first one
    have hm : m = Nat.pow 2 52 := by
      refine Nat.le_antisymm ?_ (form.full.resolve_right hmin)
      have hless : (m : ℚ) < 2 ^ 52 + 1 := by linarith
      exact Nat.lt_succ_iff.1 (by exact_mod_cast hless)
    have hquarter : gap m e = 1 / 4 := if_pos ⟨hm, lt_of_le_of_ne form.min_le (Ne.symm hmin)⟩
    have hpower : (m : ℚ) = 2 ^ 52 := by
      rw [hm]
      norm_num
    have hdouble : v / 2 ^ (e - 1) = 2 * (v / 2 ^ e) := by
      rw [zpow_sub_one₀ two_ne_zero]
      field_simp
    refine .inr ⟨hm, ⟨?_, ?_, .inl ?_⟩, ?_, ?_⟩
    · have := form.min_le
      omega
    · -- the value itself is below the power of two, and more than half of it
      rw [show e - 1 + 53 = e + 52 by ring, zpow_add₀ two_ne_zero, ← div_lt_iff₀' hstep]
      exact_mod_cast hbelow
    · rw [show e - 1 + 52 = e + 51 by ring, zpow_add₀ two_ne_zero, ← le_div_iff₀' hstep]
      norm_cast
      push_cast
      linarith
    · rw [hdouble]
      push_cast
      rcases h.low with h | ⟨-, h⟩
      · exact .inl (by linarith)
      · exact .inr ⟨rfl, by linarith⟩
    · rw [hdouble]
      push_cast
      exact .inl (by linarith)

end RoundsTo

/-- The number is what a ratio is rounded to if the ratio lies between the midpoints to its neighbours. -/
theorem ofRatio_eq {num den : ℕ} (negative : Bool) (hd : 0 < den) (hm : 0 < m)
    (form : Representable m e) (h : RoundsTo m e (num / den)) :
    ofRatio negative num den = finite negative m e form := by
  have hn : 0 < num := by
    have hpos := (zpow_pos two_pos _).trans_le (h.zpow_le hm)
    rw [div_pos_iff_of_pos_right (by exact_mod_cast hd)] at hpos
    exact_mod_cast hpos
  have hexponent := isExponent_exponentOf hn hd
  have hnearest := isNearest_scaled num hd (exponentOf num den)
  unfold ofRatio
  rw [if_neg hn.ne']
  dsimp only
  rcases h.exponent_cases form with ⟨he, hmantissa⟩ | ⟨rfl, he, hmantissa⟩
  · rw [hexponent.unique he] at hnearest ⊢
    rw [hnearest.unique hmantissa, if_neg form.mantissa_lt.ne, dif_pos form]
  · rw [hexponent.unique he] at hnearest ⊢
    -- the mantissa is carried into the exponent
    rw [hnearest.unique hmantissa, if_pos rfl]
    simp only [sub_add_cancel]
    rw [dif_pos form]

/-- Nothing but a mantissa with one bit too many and an exponent that is too large is without a form. -/
theorem representable_iff (he : IsExponent v e) {n : ℕ} (hn : IsNearest (v / 2 ^ e) n)
    (hcarry : n ≠ Nat.pow 2 53) : Representable n e ↔ e ≤ maxExponent := by
  have hstep : (0 : ℚ) < 2 ^ e := by positivity
  have hlow := hn.low.elim le_of_lt fun h => h.2.le
  have hhigh := hn.high.elim le_of_lt fun h => h.2.le
  refine ⟨Representable.le_max, fun hmax => ⟨?_, he.min_le, hmax, he.full.imp_left fun hfull => ?_⟩⟩
  · have hlt : v / 2 ^ e < 2 ^ 53 := by
      have hlt := he.lt
      rw [zpow_add₀ two_ne_zero, ← div_lt_iff₀' hstep] at hlt
      exact_mod_cast hlt
    have hless : (n : ℚ) < 2 ^ 53 + 1 := by linarith
    exact lt_of_le_of_ne (Nat.lt_succ_iff.1 (by exact_mod_cast hless)) hcarry
  · rw [zpow_add₀ two_ne_zero, ← le_div_iff₀' hstep] at hfull
    have hfull : (2 : ℚ) ^ 52 ≤ v / 2 ^ e := by exact_mod_cast hfull
    have hmore : (2 : ℚ) ^ 52 < n + 1 := by linarith
    exact Nat.lt_succ_iff.1 (by exact_mod_cast hmore)

/-- The midpoint above the largest number with an exponent is reached with a larger one, or by a carry. -/
theorem midpoint_le_iff (he : IsExponent v e) {n : ℕ} (hn : IsNearest (v / 2 ^ e) n) {top : ℤ}
    (htop : minExponent ≤ top) :
    (2 ^ 53 - 1 / 2) * 2 ^ top ≤ v ↔ top < e ∨ e = top ∧ n = Nat.pow 2 53 := by
  have hstep : (0 : ℚ) < 2 ^ top := by positivity
  have hcarry : ((Nat.pow 2 53 : ℕ) : ℚ) = 2 ^ 53 := by norm_num
  constructor
  · intro hle
    rcases lt_trichotomy e top with hlt | rfl | hgt
    · have hpow : (2 : ℚ) ^ (e + 53) ≤ 2 ^ (52 : ℤ) * 2 ^ top := by
        rw [← zpow_add₀ two_ne_zero]
        exact zpow_le_zpow_right₀ one_le_two (by omega)
      norm_num at hpow hle
      linarith [he.lt]
    · have hlt := he.lt
      rw [zpow_add₀ two_ne_zero, ← div_lt_iff₀' hstep] at hlt
      rw [← le_div_iff₀ hstep] at hle
      refine .inr ⟨rfl, hn.unique ⟨?_, .inl ?_⟩⟩
      · rw [hcarry]
        exact (lt_or_eq_of_le hle).imp_right fun heq => ⟨rfl, heq⟩
      · rw [hcarry]
        have hlt : v / 2 ^ e < 2 ^ 53 := by exact_mod_cast hlt
        linarith
    · exact .inl hgt
  · rintro (hgt | ⟨rfl, rfl⟩)
    · have hpow : (2 : ℚ) ^ (53 : ℤ) * 2 ^ top ≤ 2 ^ (e + 52) := by
        rw [← zpow_add₀ two_ne_zero]
        exact zpow_le_zpow_right₀ one_le_two (by omega)
      have hfull := he.full.resolve_right (htop.trans_lt hgt).ne'
      norm_num at hpow ⊢
      linarith
    · rw [← le_div_iff₀ hstep, ← hcarry]
      exact hn.low.elim le_of_lt fun h => h.2.le

/-- A ratio is rounded to infinity exactly if it reaches the midpoint above the largest number. -/
theorem ofRatio_eq_infinity_iff {num den : ℕ} (negative : Bool) (hn : 0 < num) (hd : 0 < den) :
    ofRatio negative num den = infinity negative ↔
      ((2 ^ 53 - 1 / 2) * 2 ^ maxExponent : ℚ) ≤ num / den := by
  have he := isExponent_exponentOf hn hd
  have hnearest := isNearest_scaled num hd (exponentOf num den)
  have hinfinite : ∀ {n : ℕ} {e : ℤ},
      (if form : Representable n e then finite negative n e form else infinity negative) =
        infinity negative ↔ ¬ Representable n e := by
    intro n e
    split <;> simp_all
  rw [midpoint_le_iff he hnearest (by decide)]
  unfold ofRatio
  rw [if_neg hn.ne']
  dsimp only
  generalize exponentOf num den = e at he hnearest ⊢
  generalize roundRatio (scaled num den e).1 (scaled num den e).2 = n at hnearest ⊢
  by_cases hcarry : n = Nat.pow 2 53
  · have hform : Representable (Nat.pow 2 52) (e + 1) ↔ e + 1 ≤ maxExponent :=
      ⟨Representable.le_max,
        fun hmax => ⟨by decide, he.min_le.trans (Int.le_add_one le_rfl), hmax, .inl le_rfl⟩⟩
    rw [if_pos hcarry, hinfinite, hform]
    omega
  · rw [if_neg hcarry, hinfinite, representable_iff he hnearest hcarry]
    omega

/-! ## Decimals -/

theorem digitCount_pos (n : ℕ) : 0 < digitCount n := List.length_pos_of_ne_nil Nat.toDigits_ne_nil

theorem lt_pow_digitCount (n : ℕ) : n < 10 ^ digitCount n :=
  (Nat.length_toDigits_le_iff (by norm_num) (digitCount_pos n)).1 le_rfl

theorem pow_digitCount_le {n : ℕ} (hn : 0 < n) : 10 ^ (digitCount n - 1) ≤ n := by
  rcases Nat.eq_zero_or_pos (digitCount n - 1) with h | h
  · rw [h]
    exact hn
  · by_contra hlt
    have := (Nat.length_toDigits_le_iff (by norm_num) h).2 (Nat.lt_of_not_le hlt)
    have hpos := digitCount_pos n
    unfold digitCount at *
    omega

end Binary64

/-- The value of a decimal, apart from its sign. -/
def Decimal.value (d : Decimal) : ℚ := d.digits * 10 ^ d.exponent

namespace Binary64

variable {d : Decimal}

/-- The size of a decimal is the power of ten above it. -/
theorem value_lt_zpow_size (d : Decimal) : d.value < 10 ^ (d.exponent + digitCount d.digits) := by
  have hlt : (d.digits : ℚ) < 10 ^ digitCount d.digits := by exact_mod_cast lt_pow_digitCount d.digits
  rw [Decimal.value, zpow_add₀ (by norm_num), zpow_natCast, mul_comm]
  exact mul_lt_mul_of_pos_left hlt (by positivity)

theorem zpow_size_le_value (hd : 0 < d.digits) :
    10 ^ (d.exponent + digitCount d.digits - 1) ≤ d.value := by
  have hle : (10 : ℚ) ^ (digitCount d.digits - 1) ≤ d.digits := by exact_mod_cast pow_digitCount_le hd
  have hpos := digitCount_pos d.digits
  rw [show d.exponent + digitCount d.digits - 1 = d.exponent + (digitCount d.digits - 1 : ℕ) by omega,
    Decimal.value, zpow_add₀ (by norm_num), zpow_natCast, mul_comm]
  exact mul_le_mul_of_nonneg_right hle (by positivity)

/-- All numbers but zero lie well within the decimals that are looked at closely. -/
theorem two_zpow_lt_ten_zpow : (2 : ℚ) ^ (1075 : ℤ) < 10 ^ (400 : ℤ) := by
  have hlt : 2 ^ 1075 < 10 ^ 400 := by decide +kernel
  exact_mod_cast hlt

theorem ten_zpow_lt_two_zpow : (10 : ℚ) ^ (-400 : ℤ) < 2 ^ (-1075 : ℤ) := by
  rw [zpow_neg, zpow_neg]
  exact inv_strictAnti₀ (by positivity) two_zpow_lt_ten_zpow

/-- What is too small to be looked at lies below all numbers, and what is too large above them. -/
theorem value_lt_of_size_lt (h : d.exponent + digitCount d.digits < -400) :
    d.value < 2 ^ (-1075 : ℤ) :=
  ((value_lt_zpow_size d).trans (zpow_lt_zpow_right₀ (by norm_num) h)).trans ten_zpow_lt_two_zpow

theorem lt_value_of_lt_size (hd : 0 < d.digits) (h : 400 < d.exponent + digitCount d.digits) :
    2 ^ (1075 : ℤ) < d.value :=
  two_zpow_lt_ten_zpow.trans_le
    ((zpow_le_zpow_right₀ (by norm_num) (by omega)).trans (zpow_size_le_value hd))

/-- A decimal of moderate size is rounded as the ratio that it is. -/
theorem exists_ofRatio_of_size (hdigits : 0 < d.digits)
    (hsmall : ¬ d.exponent + digitCount d.digits < -400)
    (hlarge : ¬ 400 < d.exponent + digitCount d.digits) :
    ∃ num den : ℕ, 0 < num ∧ 0 < den ∧ (num / den : ℚ) = d.value ∧
      ofDecimal d = ofRatio d.negative num den := by
  unfold ofDecimal Decimal.value
  dsimp only
  rw [if_neg (by simpa [hdigits.ne'] using hsmall), if_neg hlarge]
  split
  · rename_i he
    obtain ⟨n, hn⟩ := Int.eq_ofNat_of_zero_le he
    refine ⟨_, _, Nat.mul_pos hdigits (Nat.pow_pos (by norm_num)), one_pos, ?_, rfl⟩
    rw [hn]
    simp
  · rename_i he
    obtain ⟨n, hn⟩ : ∃ n : ℕ, d.exponent = -n := ⟨(-d.exponent).toNat, by omega⟩
    refine ⟨_, _, hdigits, Nat.pow_pos (by norm_num), ?_, rfl⟩
    rw [hn]
    simp [div_eq_mul_inv]

/-- A decimal is read as the number if its value lies between the midpoints to the neighbours of the
number. -/
theorem ofDecimal_eq (hm : 0 < m) (form : Representable m e) (h : RoundsTo m e d.value) :
    ofDecimal d = finite d.negative m e form := by
  have hpos := (zpow_pos two_pos _).trans_le (h.zpow_le hm)
  have hdigits : 0 < d.digits := by
    rw [Decimal.value, mul_pos_iff_of_pos_right (by positivity)] at hpos
    exact_mod_cast hpos
  have hlow : (2 : ℚ) ^ (-1075 : ℤ) ≤ d.value :=
    (zpow_le_zpow_right₀ one_le_two (sub_le_sub_right form.min_le 1)).trans (h.zpow_le hm)
  have hhigh : d.value < 2 ^ (1075 : ℤ) := by
    refine (h.lt_zpow form).trans_le (zpow_le_zpow_right₀ one_le_two ?_)
    have hmax : e ≤ 971 := form.le_max
    omega
  have hsmall : ¬ d.exponent + digitCount d.digits < -400 :=
    fun hsize => absurd (value_lt_of_size_lt hsize) (not_lt.2 hlow)
  have hlarge : ¬ 400 < d.exponent + digitCount d.digits :=
    fun hsize => absurd (lt_value_of_lt_size hdigits hsize) (not_lt.2 hhigh.le)
  obtain ⟨num, den, -, hden, hvalue, hratio⟩ := exists_ofRatio_of_size hdigits hsmall hlarge
  rw [hratio]
  exact ofRatio_eq _ hden hm form (hvalue ▸ h)

/-- A decimal is out of range exactly if it reaches the midpoint above the largest number. -/
theorem ofDecimal_eq_infinity_iff (d : Decimal) :
    ofDecimal d = infinity d.negative ↔ (2 ^ 53 - 1 / 2) * 2 ^ maxExponent ≤ d.value := by
  have hlow : (2 : ℚ) ^ (-1075 : ℤ) < (2 ^ 53 - 1 / 2) * 2 ^ maxExponent := by
    have hpow : (2 : ℚ) ^ (-1075 : ℤ) < 2 ^ maxExponent := zpow_lt_zpow_right₀ one_lt_two (by decide)
    exact hpow.trans_le (le_mul_of_one_le_left (by positivity) (by norm_num))
  have hhigh : (2 ^ 53 - 1 / 2) * 2 ^ maxExponent ≤ (2 : ℚ) ^ (1075 : ℤ) := by
    have hpow : (2 : ℚ) ^ (53 : ℤ) * 2 ^ maxExponent ≤ 2 ^ (1075 : ℤ) := by
      rw [← zpow_add₀ two_ne_zero]
      exact zpow_le_zpow_right₀ one_le_two (by decide)
    exact (mul_le_mul_of_nonneg_right (by norm_num) (by positivity)).trans hpow
  by_cases hzero : d.digits = 0
  · have hvalue : d.value = 0 := by simp [Decimal.value, hzero]
    rw [hvalue]
    simpa [ofDecimal, hzero, zero] using (zpow_pos two_pos _).trans hlow
  · have hdigits := Nat.pos_of_ne_zero hzero
    by_cases hsmall : d.exponent + digitCount d.digits < -400
    · have hlt := (value_lt_of_size_lt hsmall).trans hlow
      simpa [ofDecimal, hsmall, zero] using hlt
    · by_cases hlarge : 400 < d.exponent + digitCount d.digits
      · have hle := hhigh.trans (lt_value_of_lt_size hdigits hlarge).le
        simpa [ofDecimal, hsmall, hzero, hlarge] using hle
      · obtain ⟨num, den, hnum, hden, hvalue, hratio⟩ := exists_ofRatio_of_size hdigits hsmall hlarge
        rw [hratio, ofRatio_eq_infinity_iff _ hnum hden, hvalue]

end Binary64

end Interconnect
