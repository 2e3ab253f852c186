import Mathlib.Algebra.Order.Floor.Ring
import Mathlib.Algebra.Order.Ring.Rat
import Mathlib.Data.Int.Log
import Mathlib.Data.Rat.Floor
import Mathlib.Tactic

namespace rounding

/-- The integer nearest to `q`; a value halfway between two integers goes to
the even one. -/
def roundEven (q : ℚ) : ℤ :=
  if q - ⌊q⌋ < 1 / 2 then ⌊q⌋
  else if 1 / 2 < q - ⌊q⌋ then ⌊q⌋ + 1
  else if Even ⌊q⌋ then ⌊q⌋ else ⌊q⌋ + 1

/-- The exact threshold of `roundEven`. Every other fact about it, including
monotonicity and exactness on the integers, follows from this one. -/
theorem roundEven_le_iff (q : ℚ) (k : ℤ) :
    roundEven q ≤ k ↔ q < k + 1 / 2 ∨ (q = k + 1 / 2 ∧ Even k) := by
  have hfloor := Int.floor_le q
  have hlt := Int.lt_floor_add_one q
  unfold roundEven
  rcases lt_trichotomy ⌊q⌋ k with hbelow | heq | habove
  · have hcast : ((⌊q⌋ : ℤ) : ℚ) + 1 ≤ k := by exact_mod_cast hbelow
    have hleft : q < k + 1 / 2 := by linarith
    simp only [hleft, true_or, iff_true]
    split_ifs <;> omega
  · subst heq
    by_cases hlow : q - ⌊q⌋ < 1 / 2
    · have hleft : q < ⌊q⌋ + 1 / 2 := by linarith
      rw [if_pos hlow]
      exact iff_of_true le_rfl (Or.inl hleft)
    · by_cases hhigh : 1 / 2 < q - ⌊q⌋
      · have hnot : ¬ q < ⌊q⌋ + 1 / 2 := by linarith
        have hne : q ≠ ⌊q⌋ + 1 / 2 := by
          intro h
          linarith
        rw [if_neg hlow, if_pos hhigh]
        exact iff_of_false (by omega) (by simp only [hnot, hne, false_and, or_self, not_false_iff])
      · have htie : q = ⌊q⌋ + 1 / 2 := by linarith
        have hnot : ¬ q < ⌊q⌋ + 1 / 2 := by linarith
        rw [if_neg hlow, if_neg hhigh]
        by_cases heven : Even ⌊q⌋
        · rw [if_pos heven]
          exact iff_of_true le_rfl (Or.inr ⟨htie, heven⟩)
        · rw [if_neg heven]
          exact iff_of_false (by omega) (by simp only [hnot, heven, and_false, or_self, not_false_iff])
  · have hcast : (k : ℚ) + 1 ≤ ⌊q⌋ := by exact_mod_cast habove
    have hnot : ¬ q < k + 1 / 2 := by linarith
    have hne : q ≠ k + 1 / 2 := by
      intro h
      linarith
    simp only [hnot, hne, false_and, or_self, iff_false, not_le]
    split_ifs <;> omega

theorem roundEven_mono {a b : ℚ} (h : a ≤ b) : roundEven a ≤ roundEven b := by
  have hb := (roundEven_le_iff b (roundEven b)).mp le_rfl
  rw [roundEven_le_iff]
  rcases hb with hlt | ⟨heq, heven⟩
  · exact Or.inl (lt_of_le_of_lt h hlt)
  · rcases lt_or_eq_of_le h with hlt | rfl
    · exact Or.inl (heq ▸ hlt)
    · exact Or.inr ⟨heq, heven⟩

@[simp]
theorem roundEven_intCast (k : ℤ) : roundEven (k : ℚ) = k := by
  simp [roundEven]

theorem le_roundEven {q : ℚ} {k : ℤ} (h : (k : ℚ) ≤ q) : k ≤ roundEven q := by
  simpa using roundEven_mono h

theorem roundEven_le {q : ℚ} {k : ℤ} (h : q ≤ k) : roundEven q ≤ k := by
  simpa using roundEven_mono h

/-- Exponent of the last place of a binary float with a `p`-bit significand
in the binade of `x`. -/
def ulpExp (p : ℕ) (x : ℚ) : ℤ := Int.log 2 x - (p - 1)

/-- A nonnegative rational rounded to a binary float with a `p`-bit
significand, round to nearest even, with unbounded exponent range. -/
def toFloat (p : ℕ) (x : ℚ) : ℚ := roundEven (x / 2 ^ ulpExp p x) * 2 ^ ulpExp p x

theorem two_zpow_pos (e : ℤ) : (0 : ℚ) < 2 ^ e := zpow_pos (by norm_num) e

/-- A positive value lies in the binade its exponent names. -/
theorem ulpExp_bounds (p : ℕ) {x : ℚ} (hx : 0 < x) :
    (2 : ℚ) ^ ((p : ℤ) - 1) * 2 ^ ulpExp p x ≤ x ∧ x < 2 ^ (p : ℤ) * 2 ^ ulpExp p x := by
  have hlow := Int.zpow_log_le_self (b := 2) one_lt_two hx
  have hhigh := Int.lt_zpow_succ_log_self (b := 2) one_lt_two x
  rw [← zpow_add₀ two_ne_zero, ← zpow_add₀ two_ne_zero]
  have hsame : (p : ℤ) - 1 + ulpExp p x = Int.log 2 x := by simp [ulpExp]
  have hnext : (p : ℤ) + ulpExp p x = Int.log 2 x + 1 := by
    simp only [ulpExp]
    ring
  rw [hsame, hnext]
  exact ⟨by exact_mod_cast hlow, by exact_mod_cast hhigh⟩

theorem toFloat_pos {p : ℕ} (hp : 1 ≤ p) {x : ℚ} (hx : 0 < x) : 0 < toFloat p x := by
  have hlow := (ulpExp_bounds p hx).1
  have hone : (1 : ℚ) ≤ 2 ^ ((p : ℤ) - 1) := one_le_zpow₀ (by norm_num) (by omega)
  have hunit := two_zpow_pos (ulpExp p x)
  have hquotient : ((1 : ℤ) : ℚ) ≤ x / 2 ^ ulpExp p x := by
    rw [le_div_iff₀ hunit, Int.cast_one]
    exact (mul_le_mul_of_nonneg_right hone hunit.le).trans hlow
  have hround : 1 ≤ roundEven (x / 2 ^ ulpExp p x) := le_roundEven hquotient
  exact mul_pos (by exact_mod_cast hround) hunit

/-- Rounding against a representable bound. The significand `m` is normalized,
so the bound is a float; the rounded value stays at or below it exactly when
the argument does not pass the midpoint to the next float. -/
theorem toFloat_le_iff {p : ℕ} (hp : 1 ≤ p) {x : ℚ} (hx : 0 < x) {m : ℤ} (e : ℤ)
    (hlow : 2 ^ (p - 1) ≤ m) (hhigh : m < 2 ^ p) :
    toFloat p x ≤ m * 2 ^ e ↔
      x < (m + 1 / 2) * 2 ^ e ∨ (x = (m + 1 / 2) * 2 ^ e ∧ Even m) := by
  obtain ⟨hbinade, htop⟩ := ulpExp_bounds p hx
  have hunit := two_zpow_pos (ulpExp p x)
  have hstep := two_zpow_pos e
  have hlowQ : (2 : ℚ) ^ ((p : ℤ) - 1) ≤ m := by
    have hexp : ((p : ℤ) - 1) = ((p - 1 : ℕ) : ℤ) := by omega
    rw [hexp, zpow_natCast]
    exact_mod_cast hlow
  have hhighQ : (m : ℚ) + 1 ≤ 2 ^ (p : ℤ) := by
    rw [zpow_natCast]
    exact_mod_cast hhigh
  have hdouble : (2 : ℚ) ^ (p : ℤ) = 2 ^ ((p : ℤ) - 1) * 2 := by
    rw [← zpow_add_one₀ two_ne_zero]
    ring_nf
  -- The three cases compare the binade of the argument with that of the bound.
  rcases lt_trichotomy (ulpExp p x) e with hbelow | heq | habove
  · have hgap : (2 : ℚ) ^ (ulpExp p x) * 2 ≤ 2 ^ e := by
      rw [← zpow_add_one₀ two_ne_zero]
      exact zpow_le_zpow_right₀ (by norm_num) (by omega)
    have hcap : 2 ^ (p : ℤ) * (2 : ℚ) ^ ulpExp p x ≤ m * 2 ^ e := by
      calc 2 ^ (p : ℤ) * (2 : ℚ) ^ ulpExp p x
          = 2 ^ ((p : ℤ) - 1) * (2 ^ ulpExp p x * 2) := by rw [hdouble]; ring
        _ ≤ 2 ^ ((p : ℤ) - 1) * 2 ^ e := by gcongr
        _ ≤ m * 2 ^ e := by gcongr
    have hround : toFloat p x ≤ 2 ^ (p : ℤ) * 2 ^ ulpExp p x := by
      unfold toFloat
      gcongr
      have hq : x / 2 ^ ulpExp p x ≤ ((2 ^ p : ℤ) : ℚ) := by
        rw [div_le_iff₀ hunit]
        push_cast
        rw [← zpow_natCast]
        exact htop.le
      have := roundEven_le hq
      rw [zpow_natCast]
      exact_mod_cast this
    have hx' : x < (m + 1 / 2) * 2 ^ e := by nlinarith
    simp only [hx', true_or, iff_true]
    exact hround.trans hcap
  · subst heq
    unfold toFloat
    rw [mul_le_mul_iff_left₀ hunit, Int.cast_le, roundEven_le_iff, div_lt_iff₀ hunit,
      div_eq_iff hunit.ne']
  · have hgap : (2 : ℚ) ^ e * 2 ≤ 2 ^ ulpExp p x := by
      rw [← zpow_add_one₀ two_ne_zero]
      exact zpow_le_zpow_right₀ (by norm_num) (by omega)
    have hfloor : (m + 1) * (2 : ℚ) ^ e ≤ 2 ^ ((p : ℤ) - 1) * 2 ^ ulpExp p x := by
      calc (m + 1) * (2 : ℚ) ^ e ≤ 2 ^ (p : ℤ) * 2 ^ e := by gcongr
        _ = 2 ^ ((p : ℤ) - 1) * (2 ^ e * 2) := by rw [hdouble]; ring
        _ ≤ 2 ^ ((p : ℤ) - 1) * 2 ^ ulpExp p x := by gcongr
    have hround : 2 ^ ((p : ℤ) - 1) * 2 ^ ulpExp p x ≤ toFloat p x := by
      unfold toFloat
      gcongr
      have hexp : ((p : ℤ) - 1) = ((p - 1 : ℕ) : ℤ) := by omega
      have hq : ((2 ^ (p - 1) : ℤ) : ℚ) ≤ x / 2 ^ ulpExp p x := by
        rw [le_div_iff₀ hunit]
        push_cast
        rw [← zpow_natCast, ← hexp]
        exact hbinade
      have := le_roundEven hq
      rw [hexp, zpow_natCast]
      exact_mod_cast this
    have hnot : ¬ x < (m + 1 / 2) * 2 ^ e := by nlinarith
    have hne : x ≠ (m + 1 / 2) * 2 ^ e := by
      intro h
      nlinarith
    simp only [hnot, hne, false_and, or_self, iff_false, not_le]
    nlinarith

/-- The last place of a natural number with more than `p` bits. -/
theorem ulpExp_natCast {p n : ℕ} (hp : 1 ≤ p) (hn : 2 ^ (p - 1) ≤ n) :
    ulpExp p (n : ℚ) = ((Nat.log 2 n - (p - 1) : ℕ) : ℤ) := by
  have hlog : p - 1 ≤ Nat.log 2 n := Nat.le_log_of_pow_le one_lt_two hn
  simp only [ulpExp, Int.log_natCast]
  omega

/-- A natural number is rounded to a multiple of its last place. -/
theorem toFloat_natCast {p n : ℕ} (hp : 1 ≤ p) (hn : 2 ^ (p - 1) ≤ n) :
    toFloat p (n : ℚ) =
      ((roundEven ((n : ℚ) / (2 ^ (Nat.log 2 n - (p - 1)) : ℕ)) *
        (2 ^ (Nat.log 2 n - (p - 1)) : ℕ) : ℤ) : ℚ) := by
  unfold toFloat
  rw [ulpExp_natCast hp hn, zpow_natCast]
  push_cast
  rfl

/-- Natural numbers of at most `p` bits are floats already. -/
theorem toFloat_of_lt {p n : ℕ} (hpos : 0 < n) (hn : n < 2 ^ p) :
    toFloat p (n : ℚ) = n := by
  have hlog : Nat.log 2 n < p := Nat.log_lt_of_lt_pow hpos.ne' hn
  have hexp : ulpExp p (n : ℚ) = -((p - 1 - Nat.log 2 n : ℕ) : ℤ) := by
    simp only [ulpExp, Int.log_natCast]
    omega
  unfold toFloat
  rw [hexp, zpow_neg, zpow_natCast, div_inv_eq_mul]
  have hint : (n : ℚ) * 2 ^ (p - 1 - Nat.log 2 n) =
      ((n * 2 ^ (p - 1 - Nat.log 2 n) : ℤ) : ℚ) := by push_cast; rfl
  rw [hint, roundEven_intCast]
  push_cast
  field_simp

theorem toFloat_zero (p : ℕ) : toFloat p 0 = 0 := by
  have hzero : roundEven 0 = 0 := roundEven_intCast 0
  rw [toFloat, zero_div, hzero, Int.cast_zero, zero_mul]

/-- At least half of the value is kept. -/
theorem half_le_toFloat {p : ℕ} (hp : 1 ≤ p) {x : ℚ} (hx : 0 < x) : x / 2 ≤ toFloat p x := by
  have hunit := two_zpow_pos (ulpExp p x)
  have hone : (1 : ℚ) ≤ 2 ^ ((p : ℤ) - 1) := one_le_zpow₀ (by norm_num) (by omega)
  have hlow := (ulpExp_bounds p hx).1
  have hquotient : 1 ≤ x / 2 ^ ulpExp p x := by
    rw [one_le_div₀ hunit]
    nlinarith
  have hround : x / 2 ^ ulpExp p x ≤ roundEven (x / 2 ^ ulpExp p x) + 1 / 2 := by
    rcases (roundEven_le_iff (x / 2 ^ ulpExp p x) _).mp le_rfl with hlt | ⟨heq, -⟩
    · exact hlt.le
    · exact heq.le
  have hhalf : x / 2 ^ ulpExp p x / 2 ≤ roundEven (x / 2 ^ ulpExp p x) := by linarith
  calc x / 2 = x / 2 ^ ulpExp p x / 2 * 2 ^ ulpExp p x := by field_simp
    _ ≤ toFloat p x := mul_le_mul_of_nonneg_right hhalf hunit.le

/-- The last place of a quotient by `d` of a number of at most `p` bits is below `2 / d`. -/
theorem unit_mul_lt {p n d : ℕ} (hp : 1 ≤ p) (hd : 0 < d) (hpos : 0 < n) (hn : n < 2 ^ p) :
    (2 : ℚ) ^ ulpExp p ((n : ℚ) / d) * d < 2 := by
  have hd' : (0 : ℚ) < d := by exact_mod_cast hd
  have hx : (0 : ℚ) < n / d := div_pos (by exact_mod_cast hpos) hd'
  have hlow := (ulpExp_bounds p hx).1
  rw [le_div_iff₀ hd'] at hlow
  have htop : (n : ℚ) < 2 ^ ((p : ℤ) - 1) * 2 := by
    rw [← zpow_add_one₀ two_ne_zero, sub_add_cancel]
    exact_mod_cast hn
  have hbinade := two_zpow_pos ((p : ℤ) - 1)
  by_contra hge
  rw [not_lt] at hge
  nlinarith

/-- The last place of such a quotient is a fraction `1 / 2 ^ k`, and there is room for it below the
next integer. -/
theorem ulpExp_div {p n d : ℕ} (hp : 1 ≤ p) (hd : 2 ≤ d) (hpos : 0 < n) (hn : n < 2 ^ p) :
    ∃ k : ℕ, ulpExp p ((n : ℚ) / d) = -k ∧ (d : ℚ) < 2 * 2 ^ k := by
  have hd' : (2 : ℚ) ≤ d := by exact_mod_cast hd
  have hunit := unit_mul_lt hp (d := d) (by omega) hpos hn
  have hnonpos : ulpExp p ((n : ℚ) / d) ≤ 0 := by
    by_contra hge
    have hone : (1 : ℚ) ≤ 2 ^ ulpExp p ((n : ℚ) / d) := one_le_zpow₀ (by norm_num) (by omega)
    nlinarith
  obtain ⟨k, hk⟩ := Int.eq_ofNat_of_zero_le (neg_nonneg.mpr hnonpos)
  have hexp : ulpExp p ((n : ℚ) / d) = -k := by omega
  refine ⟨k, hexp, ?_⟩
  have hpow : (0 : ℚ) < 2 ^ k := by positivity
  rw [hexp, zpow_neg, zpow_natCast, inv_mul_lt_iff₀ hpow] at hunit
  linarith

/-- A rounded quotient of natural numbers has the same integral part, as the numerator leaves no
room for a number so near below the next integer. -/
theorem floor_toFloat_div {p n d : ℕ} (hp : 1 ≤ p) (hd : 2 ≤ d) (hn : n < 2 ^ p) :
    ⌊toFloat p ((n : ℚ) / d)⌋₊ = n / d := by
  rcases Nat.eq_zero_or_pos n with rfl | hpos
  · rw [Nat.cast_zero, zero_div, toFloat_zero, Nat.floor_zero, Nat.zero_div]
  obtain ⟨k, hk, hroom⟩ := ulpExp_div hp hd hpos hn
  have hd' : (0 : ℚ) < d := by exact_mod_cast (by omega : 0 < d)
  have hpow : (0 : ℚ) < 2 ^ k := by positivity
  have hfloat : toFloat p ((n : ℚ) / d) = roundEven ((n : ℚ) / d * 2 ^ k) / 2 ^ k := by
    rw [toFloat, hk, zpow_neg, zpow_natCast, div_inv_eq_mul, div_eq_mul_inv _ ((2 : ℚ) ^ k)]
  obtain ⟨m, hm⟩ : ∃ m, m = n / d := ⟨_, rfl⟩
  have hbelow : (m : ℚ) ≤ n / d := by
    rw [hm]
    exact Nat.cast_div_le
  have habove : (n : ℚ) + 1 ≤ (m + 1) * d := by
    have hlt := Nat.lt_mul_div_succ n (by omega : 0 < d)
    rw [← hm, Nat.mul_comm] at hlt
    exact_mod_cast hlt
  have hlow : (m * 2 ^ k : ℤ) ≤ roundEven ((n : ℚ) / d * 2 ^ k) := by
    apply le_roundEven
    push_cast
    exact mul_le_mul_of_nonneg_right hbelow hpow.le
  have hhigh : roundEven ((n : ℚ) / d * 2 ^ k) ≤ ((m + 1) * 2 ^ k - 1 : ℤ) := by
    have hdiv : (n : ℚ) / d ≤ m + 1 - 1 / d := by
      rw [div_le_iff₀ hd', sub_mul, one_div_mul_cancel hd'.ne']
      linarith
    have hgap : (1 : ℚ) / 2 < 1 / d * 2 ^ k := by
      rw [one_div_mul_eq_div, lt_div_iff₀ hd']
      linarith
    rw [roundEven_le_iff]
    left
    push_cast
    nlinarith
  have hlow' : (m : ℚ) * 2 ^ k ≤ roundEven ((n : ℚ) / d * 2 ^ k) := by exact_mod_cast hlow
  have hhigh' : (roundEven ((n : ℚ) / d * 2 ^ k) : ℚ) ≤ (m + 1) * 2 ^ k - 1 := by
    exact_mod_cast hhigh
  have hnonneg : (0 : ℚ) ≤ m * 2 ^ k := by positivity
  rw [hfloat, ← hm, Nat.floor_eq_iff (div_nonneg (by linarith) hpow.le), le_div_iff₀ hpow,
    div_lt_iff₀ hpow]
  constructor <;> linarith

end rounding
