/-
  Rounding to the format. The real numbers that are read as a given magnitude form an interval around it
  (`Binary64.InInterval`); here it is shown that everything in it is read so (`nearestMagnitude_of_inInterval`),
  however the number is written as a quotient, and that the shortcuts for exponents far outside the format are never
  taken inside an interval (`ofScaled_of_inInterval`).
-/
import Mathlib.Algebra.Order.Field.Power
import Mathlib.Tactic.FieldSimp
import Mathlib.Tactic.Linarith
import Mathlib.Tactic.NormNum
import Mathlib.Tactic.Positivity
import Mathlib.Tactic.Ring
import FlatScope.Number.Shortest

namespace FlatScope

/-! ## Nearest integers -/

/-- The nearest integer is at most half away, and even if it is just half away. -/
theorem roundHalfEven_eq {n d m : Nat} (hd : 0 < d) (hl : 2 * (m * d) ≤ 2 * n + d) (hu : 2 * n ≤ 2 * (m * d) + d)
    (ht : m % 2 = 0 ∨ 2 * (m * d) < 2 * n + d ∧ 2 * n < 2 * (m * d) + d) : roundHalfEven n d = m := by
  have hn : d * (n / d) + n % d = n := Nat.div_add_mod n d
  have hr : n % d < d := Nat.mod_lt n hd
  unfold roundHalfEven
  generalize n / d = q at hn ⊢
  generalize n % d = r at hn hr ⊢
  obtain hlt | rfl | hgt := Nat.lt_trichotomy m q
  · obtain ⟨k, rfl⟩ := Nat.exists_eq_add_of_lt hlt
    exfalso
    have hk : 0 ≤ d * k := Nat.zero_le _
    have he : d * (m + k + 1) = m * d + d * k + d := by ring
    omega
  · have he : d * m = m * d := Nat.mul_comm ..
    dsimp only
    split
    · rfl
    · split <;> omega
  · obtain ⟨k, rfl⟩ := Nat.exists_eq_add_of_lt hgt
    have he : (q + k + 1) * d = d * q + k * d + d := by ring
    obtain rfl | hk := Nat.eq_zero_or_pos k
    · dsimp only
      split
      · omega
      · split <;> omega
    · exfalso
      have hkd : d ≤ k * d := Nat.le_mul_of_pos_left d hk
      omega

/-- The same for a quotient as a rational number. -/
theorem roundHalfEven_of_ratio {n d m : Nat} (hd : 0 < d) {r : ℚ} (hr : r = n / d) (hl : (m : ℚ) - 1 / 2 ≤ r)
    (hu : r ≤ m + 1 / 2) (ht : m % 2 = 0 ∨ (m : ℚ) - 1 / 2 < r ∧ r < m + 1 / 2) : roundHalfEven n d = m := by
  have hd' : (0 : ℚ) < d := by exact_mod_cast hd
  have hrd : r * d = n := by rw [hr, div_mul_cancel₀ _ hd'.ne']
  refine roundHalfEven_eq hd ?_ ?_ ?_
  · have h := mul_le_mul_of_nonneg_right hl hd'.le
    rw [hrd] at h
    have : (2 * (m * d) : ℚ) ≤ 2 * n + d := by linarith
    exact_mod_cast this
  · have h := mul_le_mul_of_nonneg_right hu hd'.le
    rw [hrd] at h
    have : (2 * n : ℚ) ≤ 2 * (m * d) + d := by linarith
    exact_mod_cast this
  · obtain ht | ⟨hl, hu⟩ := ht
    · exact .inl ht
    · have hl := mul_lt_mul_of_pos_right hl hd'
      have hu := mul_lt_mul_of_pos_right hu hd'
      rw [hrd] at hl hu
      have hl : (2 * (m * d) : ℚ) < 2 * n + d := by linarith
      have hu : (2 * n : ℚ) < 2 * (m * d) + d := by linarith
      exact .inr ⟨by exact_mod_cast hl, by exact_mod_cast hu⟩

/-! ## Powers -/

/-- A power with an integer exponent as a quotient of two powers of which one is trivial. -/
theorem zpow_eq_div (b : Nat) (hb : 0 < b) (k : Int) :
    (b : ℚ) ^ k = (Nat.pow b k.toNat : Nat) / (Nat.pow b (-k).toNat : Nat) := by
  have hb' : (b : ℚ) ≠ 0 := by exact_mod_cast hb.ne'
  simp only [Nat.pow_eq, Nat.cast_pow]
  obtain ⟨n, rfl | rfl⟩ := Int.eq_nat_or_neg k
  · simp
  · simp

namespace Binary64

variable {n d : Nat}

theorem one_lt_two_rat : (1 : ℚ) < 2 := by norm_num

theorem log2_le (hn : 0 < n) : (2 : ℚ) ^ (Nat.log2 n : Int) ≤ n := by
  rw [zpow_natCast]
  exact_mod_cast Nat.log2_self_le hn.ne'

theorem lt_log2_succ : (n : ℚ) < 2 ^ ((Nat.log2 n : Int) + 1) := by
  have h : n < 2 ^ (Nat.log2 n + 1) := Nat.lt_log2_self
  exact_mod_cast h

/-- A quotient lies between the powers of two next to the quotient of the powers below its parts. -/
theorem quotient_bounds (hn : 0 < n) (hd : 0 < d) :
    (2 : ℚ) ^ ((Nat.log2 n : Int) - Nat.log2 d - 1) ≤ n / d
      ∧ (n : ℚ) / d < 2 ^ ((Nat.log2 n : Int) - Nat.log2 d + 1) := by
  have hd' : (0 : ℚ) < d := by exact_mod_cast hd
  have hpow : ∀ k : Int, (0 : ℚ) < 2 ^ k := fun k => zpow_pos (by norm_num) k
  constructor
  · rw [le_div_iff₀ hd']
    calc (2 : ℚ) ^ ((Nat.log2 n : Int) - Nat.log2 d - 1) * d
        ≤ 2 ^ ((Nat.log2 n : Int) - Nat.log2 d - 1) * 2 ^ ((Nat.log2 d : Int) + 1) :=
          mul_le_mul_of_nonneg_left lt_log2_succ.le (hpow _).le
      _ = 2 ^ (Nat.log2 n : Int) := by
          rw [← zpow_add₀ (by norm_num)]
          congr 1
          ring
      _ ≤ n := log2_le hn
  · rw [div_lt_iff₀ hd']
    calc (n : ℚ) < 2 ^ ((Nat.log2 n : Int) + 1) := lt_log2_succ
      _ = 2 ^ ((Nat.log2 n : Int) - Nat.log2 d + 1) * 2 ^ (Nat.log2 d : Int) := by
          rw [← zpow_add₀ (by norm_num)]
          congr 1
          ring
      _ ≤ 2 ^ ((Nat.log2 n : Int) - Nat.log2 d + 1) * d := mul_le_mul_of_nonneg_left (log2_le hd) (hpow _).le

/-- A power of two is compared with a quotient in natural numbers. -/
theorem zpow_le_quotient (hd : 0 < d) (k : Int) :
    d * Nat.pow 2 k.toNat ≤ n * Nat.pow 2 (-k).toNat ↔ (2 : ℚ) ^ k ≤ n / d := by
  have hd' : (0 : ℚ) < d := by exact_mod_cast hd
  have hp : (0 : ℚ) < (Nat.pow 2 (-k).toNat : Nat) := by exact_mod_cast Nat.pow_pos (by decide)
  have hk : (2 : ℚ) ^ k = (Nat.pow 2 k.toNat : Nat) / (Nat.pow 2 (-k).toNat : Nat) := by
    exact_mod_cast zpow_eq_div 2 (by decide) k
  rw [hk, div_le_div_iff₀ hp hd', mul_comm]
  exact_mod_cast Iff.rfl

theorem log2Quotient_spec (hn : 0 < n) (hd : 0 < d) :
    (2 : ℚ) ^ log2Quotient n d ≤ n / d ∧ (n : ℚ) / d < 2 ^ (log2Quotient n d + 1) := by
  obtain ⟨hl, hu⟩ := quotient_bounds hn hd
  unfold log2Quotient
  dsimp only
  split
  · rename_i h
    exact ⟨(zpow_le_quotient hd _).mp h, hu⟩
  · rename_i h
    refine ⟨hl, ?_⟩
    rw [sub_add_cancel]
    exact lt_of_not_ge fun hk => h ((zpow_le_quotient hd _).mpr hk)

/-- The logarithm is the only one. -/
theorem log2Quotient_eq (hn : 0 < n) (hd : 0 < d) {k : Int} (hl : (2 : ℚ) ^ k ≤ n / d)
    (hu : (n : ℚ) / d < 2 ^ (k + 1)) : log2Quotient n d = k := by
  obtain ⟨hl', hu'⟩ := log2Quotient_spec hn hd
  have h1 := (zpow_lt_zpow_iff_right₀ one_lt_two_rat).mp (lt_of_le_of_lt hl hu')
  have h2 := (zpow_lt_zpow_iff_right₀ one_lt_two_rat).mp (lt_of_le_of_lt hl' hu)
  omega

/-! ## Magnitudes -/

variable {a : Nat}

/-- A magnitude by its scale and its significand. -/
theorem magnitude_eq (a : Nat) : a = (scale a + 1074).toNat * binade + significand a := by
  unfold scale significand binade
  omega

theorem significand_lt (a : Nat) : significand a < 2 * binade := by
  unfold significand binade
  omega

/-- The significand has all its bits, unless the scale is the least one. -/
theorem binade_le_significand (a : Nat) : binade ≤ significand a ∨ scale a = -1074 := by
  unfold scale significand binade
  omega

theorem le_scale (a : Nat) : -1074 ≤ scale a := by
  unfold scale
  omega

theorem scale_le (ha : a < infinityMagnitude) : scale a ≤ 971 := by
  unfold infinityMagnitude at ha
  unfold scale
  unfold binade at *
  omega

theorem significand_pos (ha : 0 < a) : 0 < significand a := by
  unfold significand binade
  omega

/-! ## Intervals -/

/-- The interval of the numbers that are read as a magnitude. Its ends are in it if the significand is even. -/
def InInterval (a : Nat) (r : ℚ) : Prop :=
  (quarters a).1 * (2 : ℚ) ^ (scale a - 2) ≤ r ∧ r ≤ (quarters a).2.2 * (2 : ℚ) ^ (scale a - 2)
    ∧ (significand a % 2 = 0
      ∨ (quarters a).1 * (2 : ℚ) ^ (scale a - 2) < r ∧ r < (quarters a).2.2 * (2 : ℚ) ^ (scale a - 2))

/-- The interval in units of the last place: half a unit to both sides, and a quarter below a power of two. -/
theorem InInterval.units (ha : 0 < a) {r : ℚ} (h : InInterval a r) :
    ∃ u : ℚ, r = u * 2 ^ scale a ∧ (significand a : ℚ) - 1 / 2 ≤ u ∧ u ≤ significand a + 1 / 2
      ∧ (significand a % 2 = 0 ∨ (significand a : ℚ) - 1 / 2 < u ∧ u < significand a + 1 / 2)
      ∧ (significand a = binade → -1074 < scale a → (significand a : ℚ) - 1 / 4 ≤ u) := by
  have hp : (0 : ℚ) < 2 ^ scale a := zpow_pos (by norm_num) _
  have hunit : (2 : ℚ) ^ (scale a - 2) = 2 ^ scale a / 4 := by
    rw [zpow_sub₀ (by norm_num)]
    norm_num
  have hm := significand_pos ha
  have hlow : ((quarters a).1 : ℚ) ≥ 4 * significand a - 2
      ∧ (significand a = binade → -1074 < scale a → ((quarters a).1 : ℚ) = 4 * significand a - 1) := by
    unfold quarters
    dsimp only
    constructor
    · split
      · rw [Nat.cast_sub (by omega)]
        push_cast
        linarith
      · rw [Nat.cast_sub (by omega)]
        push_cast
        linarith
    · intro hb hs
      rw [if_pos ⟨hb, hs⟩, Nat.cast_sub (by omega)]
      push_cast
      ring
  have hhigh : ((quarters a).2.2 : ℚ) = 4 * significand a + 2 := by
    unfold quarters
    push_cast
    ring
  obtain ⟨hl, hu, ht⟩ := h
  rw [hunit, hhigh] at hu
  rw [hunit] at hl
  rw [hunit, hhigh] at ht
  have hr : r = r / 2 ^ scale a * 2 ^ scale a := by rw [div_mul_cancel₀ _ hp.ne']
  refine ⟨r / 2 ^ scale a, hr, ?_, ?_, ?_, ?_⟩
  · rw [le_div_iff₀ hp]
    nlinarith [hlow.1]
  · rw [div_le_iff₀ hp]
    linarith
  · obtain ht | ⟨hl, hu⟩ := ht
    · exact .inl ht
    · refine .inr ⟨?_, ?_⟩
      · rw [lt_div_iff₀ hp]
        nlinarith [hlow.1]
      · rw [div_lt_iff₀ hp]
        linarith
  · intro hb hs
    rw [hlow.2 hb hs] at hl
    rw [le_div_iff₀ hp]
    linarith

/-! ## Reading -/

/-- The quotient that is rounded, in units of `2 ^ q`. -/
theorem scaled_ratio (hd : 0 < d) (q : Int) {u : ℚ} (h : (n : ℚ) / d = u * 2 ^ q) :
    u = ((n * Nat.pow 2 (-q).toNat : Nat) : ℚ) / ((d * Nat.pow 2 q.toNat : Nat) : ℚ) := by
  have hd' : (d : ℚ) ≠ 0 := by exact_mod_cast hd.ne'
  have hA : ((Nat.pow 2 q.toNat : Nat) : ℚ) ≠ 0 := by exact_mod_cast (Nat.pow_pos (by decide)).ne'
  have hB : ((Nat.pow 2 (-q).toNat : Nat) : ℚ) ≠ 0 := by exact_mod_cast (Nat.pow_pos (by decide)).ne'
  have hk : (2 : ℚ) ^ q = (Nat.pow 2 q.toNat : Nat) / (Nat.pow 2 (-q).toNat : Nat) := by
    exact_mod_cast zpow_eq_div 2 (by decide) q
  rw [hk] at h
  push_cast
  field_simp at h ⊢
  linarith

/-- What rounds to `m` in units of `2 ^ q` gets the magnitude with this scale and significand. -/
theorem nearestMagnitude_eq (hn : 0 < n) (hd : 0 < d) {q : Int} (hq : max (log2Quotient n d - 52) (-1074) = q)
    {u : ℚ} (hu : (n : ℚ) / d = u * 2 ^ q) {m : Nat} (hl : (m : ℚ) - 1 / 2 ≤ u) (hh : u ≤ m + 1 / 2)
    (ht : m % 2 = 0 ∨ (m : ℚ) - 1 / 2 < u ∧ u < m + 1 / 2) :
    nearestMagnitude n d = (q + 1074).toNat * binade + m := by
  have hpos : 0 < d * Nat.pow 2 q.toNat := Nat.mul_pos hd (Nat.pow_pos (by decide))
  unfold nearestMagnitude
  rw [if_neg hn.ne']
  dsimp only
  rw [hq, roundHalfEven_of_ratio hpos (scaled_ratio hd q hu) hl hh ht]

/-- Every quotient in the interval of a magnitude is read as it. -/
theorem nearestMagnitude_of_inInterval (ha : 0 < a) (hn : 0 < n) (hd : 0 < d) (h : InInterval a (n / d)) :
    nearestMagnitude n d = a := by
  obtain ⟨u, hr, hl, hu, ht, hb⟩ := h.units ha
  have hp : (0 : ℚ) < 2 ^ scale a := zpow_pos (by norm_num) _
  have hlt : (significand a : ℚ) + 1 ≤ 2 ^ (53 : Int) := by
    have hs : significand a + 1 ≤ 2 ^ 53 := significand_lt a
    exact_mod_cast hs
  obtain ⟨hk, hk'⟩ := log2Quotient_spec hn hd
  -- the last place of the quotient is not above that of the magnitude
  have hle : log2Quotient n d - 52 ≤ scale a := by
    by_contra hgt
    have h53 : (2 : ℚ) ^ (scale a + 53) ≤ n / d := le_trans (zpow_le_zpow_right₀ one_lt_two_rat.le (by omega)) hk
    rw [hr, zpow_add₀ (by norm_num), mul_comm] at h53
    have := le_of_mul_le_mul_right h53 hp
    linarith
  have hmin := le_scale a
  by_cases hsame : max (log2Quotient n d - 52) (-1074) = scale a
  · rw [nearestMagnitude_eq hn hd hsame hr hl hu ht]
    exact (magnitude_eq a).symm
  -- the quotient is below the power of two that the magnitude stands for
  have hs : -1074 < scale a := by omega
  have hbinade : binade ≤ significand a := (binade_le_significand a).resolve_right (by omega)
  have hbelow : u < 2 ^ (52 : Int) := by
    by_contra hge
    have h52 : (2 : ℚ) ^ (scale a + 52) ≤ n / d := by
      rw [hr, zpow_add₀ (by norm_num), mul_comm]
      exact mul_le_mul_of_nonneg_right (not_lt.mp hge) hp.le
    have := (zpow_lt_zpow_iff_right₀ one_lt_two_rat).mp (lt_of_le_of_lt h52 hk')
    omega
  have hm : significand a = binade := by
    have hlt : (significand a : ℚ) < 2 ^ 52 + 1 := by
      norm_num at hbelow
      linarith
    have : significand a < 2 ^ 52 + 1 := by exact_mod_cast hlt
    unfold binade at hbinade ⊢
    omega
  have hquarter := hb hm hs
  have hcast : (significand a : ℚ) = 2 ^ 52 := by
    rw [hm]
    norm_num [binade]
  rw [hcast] at hquarter
  norm_num at hbelow
  have hlog : log2Quotient n d = scale a + 51 := by
    refine log2Quotient_eq hn hd ?_ ?_
    · rw [hr, zpow_add₀ (by norm_num), mul_comm]
      refine mul_le_mul_of_nonneg_right ?_ hp.le
      norm_num
      linarith
    · rw [hr, show scale a + 51 + 1 = scale a + 52 by ring, zpow_add₀ (by norm_num), mul_comm]
      refine mul_lt_mul_of_pos_left ?_ hp
      norm_num
      linarith
  have hq : max (log2Quotient n d - 52) (-1074) = scale a - 1 := by omega
  have hr2 : (n : ℚ) / d = 2 * u * 2 ^ (scale a - 1) := by
    rw [hr, zpow_sub₀ (by norm_num)]
    ring
  have hround := nearestMagnitude_eq (m := 2 * binade) hn hd hq hr2
    (by norm_num [binade]; linarith) (by norm_num [binade]; linarith) (.inl rfl)
  rw [hround]
  have hmag := magnitude_eq a
  rw [hm] at hmag
  unfold binade at hmag ⊢
  omega

/-! ## Shortcuts -/

theorem two_le_low (ha : 0 < a) : 2 ≤ (quarters a).1 := by
  have hm := significand_pos ha
  unfold quarters
  dsimp only
  split <;> omega

/-- Everything in an interval is above the least magnitude's half. -/
theorem InInterval.lower (ha : 0 < a) {r : ℚ} (h : InInterval a r) : (2 : ℚ) ^ (-1075 : Int) ≤ r := by
  have hlow : (2 : ℚ) ≤ (quarters a).1 := by exact_mod_cast two_le_low ha
  have hscale := le_scale a
  calc (2 : ℚ) ^ (-1075 : Int) = 2 * 2 ^ (-1076 : Int) := by
        rw [← zpow_one_add₀ (by norm_num)]
        norm_num
    _ ≤ (quarters a).1 * 2 ^ (scale a - 2) :=
        mul_le_mul hlow (zpow_le_zpow_right₀ one_lt_two_rat.le (by omega)) (by positivity) (by positivity)
    _ ≤ r := h.1

/-- Everything in the interval of a finite magnitude is far below `10 ^ 401`. -/
theorem InInterval.upper (hf : a < infinityMagnitude) {r : ℚ} (h : InInterval a r) : r ≤ 2 ^ (1025 : Int) := by
  have hm := significand_lt a
  have hhigh : ((quarters a).2.2 : ℚ) ≤ 2 ^ (56 : Int) := by
    have : (quarters a).2.2 ≤ 2 ^ 56 := by
      unfold quarters
      unfold binade at hm
      dsimp only
      omega
    exact_mod_cast this
  have hscale := scale_le hf
  calc r ≤ (quarters a).2.2 * 2 ^ (scale a - 2) := h.2.1
    _ ≤ 2 ^ (56 : Int) * 2 ^ (969 : Int) :=
        mul_le_mul hhigh (zpow_le_zpow_right₀ one_lt_two_rat.le (by omega)) (by positivity) (by positivity)
    _ = 2 ^ (1025 : Int) := by
        rw [← zpow_add₀ (by norm_num)]
        norm_num

theorem two_pow_lt_ten_pow : 2 * 2 ^ 1075 < 10 ^ 401 ∧ 2 ^ 1025 < 10 ^ 401 := by decide +kernel

/-- A decimal number in the interval of a finite magnitude is read as it. -/
theorem ofScaled_of_inInterval (negative : Bool) (ha : 0 < a) (hf : a < infinityMagnitude) {m : Nat} {e : Int}
    (hm : 0 < m) (h : InInterval a (m * (10 : ℚ) ^ e)) : ofScaled negative m e = ofMagnitude negative a := by
  have hm' : (0 : ℚ) < m := by exact_mod_cast hm
  have hsmall : ¬(m = 0 ∨ e + Nat.log2 m < -400) := by
    rintro (h0 | hlt)
    · omega
    have hupper : (m : ℚ) * 10 ^ e < 2 ^ (-1075 : Int) := by
      calc (m : ℚ) * 10 ^ e
          ≤ (2 * 10 ^ (Nat.log2 m : Int)) * 10 ^ (-401 - (Nat.log2 m : Int)) := by
            refine mul_le_mul ?_ (zpow_le_zpow_right₀ (by norm_num) (by omega)) (by positivity) (by positivity)
            calc (m : ℚ) ≤ 2 ^ ((Nat.log2 m : Int) + 1) := lt_log2_succ.le
              _ = 2 * 2 ^ (Nat.log2 m : Int) := by rw [zpow_add_one₀ (by norm_num), mul_comm]
              _ ≤ 2 * 10 ^ (Nat.log2 m : Int) := by
                rw [zpow_natCast, zpow_natCast]
                have := pow_le_pow_left₀ (by norm_num : (0 : ℚ) ≤ 2) (by norm_num : (2 : ℚ) ≤ 10) (Nat.log2 m)
                linarith
        _ = 2 * 10 ^ (-401 : Int) := by
            rw [mul_assoc, ← zpow_add₀ (by norm_num)]
            congr 2
            ring
        _ < 2 ^ (-1075 : Int) := by
            have hpow : (2 : ℚ) * 2 ^ 1075 < 10 ^ 401 := by exact_mod_cast two_pow_lt_ten_pow.1
            rw [zpow_neg, zpow_neg, ← div_eq_mul_inv, inv_eq_one_div, div_lt_div_iff₀ (by positivity) (by positivity),
              one_mul]
            exact hpow
    exact absurd (h.lower ha) (not_le.mpr hupper)
  have hlarge : ¬400 < e := by
    intro hgt
    have hlower : (2 : ℚ) ^ (1025 : Int) < m * 10 ^ e := by
      calc (2 : ℚ) ^ (1025 : Int) < 10 ^ (401 : Int) := by exact_mod_cast two_pow_lt_ten_pow.2
        _ ≤ 10 ^ e := zpow_le_zpow_right₀ (by norm_num) (by omega)
        _ ≤ m * 10 ^ e := by
          have h1 : (1 : ℚ) ≤ m := by exact_mod_cast hm
          have hp : (0 : ℚ) < 10 ^ e := zpow_pos (by norm_num) _
          nlinarith
    exact absurd (h.upper hf) (not_le.mpr hlower)
  have hpos : ∀ k, 0 < Nat.pow 10 k := fun k => Nat.pow_pos (by decide)
  have hratio : (m : ℚ) * 10 ^ e
      = ((m * Nat.pow 10 e.toNat : Nat) : ℚ) / ((Nat.pow 10 (-e).toNat : Nat) : ℚ) := by
    have hk : (10 : ℚ) ^ e = (Nat.pow 10 e.toNat : Nat) / (Nat.pow 10 (-e).toNat : Nat) := by
      exact_mod_cast zpow_eq_div 10 (by decide) e
    rw [hk, Nat.cast_mul, mul_div_assoc]
  unfold ofScaled
  rw [if_neg hsmall, if_neg hlarge,
    nearestMagnitude_of_inInterval ha (Nat.mul_pos hm (hpos _)) (hpos _) (hratio ▸ h)]

end Binary64

end FlatScope
