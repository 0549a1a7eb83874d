/-
  The shortest decimal number is read back. A candidate on a grid is only taken if it lies in the interval of the
  value (`onGrid_inInterval`), and a grid that is not coarser than half the gap to the neighbours always has one; twenty
  tries reach such a grid from `topExponent` on (`topExponent_fine`). So the shortest decimal number of a finite value lies
  in its interval (`shortest_inInterval`), whichever grid it is from.
-/
import FlatScope.Proofs.Number.Rounding

namespace FlatScope.Binary64

variable {a : Nat} {k : Int}

/-! ## Candidates -/

/-- A multiple of the unit of an interval and one of a power of ten are compared in natural numbers. -/
theorem grid_le (q k : Int) (t c : Nat) :
    t * (Nat.pow 2 q.toNat * Nat.pow 10 (-k).toNat) ≤ c * (Nat.pow 2 (-q).toNat * Nat.pow 10 k.toNat)
      ↔ (t : ℚ) * 2 ^ q ≤ c * 10 ^ k := by
  have hpos : ∀ b j : Nat, 0 < b → (0 : ℚ) < (Nat.pow b j : Nat) := fun b j hb => by
    exact_mod_cast Nat.pow_pos hb
  have h2 : (2 : ℚ) ^ q = (Nat.pow 2 q.toNat : Nat) / (Nat.pow 2 (-q).toNat : Nat) := by
    exact_mod_cast zpow_eq_div 2 (by decide) q
  have h10 : (10 : ℚ) ^ k = (Nat.pow 10 k.toNat : Nat) / (Nat.pow 10 (-k).toNat : Nat) := by
    exact_mod_cast zpow_eq_div 10 (by decide) k
  rw [h2, h10, ← mul_div_assoc, ← mul_div_assoc, div_le_div_iff₀ (hpos 2 _ (by decide)) (hpos 10 _ (by decide)),
    mul_assoc, mul_assoc, mul_comm ((Nat.pow 10 k.toNat : Nat) : ℚ)]
  exact_mod_cast Iff.rfl

theorem grid_ge (q k : Int) (t c : Nat) :
    c * (Nat.pow 2 (-q).toNat * Nat.pow 10 k.toNat) ≤ t * (Nat.pow 2 q.toNat * Nat.pow 10 (-k).toNat)
      ↔ (c : ℚ) * 10 ^ k ≤ t * 2 ^ q := by
  have hpos : ∀ b j : Nat, 0 < b → (0 : ℚ) < (Nat.pow b j : Nat) := fun b j hb => by
    exact_mod_cast Nat.pow_pos hb
  have h2 : (2 : ℚ) ^ q = (Nat.pow 2 q.toNat : Nat) / (Nat.pow 2 (-q).toNat : Nat) := by
    exact_mod_cast zpow_eq_div 2 (by decide) q
  have h10 : (10 : ℚ) ^ k = (Nat.pow 10 k.toNat : Nat) / (Nat.pow 10 (-k).toNat : Nat) := by
    exact_mod_cast zpow_eq_div 10 (by decide) k
  rw [h2, h10, ← mul_div_assoc, ← mul_div_assoc, div_le_div_iff₀ (hpos 10 _ (by decide)) (hpos 2 _ (by decide)),
    mul_assoc, mul_assoc, mul_comm ((Nat.pow 10 k.toNat : Nat) : ℚ)]
  exact_mod_cast Iff.rfl

theorem low_lt_mid (ha : 0 < a) : (quarters a).1 < (quarters a).2.1 := by
  have hm := significand_pos ha
  unfold quarters
  dsimp only
  split <;> omega

theorem mid_lt_high (a : Nat) : (quarters a).2.1 < (quarters a).2.2 := by
  unfold quarters
  dsimp only
  omega

/-- The rounding picks one of the two neighbours on the grid. -/
theorem roundHalfEven_cases (n d : Nat) : roundHalfEven n d = n / d ∨ roundHalfEven n d = n / d + 1 := by
  unfold roundHalfEven
  dsimp only
  split
  · exact .inl rfl
  · split
    · exact .inr rfl
    · omega

/-- A candidate that is taken lies in the interval. -/
theorem onGrid_inInterval (ha : 0 < a) {c : Nat} (h : onGrid a k = some c) : InInterval a (c * (10 : ℚ) ^ k) := by
  have hu : (0 : ℚ) < 2 ^ (scale a - 2) := zpow_pos (by norm_num) _
  have hmid : ((quarters a).2.1 : ℚ) * 2 ^ (scale a - 2) < (quarters a).2.2 * 2 ^ (scale a - 2) :=
    mul_lt_mul_of_pos_right (by exact_mod_cast mid_lt_high a) hu
  have hlow : ((quarters a).1 : ℚ) * 2 ^ (scale a - 2) < (quarters a).2.1 * 2 ^ (scale a - 2) :=
    mul_lt_mul_of_pos_right (by exact_mod_cast low_lt_mid ha) hu
  have hle := grid_le (scale a - 2) k
  have hge := grid_ge (scale a - 2) k
  unfold onGrid at h
  dsimp only at h
  generalize hn : Nat.pow 2 (scale a - 2).toNat * Nat.pow 10 (-k).toNat = n at h hle hge
  generalize hd : Nat.pow 2 (-(scale a - 2)).toNat * Nat.pow 10 k.toNat = d at h hle hge
  have hdpos : 0 < d := hd ▸ Nat.mul_pos (Nat.pow_pos (by decide)) (Nat.pow_pos (by decide))
  generalize hc0 : (quarters a).2.1 * n / d = c₀ at h
  -- the value lies between the two neighbours on the grid
  have hfloor : (c₀ : ℚ) * 10 ^ k ≤ (quarters a).2.1 * 2 ^ (scale a - 2) :=
    (hge _ _).mp (hc0 ▸ Nat.div_mul_le_self _ d)
  have hceil : ((quarters a).2.1 : ℚ) * 2 ^ (scale a - 2) < ((c₀ + 1 : Nat) : ℚ) * 10 ^ k := by
    rw [← not_le, ← hge, not_le, ← hc0, Nat.add_mul, Nat.one_mul]
    exact Nat.lt_div_mul_add hdpos
  have hdown : (if significand a % 2 = 0 then (quarters a).1 * n ≤ c₀ * d else (quarters a).1 * n < c₀ * d) →
      InInterval a (c₀ * (10 : ℚ) ^ k) := by
    intro hin
    split at hin
    · rename_i heven
      exact ⟨(hle _ _).mp hin, by linarith, .inl heven⟩
    · have hlt : ((quarters a).1 : ℚ) * 2 ^ (scale a - 2) < c₀ * 10 ^ k := by
        rw [← not_le, ← hge, not_le]
        exact hin
      exact ⟨hlt.le, by linarith, .inr ⟨hlt, by linarith⟩⟩
  have hup : (if significand a % 2 = 0 then (c₀ + 1) * d ≤ (quarters a).2.2 * n
      else (c₀ + 1) * d < (quarters a).2.2 * n) → InInterval a (((c₀ + 1 : Nat) : ℚ) * (10 : ℚ) ^ k) := by
    intro hin
    split at hin
    · rename_i heven
      exact ⟨by linarith, (hge _ _).mp hin, .inl heven⟩
    · have hlt : ((c₀ + 1 : Nat) : ℚ) * 10 ^ k < (quarters a).2.2 * 2 ^ (scale a - 2) := by
        rw [← not_le, ← hle, not_le]
        exact hin
      exact ⟨by linarith, hlt.le, .inr ⟨by linarith, hlt⟩⟩
  by_cases hl : if significand a % 2 = 0 then (quarters a).1 * n ≤ c₀ * d else (quarters a).1 * n < c₀ * d
  · by_cases hh : if significand a % 2 = 0 then (c₀ + 1) * d ≤ (quarters a).2.2 * n
        else (c₀ + 1) * d < (quarters a).2.2 * n
    · rw [if_pos ⟨hl, hh⟩] at h
      obtain rfl := Option.some.inj h
      obtain hr | hr := roundHalfEven_cases ((quarters a).2.1 * n) d
      · rw [hr, hc0]
        exact hdown hl
      · rw [hr, hc0]
        exact hup hh
    · rw [if_neg (fun h => hh h.2), if_pos hl] at h
      obtain rfl := Option.some.inj h
      exact hdown hl
  · rw [if_neg (fun h => hl h.1), if_neg hl] at h
    by_cases hh : if significand a % 2 = 0 then (c₀ + 1) * d ≤ (quarters a).2.2 * n
        else (c₀ + 1) * d < (quarters a).2.2 * n
    · rw [if_pos hh] at h
      obtain rfl := Option.some.inj h
      exact hup hh
    · rw [if_neg hh] at h
      cases h

/-- A fine grid has a multiple in the interval. -/
theorem onGrid_isSome (ha : 0 < a) (hk : (10 : ℚ) ^ k ≤ 2 ^ (scale a - 2)) : (onGrid a k).isSome := by
  have hlow : ((quarters a).1 : ℚ) + 1 ≤ (quarters a).2.1 := by exact_mod_cast low_lt_mid ha
  have hu : (0 : ℚ) < 2 ^ (scale a - 2) := zpow_pos (by norm_num) _
  have hge := grid_ge (scale a - 2) k
  unfold onGrid
  dsimp only
  generalize hn : Nat.pow 2 (scale a - 2).toNat * Nat.pow 10 (-k).toNat = n at hge ⊢
  generalize hd : Nat.pow 2 (-(scale a - 2)).toNat * Nat.pow 10 k.toNat = d at hge ⊢
  have hdpos : 0 < d := hd ▸ Nat.mul_pos (Nat.pow_pos (by decide)) (Nat.pow_pos (by decide))
  generalize hc0 : (quarters a).2.1 * n / d = c₀
  have hceil : ((quarters a).2.1 : ℚ) * 2 ^ (scale a - 2) < ((c₀ + 1 : Nat) : ℚ) * 10 ^ k := by
    rw [← not_le, ← hge, not_le, ← hc0, Nat.add_mul, Nat.one_mul]
    exact Nat.lt_div_mul_add hdpos
  have hlt : (quarters a).1 * n < c₀ * d := by
    rw [← not_le, hge, not_le]
    push_cast at hceil
    nlinarith
  have hin : if significand a % 2 = 0 then (quarters a).1 * n ≤ c₀ * d else (quarters a).1 * n < c₀ * d := by
    split
    · exact hlt.le
    · exact hlt
  by_cases hboth : (if significand a % 2 = 0 then (quarters a).1 * n ≤ c₀ * d else (quarters a).1 * n < c₀ * d)
      ∧ if significand a % 2 = 0 then (c₀ + 1) * d ≤ (quarters a).2.2 * n else (c₀ + 1) * d < (quarters a).2.2 * n
  · rw [if_pos hboth]
    rfl
  · rw [if_neg hboth, if_pos hin]
    rfl

/-! ## The search -/

/-- The search for a candidate on coarser and then finer grids, whatever the candidates are. -/
def search (candidate : Int → Option Nat) (k : Int) : (tries : Nat) → Nat × Int
  | 0 => ((candidate k).getD 0, k)
  | tries + 1 =>
    match candidate k with
    | some c => (c, k)
    | none => search candidate (k - 1) tries

/-- The kernel would unfold the candidates if it met `coarsest` in an equation with them; `search` keeps them closed. -/
theorem coarsest_eq_search (a : Nat) (k : Int) (tries : Nat) : coarsest a k tries = search (onGrid a) k tries := by
  delta coarsest search
  rfl

/-- What holds of every candidate holds of the one that is found, if there is one on the last grid. -/
theorem search_spec {candidate : Int → Option Nat} {P : Nat → Int → Prop}
    (hP : ∀ k c, candidate k = some c → P c k) (tries : Nat) (k : Int)
    (hlast : (candidate (k - tries)).isSome) : P (search candidate k tries).1 (search candidate k tries).2 := by
  induction tries generalizing k with
  | zero =>
    rw [Nat.cast_zero, sub_zero] at hlast
    obtain ⟨c, hc⟩ := Option.isSome_iff_exists.mp hlast
    rw [search, hc]
    exact hP k c hc
  | succ tries ih =>
    rw [search]
    cases hc : candidate k with
    | some c => exact hP k c hc
    | none =>
      refine ih (k - 1) ?_
      rwa [sub_sub, add_comm, ← Nat.cast_succ]

/-- The search ends at a candidate in the interval, if its last grid is fine enough. -/
theorem coarsest_inInterval (ha : 0 < a) (tries : Nat) (k : Int) (hk : (10 : ℚ) ^ (k - tries) ≤ 2 ^ (scale a - 2)) :
    InInterval a ((coarsest a k tries).1 * (10 : ℚ) ^ (coarsest a k tries).2) := by
  rw [coarsest_eq_search]
  exact search_spec (P := fun c k => InInterval a (c * (10 : ℚ) ^ k)) (fun k c hc => onGrid_inInterval ha hc) tries k
    (onGrid_isSome ha hk)

/-- A power of ten is below a power of two if their exponents are far enough apart. -/
theorem ten_zpow_le {t q : Int} (hpos : 0 ≤ t → 10 * t ≤ 3 * q) (hneg : t < 0 → 83 * t ≤ 25 * q) :
    (10 : ℚ) ^ t ≤ 2 ^ q := by
  obtain ht | ht := Int.lt_or_le t 0
  · have h := hneg ht
    obtain ⟨n, rfl⟩ : ∃ n : Nat, t = -n := ⟨t.natAbs, by omega⟩
    obtain hq | hq := Int.lt_or_le q 0
    · obtain ⟨m, rfl⟩ : ∃ m : Nat, q = -m := ⟨q.natAbs, by omega⟩
      have hpow : 2 ^ m ≤ 10 ^ n := by
        refine (Nat.pow_le_pow_iff_left (n := 25) (by decide)).mp ?_
        calc (2 ^ m) ^ 25 = 2 ^ (m * 25) := (Nat.pow_mul ..).symm
          _ ≤ 2 ^ (83 * n) := Nat.pow_le_pow_right (by decide) (by omega)
          _ = (2 ^ 83) ^ n := Nat.pow_mul ..
          _ ≤ (10 ^ 25) ^ n := Nat.pow_le_pow_left (by decide) n
          _ = (10 ^ n) ^ 25 := by rw [← Nat.pow_mul, ← Nat.pow_mul, Nat.mul_comm]
      have hpow : (2 : ℚ) ^ m ≤ 10 ^ n := by exact_mod_cast hpow
      rw [zpow_neg, zpow_neg, zpow_natCast, zpow_natCast]
      exact inv_anti₀ (by positivity) hpow
    · exact (zpow_le_one_of_nonpos₀ (by norm_num) ht.le).trans (one_le_zpow₀ one_lt_two_rat.le hq)
  · have h := hpos ht
    obtain ⟨n, rfl⟩ := Int.eq_ofNat_of_zero_le ht
    obtain ⟨m, rfl⟩ := Int.eq_ofNat_of_zero_le (show 0 ≤ q by omega)
    have hpow : 10 ^ n ≤ 2 ^ m := by
      refine (Nat.pow_le_pow_iff_left (n := 3) (by decide)).mp ?_
      calc (10 ^ n) ^ 3 = (10 ^ 3) ^ n := by rw [← Nat.pow_mul, ← Nat.pow_mul, Nat.mul_comm]
        _ ≤ (2 ^ 10) ^ n := Nat.pow_le_pow_left (by decide) n
        _ = 2 ^ (10 * n) := (Nat.pow_mul ..).symm
        _ ≤ 2 ^ (m * 3) := Nat.pow_le_pow_right (by decide) (by omega)
        _ = (2 ^ m) ^ 3 := Nat.pow_mul ..
    exact_mod_cast hpow

/-- Twenty grids below the top one there is one that is fine enough, for every scale of the format. -/
theorem topExponent_fine (ha : 0 < a) (hf : a < infinityMagnitude) :
    (10 : ℚ) ^ (topExponent a - (20 : Nat)) ≤ 2 ^ (scale a - 2) := by
  have hs := le_scale a
  have hs' := scale_le hf
  have hlog : Nat.log2 (significand a) ≤ 52 := by
    have h := significand_lt a
    have hlt := (Nat.log2_lt (significand_pos ha).ne').mpr (show significand a < 2 ^ 53 from h)
    omega
  unfold topExponent
  exact ten_zpow_le (fun _ => by omega) (fun _ => by omega)

/-- The shortest decimal number of a finite value other than zero is not zero and lies in its interval. -/
theorem shortest_inInterval {x : Binary64} (hf : x.isFinite = true) (h0 : 0 < x.magnitude) :
    0 < x.shortest.digits ∧ InInterval x.magnitude (x.shortest.digits * (10 : ℚ) ^ x.shortest.exponent) := by
  have hf' : x.magnitude < infinityMagnitude := by simpa [isFinite] using hf
  have h := coarsest_inInterval h0 20 (topExponent x.magnitude) (topExponent_fine h0 hf')
  unfold shortest
  rw [if_neg h0.ne']
  generalize coarsest x.magnitude (topExponent x.magnitude) 20 = found at h ⊢
  obtain ⟨c, k⟩ := found
  refine ⟨?_, h⟩
  by_contra hz
  have hc : c = 0 := Nat.eq_zero_of_not_pos hz
  have hlower := h.lower h0
  rw [hc, Nat.cast_zero, zero_mul] at hlower
  exact absurd hlower (not_le.mpr (zpow_pos (by norm_num) _))

end FlatScope.Binary64
