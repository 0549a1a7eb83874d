/-
  Numbers as text. The digits of a number are read as it, with or without zeros in front (`natOfDigits_toString`); a
  decimal number that is laid out in any style is read as a number of the same value (`magnitudeText_reads`), although
  perhaps with other digits and another exponent; and so the text of every finite value is a float that is read as this
  value (`text_reads`).
-/
import FlatScope.Proofs.Number.Shortest
import FlatScope.Proofs.Token.Value

namespace FlatScope

open Lexeme

/-! ## Digits -/

namespace Decimal

variable {xs ys : List Char}

theorem natOfDigits_eq (cs : List Char) : natOfDigits cs = Nat.ofDigitChars 10 cs 0 := by
  rw [Nat.ofDigitChars_eq_foldl]
  rfl

theorem natOfDigits_append (xs ys : List Char) :
    natOfDigits (xs ++ ys) = 10 ^ ys.length * natOfDigits xs + natOfDigits ys := by
  rw [natOfDigits_eq, natOfDigits_eq, natOfDigits_eq, Nat.ofDigitChars_append, Nat.ofDigitChars_eq_ofDigitChars_zero]

theorem natOfDigits_zeros (n : Nat) : natOfDigits (List.replicate n '0') = 0 := by
  rw [natOfDigits_eq, Nat.ofDigitChars_replicate_zero, Nat.mul_zero]

theorem toList_toString (n : Nat) : (toString n).toList = Nat.toDigits 10 n := by
  rw [Nat.toString_eq_repr, Nat.toList_repr]

/-- The digits of a number are read as it. -/
theorem natOfDigits_toString (n : Nat) : natOfDigits (toString n).toList = n := by
  rw [toList_toString, natOfDigits_eq, Nat.ofDigitChars_ten_toDigits]

theorem isDigits_toString (n : Nat) : isDigits (toString n).toList = true := by
  rw [toList_toString]
  exact isDigits_iff.mpr ⟨Nat.toDigits_ne_nil, fun c hc => Nat.isDigit_of_mem_toDigits (by decide) (by decide) hc⟩

theorem isDigits_append (hx : ∀ c ∈ xs, c.isDigit = true) (hy : isDigits ys = true) : isDigits (xs ++ ys) = true := by
  obtain ⟨hne, hd⟩ := isDigits_iff.mp hy
  exact isDigits_iff.mpr ⟨List.append_ne_nil_of_right_ne_nil _ hne, List.forall_mem_append.mpr ⟨hx, hd⟩⟩

theorem isDigits_append_left (hx : isDigits xs = true) (hy : ∀ c ∈ ys, c.isDigit = true) :
    isDigits (xs ++ ys) = true := by
  obtain ⟨hne, hd⟩ := isDigits_iff.mp hx
  exact isDigits_iff.mpr ⟨List.append_ne_nil_of_left_ne_nil hne _, List.forall_mem_append.mpr ⟨hd, hy⟩⟩

theorem isDigit_of_mem_zeros {n : Nat} : ∀ c ∈ List.replicate n '0', c.isDigit = true := by
  intro c hc
  obtain rfl := List.eq_of_mem_replicate hc
  rfl

/-- Digits without a sign are read as a natural number. -/
theorem intOfChars_of_isDigits (h : isDigits xs = true) : intOfChars xs = natOfDigits xs := by
  obtain ⟨c, cs, rfl, hc⟩ := exists_digit h
  unfold intOfChars
  split
  · rename_i he
    exact absurd (List.cons.inj he).1 (ne_of_isDigit hc rfl)
  · rename_i he
    exact absurd (List.cons.inj he).1 (ne_of_isDigit hc rfl)
  · rfl

/-- The text of an integer is an integer, and read as it. -/
theorem isInteger_toString (z : Int) : IsInteger (toString z).toList ∧ intOfChars (toString z).toList = z := by
  rw [Int.toString_eq_repr, Int.repr_eq_if]
  split
  · have hd := isDigits_toString z.toNat
    have hn := natOfDigits_toString z.toNat
    rw [Nat.toString_eq_repr] at hd hn
    refine ⟨@IsInteger.intro [] _ (.inl rfl) hd, ?_⟩
    rw [intOfChars_of_isDigits hd, hn]
    omega
  · have hd := isDigits_toString (-z).toNat
    have hn := natOfDigits_toString (-z).toNat
    rw [Nat.toString_eq_repr] at hd hn
    rw [String.toList_append]
    refine ⟨.intro (.inr rfl) hd, ?_⟩
    show -(natOfDigits (-z).toNat.repr.toList : Int) = z
    rw [hn]
    omega

end Decimal

theorem toList_pushn (s : String) (c : Char) (n : Nat) : (s.pushn c n).toList = s.toList ++ List.replicate n c := by
  rw [String.pushn_eq_repeat_push]
  induction n with
  | zero => exact (List.append_nil _).symm
  | succ n ih =>
    rw [Nat.repeat, String.toList_push, ih, List.append_assoc, ← List.replicate_succ']

/-! ## Layouts -/

namespace Layout

open Decimal

/-- The text of an exponent is a sign with digits behind it, and read as the exponent. -/
theorem exponentText_spec (style : Layout) (e : Int) :
    ∃ sign digits, (style.exponentText e).toList = sign ++ digits ∧ IsSign sign ∧ isDigits digits = true
      ∧ intOfChars (sign ++ digits) = e := by
  have hd := isDigits_append (isDigit_of_mem_zeros (n := style.exponentWidth - (toString e.natAbs).length))
    (isDigits_toString e.natAbs)
  have hn : natOfDigits (List.replicate (style.exponentWidth - (toString e.natAbs).length) '0'
      ++ (toString e.natAbs).toList) = e.natAbs := by
    rw [natOfDigits_append, natOfDigits_zeros, natOfDigits_toString]
    omega
  have ht : (style.exponentText e).toList = (if e < 0 then ['-'] else ['+'])
      ++ (List.replicate (style.exponentWidth - (toString e.natAbs).length) '0' ++ (toString e.natAbs).toList) := by
    unfold exponentText
    rw [String.toList_append, String.toList_append, toList_pushn, List.append_assoc]
    congr 1
    split <;> rfl
  refine ⟨_, _, ht, ?_, hd, ?_⟩
  · split
    · exact .inr (.inl rfl)
    · exact .inr (.inr rfl)
  · generalize List.replicate (style.exponentWidth - (toString e.natAbs).length) '0' ++ (toString e.natAbs).toList = ds
      at hn
    split
    · show -(natOfDigits ds : Int) = e
      rw [hn]
      omega
    · show (natOfDigits ds : Int) = e
      rw [hn]
      omega

/-- Behind a minus sign or alone, a text is a float with the value of `digits * 10 ^ exponent`. -/
def Reads (minus text : List Char) (digits : Nat) (exponent : Int) : Prop :=
  IsReal (minus ++ text) ∧ ∃ d e, ofChars? (minus ++ text) = some ⟨decide (minus = ['-']), d, e⟩
    ∧ (d : ℚ) * 10 ^ e = digits * 10 ^ exponent

variable {minus whole fraction : List Char} {digits : Nat} {exponent : Int}

/-- Digits with a point among them. -/
theorem reads_point (hm : IsMinus minus) (hw : isDigits whole = true) (hf : isDigits fraction = true)
    (hv : (natOfDigits (whole ++ fraction) : ℚ) * 10 ^ (-(fraction.length : Int)) = digits * 10 ^ exponent) :
    Reads minus (whole ++ '.' :: fraction) digits exponent := by
  have h := ofChars?_append_point hm hw hf stopsRun_nil (show Decimal.exponent? [] = some 0 from rfl)
  rw [List.append_nil] at h
  refine ⟨.intro hm hw (.point hf), _, _, h, ?_⟩
  rw [zero_sub]
  exact hv

/-- A digit, perhaps with a point and more digits behind it. -/
def leadingText (c : Char) (cs : List Char) : List Char := c :: if cs = [] then [] else '.' :: cs

/-- Leading digits with an exponent. -/
theorem reads_exponent (style : Layout) (hm : IsMinus minus) {c : Char} {cs : List Char} (hd : isDigits (c :: cs) = true)
    (exponent : Int) :
    Reads minus (leadingText c cs ++ 'e' :: (style.exponentText (exponent + cs.length)).toList)
      (natOfDigits (c :: cs)) exponent := by
  obtain ⟨sign, ds, ht, hs, hds, he⟩ := style.exponentText_spec (exponent + cs.length)
  obtain ⟨hdc, hdcs⟩ := List.forall_mem_cons.mp (isDigits_iff.mp hd).2
  have hc : isDigits [c] = true := isDigits_iff.mpr ⟨List.cons_ne_nil _ _, List.forall_mem_singleton.mpr hdc⟩
  have hexp := exponent?_of_isExponent (e := 'e') (.inl rfl) hs hds
  rw [he] at hexp
  rw [ht]
  unfold leadingText
  split
  · rename_i hcs
    subst hcs
    have h := ofChars?_append hm hc (.cons rfl) hexp
    refine ⟨.intro hm hc (.exponent (.intro (.inl rfl) hs hds)), _, _, h, ?_⟩
    rw [List.length_nil, Nat.cast_zero, add_zero]
  · rename_i hcs
    have hfraction : isDigits cs = true := isDigits_iff.mpr ⟨hcs, hdcs⟩
    have h := ofChars?_append_point hm hc hfraction (.cons rfl) hexp
    refine ⟨@IsReal.intro _ [c] _ hm hc (.pointExponent hfraction (.intro (.inl rfl) hs hds)), _, _, h, ?_⟩
    rw [add_sub_cancel_right]
    rfl

theorem toList_leading (text : String) {c : Char} {cs : List Char} (h : text.toList = c :: cs) :
    (String.ofList (text.toList.take 1) ++ (if String.ofList (text.toList.drop 1) = "" then ""
      else "." ++ String.ofList (text.toList.drop 1))).toList = leadingText c cs := by
  rw [h, String.toList_append, String.toList_ofList]
  unfold leadingText
  by_cases hcs : cs = []
  · subst hcs
    rfl
  · have hne : String.ofList ((c :: cs).drop 1) ≠ "" := by
      intro he
      exact hcs (by simpa using congrArg String.toList he)
    rw [if_neg hne, if_neg hcs]
    simp only [String.toList_append, String.toList_ofList, List.drop_succ_cons, List.drop_zero]
    rfl

/-- A decimal number is read back from its layout, whatever the style, as a number of the same value. -/
theorem magnitudeText_reads (style : Layout) (digits : Nat) (exponent : Int) (hm : IsMinus minus) :
    Reads minus (style.magnitudeText digits exponent).toList digits exponent := by
  have hd := isDigits_toString digits
  have hn := natOfDigits_toString digits
  obtain ⟨c, cs, hcs, -⟩ := exists_digit hd
  have hlen : (toString digits).length = cs.length + 1 := by
    rw [← String.length_toList, hcs, List.length_cons]
  unfold magnitudeText
  dsimp only
  rw [hlen]
  split
  · -- with an exponent
    rw [String.toList_append, String.toList_append, toList_leading _ hcs, List.append_assoc]
    rw [hcs] at hd hn
    have h := reads_exponent style hm hd exponent
    rw [hn] at h
    rw [show exponent + ((cs.length + 1 : Nat) : Int) - 1 = exponent + cs.length by push_cast; ring]
    exact h
  split
  · -- with zeros behind it
    rename_i hexp
    obtain ⟨n, rfl⟩ := Int.eq_ofNat_of_zero_le hexp
    rw [String.toList_append, toList_pushn, Int.toNat_natCast]
    show Reads minus ((toString digits).toList ++ List.replicate n '0' ++ '.' :: ['0']) digits n
    refine reads_point hm (isDigits_append_left hd isDigit_of_mem_zeros) rfl ?_
    rw [natOfDigits_append, natOfDigits_append, natOfDigits_zeros, hn, List.length_replicate]
    push_cast
    simp [natOfDigits, digitValue]
    ring
  rename_i hexp
  split
  · -- with the point among the digits
    rename_i hlead
    obtain ⟨hne, hall⟩ := isDigits_iff.mp hd
    have htext : (toString digits).toList.length = cs.length + 1 := hlen
    simp only [String.toList_append, String.toList_ofList, List.append_assoc]
    generalize hk : (exponent + ((cs.length + 1 : Nat) : Int) - 1 + 1).toNat = k
    have hpos : (toString digits).toList.take k ≠ [] := by
      rw [← List.length_pos_iff, List.length_take]
      omega
    have hrest : (toString digits).toList.drop k ≠ [] := by
      rw [← List.length_pos_iff, List.length_drop]
      omega
    show Reads minus ((toString digits).toList.take k ++ '.' :: (toString digits).toList.drop k) digits exponent
    refine reads_point hm (isDigits_iff.mpr ⟨hpos, fun c hc => hall c (List.mem_of_mem_take hc)⟩)
      (isDigits_iff.mpr ⟨hrest, fun c hc => hall c (List.mem_of_mem_drop hc)⟩) ?_
    rw [List.take_append_drop, hn, List.length_drop, htext]
    congr 2
    omega
  · -- with zeros in front
    rename_i hlead
    rw [String.toList_append, toList_pushn, List.append_assoc]
    have hfraction := isDigits_append (isDigit_of_mem_zeros
      (n := (-(exponent + ((cs.length + 1 : Nat) : Int) - 1) - 1).toNat)) hd
    show Reads minus (['0'] ++ '.' :: (List.replicate (-(exponent + ((cs.length + 1 : Nat) : Int) - 1) - 1).toNat '0'
      ++ (toString digits).toList)) digits exponent
    refine reads_point hm rfl hfraction ?_
    have htext : (toString digits).toList.length = cs.length + 1 := hlen
    rw [natOfDigits_append, natOfDigits_append, natOfDigits_zeros, hn, List.length_append, List.length_replicate, htext]
    simp [natOfDigits, digitValue]
    left
    omega

end Layout

/-! ## Float constants -/

namespace Binary64

theorem isFinite_iff (x : Binary64) : x.isFinite = true ↔ x.magnitude < infinityMagnitude := by
  rw [isFinite, decide_eq_true_eq]

/-- A finite value is that of its own magnitude. -/
theorem ofMagnitude_magnitude {x : Binary64} (hf : x.isFinite = true) : ofMagnitude x.negative x.magnitude = x := by
  have hlt := (isFinite_iff x).mp hf
  obtain ⟨negative, magnitude, hle⟩ := x
  unfold ofMagnitude
  congr 1
  exact Nat.min_eq_left (Nat.le_of_lt hlt)

/-- What is laid out as a float of the value's sign, and is in its interval, is read as it. -/
theorem reads_of_inInterval {x : Binary64} (hf : x.isFinite = true) (h0 : 0 < x.magnitude) {minus text : List Char}
    (hm : decide (minus = ['-']) = x.negative) {digits : Nat} {exponent : Int}
    (hr : Layout.Reads minus text digits exponent) (hx : InInterval x.magnitude (digits * (10 : ℚ) ^ exponent)) :
    IsReal (minus ++ text) ∧ Numeral.real? (minus ++ text) = some x := by
  obtain ⟨hreal, d, e, hd, hv⟩ := hr
  refine ⟨hreal, ?_⟩
  rw [← hv] at hx
  have hpos : 0 < d := by
    by_contra hz
    have hlower := hx.lower h0
    rw [Nat.eq_zero_of_not_pos hz, Nat.cast_zero, zero_mul] at hlower
    exact absurd hlower (not_le.mpr (zpow_pos (by norm_num) _))
  rw [Numeral.real?_of_ofChars? hreal hd, Decimal.toBinary64, hm,
    ofScaled_of_inInterval x.negative h0 ((isFinite_iff x).mp hf) hpos hx, ofMagnitude_magnitude hf]

/-- The text of a finite value is a float that is read as this value. -/
theorem text_reads {x : Binary64} (hf : x.isFinite = true) :
    IsReal x.text.toList ∧ Numeral.real? x.text.toList = some x := by
  have hsign : ∃ minus, (if x.negative then "-" else "").toList = minus ∧ IsMinus minus
      ∧ decide (minus = ['-']) = x.negative := by
    cases x.negative
    · exact ⟨[], rfl, .inl rfl, rfl⟩
    · exact ⟨['-'], rfl, .inr rfl, rfl⟩
  obtain ⟨minus, hs, hm, hneg⟩ := hsign
  unfold text
  dsimp only
  rw [if_pos hf, String.toList_append, hs]
  obtain h0 | h0 := Nat.eq_zero_or_pos x.magnitude
  · -- a zero keeps its sign
    have hz : x.shortest = ⟨x.negative, 0, 0⟩ := by
      unfold shortest
      rw [if_pos h0]
    rw [hz, if_pos rfl]
    have h := Decimal.ofChars?_append_point hm (show Decimal.isDigits ['0'] = true from rfl)
      (show Decimal.isDigits ['0'] = true from rfl) stopsRun_nil (show Decimal.exponent? [] = some 0 from rfl)
    have hreal : IsReal (minus ++ (['0'] ++ '.' :: ['0'])) := .intro hm rfl (.point rfl)
    refine ⟨hreal, (Numeral.real?_of_ofChars? hreal h).trans ?_⟩
    rw [Decimal.toBinary64, hneg, ← ofMagnitude_magnitude hf, h0]
    rfl
  · obtain ⟨hd, hx⟩ := shortest_inInterval hf h0
    rw [if_neg hd.ne']
    exact reads_of_inInterval hf h0 hneg (constantLayout.magnitudeText_reads _ _ hm) hx

end Binary64

end FlatScope
