/-
  The values of spelled literals. A numeral that is spelled as the scanner wants it is plain already (`plain?_eq_self`),
  and it has a value: an integer that of its digits (`int?_of_isInteger`), and a float that of its decimal number
  (`ofChars?_append`). So no token that spells its kind is at fault (`Token.literalFault?_eq_none`).
-/
import FlatScope.Proofs.Token.First
import FlatScope.Token.Literal

namespace FlatScope

open Lexeme

variable {xs cs : List Char}

/-! ## Plain numerals -/

namespace Numeral

/-- The characters of the numerals that are scanned. -/
def isNumeralChar (c : Char) : Bool := c.isDigit || ['-', '+', '.', 'e', 'E'].contains c

theorem isNumeralChar_of_isDigit {c : Char} (h : c.isDigit = true) : isNumeralChar c = true := by
  rw [isNumeralChar, h, Bool.true_or]

theorem toNat_of_isDigit {c : Char} (h : c.isDigit = true) : 48 ≤ c.toNat ∧ c.toNat ≤ 57 := by
  simp only [Char.isDigit, Bool.and_eq_true, decide_eq_true_eq] at h
  exact ⟨UInt32.le_iff_toNat_le.mp h.1, UInt32.le_iff_toNat_le.mp h.2⟩

theorem isBlank_of_isNumeralChar {c : Char} (h : isNumeralChar c = true) : isBlank c = false := by
  rw [isNumeralChar, Bool.or_eq_true, List.contains_iff_mem] at h
  obtain h | h := h
  · obtain ⟨hl, hu⟩ := toNat_of_isDigit h
    have hranges : ∀ r ∈ blankRanges, r.2 < 48 ∨ 57 < r.1 := by decide
    rw [isBlank, List.any_eq_false]
    intro r hr
    have hr := hranges r hr
    rw [Bool.and_eq_true, decide_eq_true_eq, decide_eq_true_eq]
    omega
  · simp only [List.mem_cons, List.not_mem_nil, or_false] at h
    obtain rfl | rfl | rfl | rfl | rfl := h <;> decide

theorem plainDigit_of_isNumeralChar {c : Char} (h : isNumeralChar c = true) : plainDigit c = c := by
  rw [isNumeralChar, Bool.or_eq_true, List.contains_iff_mem] at h
  obtain h | h := h
  · obtain ⟨hl, hu⟩ := toNat_of_isDigit h
    rw [plainDigit, digitValue?_of_isDigit h]
    show Char.ofNat ('0'.toNat + (c.toNat - '0'.toNat)) = c
    rw [Nat.add_sub_of_le (show '0'.toNat ≤ c.toNat from hl), Char.ofNat_toNat]
  · simp only [List.mem_cons, List.not_mem_nil, or_false] at h
    obtain rfl | rfl | rfl | rfl | rfl := h <;> decide

theorem ne_underscore_of_isNumeralChar {c : Char} (h : isNumeralChar c = true) : c ≠ '_' := by
  rintro rfl
  cases h

theorem trimBlanks_eq_self (h : ∀ c ∈ cs, isBlank c = false) : trimBlanks cs = cs := by
  have hdrop : ∀ ds : List Char, (∀ c ∈ ds, isBlank c = false) → ds.dropWhile isBlank = ds := by
    intro ds hd
    cases ds with
    | nil => rfl
    | cons d ds =>
      rw [List.dropWhile_cons, if_neg]
      rw [hd d List.mem_cons_self]
      exact Bool.false_ne_true
  rw [trimBlanks, hdrop cs h, hdrop cs.reverse fun c hc => h c (List.mem_reverse.mp hc), List.reverse_reverse]

theorem joinDigits?_eq_self (h : ∀ c ∈ cs, c ≠ '_') (behind : Bool) : joinDigits? behind cs = some cs := by
  induction cs generalizing behind with
  | nil => rfl
  | cons c cs ih =>
    have hc : c ≠ '_' := h c List.mem_cons_self
    rw [joinDigits?, ih fun d hd => h d (List.mem_cons_of_mem _ hd)]
    · rfl
    · exact fun he _ => hc he
    · exact fun _ _ he _ => hc he

theorem plain?_eq_self (h : ∀ c ∈ cs, isNumeralChar c = true) : plain? cs = some cs := by
  have hmap : cs.map plainDigit = cs := by
    rw [List.map_congr_left fun c hc => plainDigit_of_isNumeralChar (h c hc), List.map_id']
  rw [plain?, trimBlanks_eq_self fun c hc => isBlank_of_isNumeralChar (h c hc), hmap]
  exact joinDigits?_eq_self (fun c hc => ne_underscore_of_isNumeralChar (h c hc)) false

/-! ## The characters of spelled numbers -/

theorem isNumeralChar_of_mem_digits (h : Decimal.isDigits xs = true) : ∀ c ∈ xs, isNumeralChar c = true :=
  fun c hc => isNumeralChar_of_isDigit ((isDigits_iff.mp h).2 c hc)

theorem isNumeralChar_of_mem_minus (h : IsMinus xs) : ∀ c ∈ xs, isNumeralChar c = true := by
  obtain rfl | rfl := h <;> exact List.all_eq_true.mp rfl

theorem isNumeralChar_of_mem_sign (h : IsSign xs) : ∀ c ∈ xs, isNumeralChar c = true := by
  obtain rfl | rfl | rfl := h <;> exact List.all_eq_true.mp rfl

theorem isNumeralChar_of_mem_append {ys : List Char} (hx : ∀ c ∈ xs, isNumeralChar c = true)
    (hy : ∀ c ∈ ys, isNumeralChar c = true) : ∀ c ∈ xs ++ ys, isNumeralChar c = true :=
  List.forall_mem_append.mpr ⟨hx, hy⟩

theorem isNumeralChar_of_mem_exponent (h : IsExponent xs) : ∀ c ∈ xs, isNumeralChar c = true := by
  obtain @⟨e, sg, ds, he, hs, hd⟩ := h
  refine List.forall_mem_cons.mpr ⟨?_, isNumeralChar_of_mem_append (isNumeralChar_of_mem_sign hs)
    (isNumeralChar_of_mem_digits hd)⟩
  obtain rfl | rfl := he <;> rfl

theorem isNumeralChar_of_mem_fraction (h : IsFraction xs) : ∀ c ∈ xs, isNumeralChar c = true := by
  cases h with
  | point hd => exact List.forall_mem_cons.mpr ⟨rfl, isNumeralChar_of_mem_digits hd⟩
  | pointExponent hd he =>
    exact List.forall_mem_cons.mpr ⟨rfl, isNumeralChar_of_mem_append (isNumeralChar_of_mem_digits hd)
      (isNumeralChar_of_mem_exponent he)⟩
  | exponent he => exact isNumeralChar_of_mem_exponent he

theorem isNumeralChar_of_mem_integer (h : IsInteger xs) : ∀ c ∈ xs, isNumeralChar c = true := by
  obtain ⟨hm, hd⟩ := h
  exact isNumeralChar_of_mem_append (isNumeralChar_of_mem_minus hm) (isNumeralChar_of_mem_digits hd)

theorem isNumeralChar_of_mem_real (h : IsReal xs) : ∀ c ∈ xs, isNumeralChar c = true := by
  obtain ⟨hm, hd, hf⟩ := h
  exact isNumeralChar_of_mem_append (isNumeralChar_of_mem_minus hm)
    (isNumeralChar_of_mem_append (isNumeralChar_of_mem_digits hd) (isNumeralChar_of_mem_fraction hf))

end Numeral

/-! ## Decimal numbers -/

namespace Decimal

/-- What begins with a digit has no sign. -/
theorem splitSign_of_isDigit {c : Char} (h : c.isDigit = true) : splitSign (c :: cs) = (false, c :: cs) := by
  unfold splitSign
  split
  · rename_i he
    exact absurd (List.cons.inj he).1 (ne_of_isDigit h rfl)
  · rename_i he
    exact absurd (List.cons.inj he).1 (ne_of_isDigit h rfl)
  · rfl

theorem splitSign_append (hm : IsMinus xs) (hd : isDigits cs = true) (rest : List Char) :
    splitSign (xs ++ (cs ++ rest)) = (decide (xs = ['-']), cs ++ rest) := by
  obtain ⟨c, tail, rfl, hc⟩ := exists_digit hd
  obtain rfl | rfl := hm
  · exact splitSign_of_isDigit hc
  · rfl

theorem splitSign_exponent (hs : IsSign xs) (hd : isDigits cs = true) : (splitSign (xs ++ cs)).2 = cs := by
  obtain ⟨c, tail, rfl, hc⟩ := exists_digit hd
  obtain rfl | rfl | rfl := hs
  · rw [List.nil_append, splitSign_of_isDigit hc]
  · rfl
  · rfl

theorem exponent?_of_isExponent {e : Char} {sign digits : List Char} (he : e = 'e' ∨ e = 'E') (hs : IsSign sign)
    (hd : isDigits digits = true) : exponent? (e :: (sign ++ digits)) = some (intOfChars (sign ++ digits)) := by
  rw [exponent?, splitSign_exponent hs hd, if_pos ⟨he, hd⟩]

theorem takeWhile_digits (h : isDigits xs = true) (hr : StopsRun Char.isDigit cs) :
    (xs ++ cs).takeWhile Char.isDigit = xs := by
  rw [List.takeWhile_append_of_pos (isDigits_iff.mp h).2, hr.takeWhile, List.append_nil]

theorem dropWhile_digits (h : isDigits xs = true) (hr : StopsRun Char.isDigit cs) :
    (xs ++ cs).dropWhile Char.isDigit = cs := by
  have ht := List.takeWhile_append_dropWhile (p := Char.isDigit) (l := xs ++ cs)
  rw [takeWhile_digits h hr] at ht
  exact List.append_cancel_left ht

/-- A number without a point. -/
theorem ofChars?_append {minus digits rest : List Char} {e : Int} (hm : IsMinus minus)
    (hd : isDigits digits = true) (hr : StopsRun (fun c => c.isDigit || c = '.') rest) (he : exponent? rest = some e) :
    ofChars? (minus ++ (digits ++ rest)) = some ⟨decide (minus = ['-']), natOfDigits digits, e⟩ := by
  have hstop : StopsRun Char.isDigit rest := fun c hc => (Bool.or_eq_false_iff.mp (hr c hc)).1
  have hsplit : splitFraction rest = ([], rest) := by
    unfold splitFraction
    split
    · cases hr '.' rfl
    · rfl
  have hne : digits.isEmpty = false := List.isEmpty_eq_false_iff.mpr (isDigits_iff.mp hd).1
  simp only [ofChars?, splitSign_append hm hd, takeWhile_digits hd hstop, dropWhile_digits hd hstop, hsplit, he,
    Option.bind_eq_bind, Option.bind_some, hne, Bool.false_and, List.append_nil, List.length_nil]
  simp

/-- A number with digits behind a point. -/
theorem ofChars?_append_point {minus digits fraction rest : List Char} {e : Int} (hm : IsMinus minus)
    (hd : isDigits digits = true) (hf : isDigits fraction = true) (hr : StopsRun Char.isDigit rest)
    (he : exponent? rest = some e) :
    ofChars? (minus ++ (digits ++ '.' :: (fraction ++ rest)))
      = some ⟨decide (minus = ['-']), natOfDigits (digits ++ fraction), e - fraction.length⟩ := by
  have hsplit : splitFraction ('.' :: (fraction ++ rest)) = (fraction, rest) := by
    rw [splitFraction, takeWhile_digits hf hr, dropWhile_digits hf hr]
  have hstop : StopsRun Char.isDigit ('.' :: (fraction ++ rest)) := .cons rfl
  have hne : digits.isEmpty = false := List.isEmpty_eq_false_iff.mpr (isDigits_iff.mp hd).1
  simp only [ofChars?, splitSign_append hm hd, takeWhile_digits hd hstop, dropWhile_digits hd hstop, hsplit, he,
    Option.bind_eq_bind, Option.bind_some, hne, Bool.false_and]
  simp

end Decimal

/-! ## Values -/

namespace Numeral

theorem int?_of_isInteger (h : IsInteger xs) : int? xs = some (Decimal.intOfChars xs) := by
  have hp := plain?_eq_self (isNumeralChar_of_mem_integer h)
  obtain @⟨m, ds, hm, hd⟩ := h
  have hs : Decimal.isDigits (Decimal.splitSign (m ++ ds)).2 = true := by
    have hsplit := Decimal.splitSign_append hm hd []
    rw [List.append_nil] at hsplit
    rw [hsplit]
    exact hd
  rw [int?, hp]
  exact if_pos hs

theorem ofChars?_isSome (h : IsReal xs) : (Decimal.ofChars? xs).isSome := by
  obtain ⟨hm, hd, hf⟩ := h
  cases hf with
  | @point fs hf =>
    have h := Decimal.ofChars?_append_point hm hd hf stopsRun_nil (show Decimal.exponent? [] = some 0 from rfl)
    rw [List.append_nil] at h
    rw [h]
    rfl
  | pointExponent hf he =>
    have hstop := @IsExponent.stopsDigits _ [] he
    rw [List.append_nil] at hstop
    obtain ⟨he, hs, hx⟩ := he
    rw [Decimal.ofChars?_append_point hm hd hf hstop (Decimal.exponent?_of_isExponent he hs hx)]
    rfl
  | exponent he =>
    obtain ⟨he, hs, hx⟩ := he
    rw [Decimal.ofChars?_append hm hd (.cons (by obtain rfl | rfl := he <;> rfl))
      (Decimal.exponent?_of_isExponent he hs hx)]
    rfl

/-- A spelled float has the value of its decimal number. -/
theorem real?_of_ofChars? (h : IsReal xs) {d : Decimal} (hd : Decimal.ofChars? xs = some d) :
    real? xs = some d.toBinary64 := by
  simp only [real?, plain?_eq_self (isNumeralChar_of_mem_real h), bind, Option.bind_some, hd]

theorem real?_isSome (h : IsReal xs) : (real? xs).isSome := by
  obtain ⟨d, hd⟩ := Option.isSome_iff_exists.mp (ofChars?_isSome h)
  rw [real?_of_ofChars? h hd]
  rfl

end Numeral

/-! ## Literal tokens -/

namespace Token

/-- A token with a text of its kind. -/
def IsSpelled (t : Token) : Prop := t.kind.Spells t.lexeme.toList

variable {t : Token}

theorem readInt_of_isInteger (h : IsInteger t.lexeme.toList) :
    t.readInt = .ok (Decimal.intOfChars t.lexeme.toList) := by
  rw [readInt, Numeral.int?_of_isInteger h]

theorem readReal_of_isReal (h : IsReal t.lexeme.toList) : ∃ x, t.readReal = .ok x := by
  obtain ⟨x, hx⟩ := Option.isSome_iff_exists.mp (Numeral.real?_isSome h)
  exact ⟨x, by rw [readReal, hx]⟩

theorem readByte_of_isByte {ds : List Char} (ht : t.lexeme.toList = ds ++ ['b']) (hd : Decimal.isDigits ds = true) :
    t.readByte = .ok (Decimal.intOfChars ds) := by
  obtain ⟨c, tail, hc, hdigit⟩ := exists_digit hd
  have hint : Numeral.int? ds = some (Decimal.intOfChars ds) := Numeral.int?_of_isInteger (.intro (.inl rfl) hd)
  unfold readByte
  split
  · rename_i hx
    rw [ht, hc] at hx
    exact absurd (List.cons.inj hx).1 (ne_of_isDigit hdigit rfl)
  · rw [ht, List.dropLast_concat, hint]

theorem readByte_of_char? (h : char? t.lexeme.toList = some t.lexeme.toList.length) :
    ∃ n : Nat, t.readByte = .ok n := by
  unfold readByte
  generalize t.lexeme.toList = cs at h
  unfold char? at h
  split at h
  · rename_i c tail
    split at h
    · rename_i hc
      obtain rfl : tail = [] := List.length_eq_zero_iff.mp (by simpa using h)
      obtain ⟨d, hd⟩ := Option.isSome_iff_exists.mp hc
      exact ⟨d.toNat, by simp [readCharacter, hd]⟩
    · cases h
  · rename_i c tail _
    split at h
    · cases h
    · rename_i hc
      obtain rfl : tail = [] := List.length_eq_zero_iff.mp (by simpa using h)
      rw [not_or] at hc
      exact ⟨c.toNat, by simp [readCharacter, hc.1]⟩
  · cases h

/-- A token that spells its kind has a value if it is a literal. -/
theorem literalFault?_eq_none (h : t.IsSpelled) : t.literalFault? = none := by
  unfold IsSpelled at h
  unfold literalFault?
  cases hk : t.kind
  case integer =>
    rw [hk] at h
    have hi : IsInteger t.lexeme.toList := by simpa using integer?_spelled h
    simp only [readInt_of_isInteger hi]
  case real =>
    rw [hk] at h
    have hr : IsReal t.lexeme.toList := by simpa using real?_spelled h
    obtain ⟨x, hx⟩ := readReal_of_isReal hr
    simp only [hx]
  case byte =>
    rw [hk] at h
    have hb : IsByte t.lexeme.toList := by simpa using byte?_spelled h
    generalize ht : t.lexeme.toList = cs at hb
    obtain ⟨hd⟩ := hb
    simp only [readByte_of_isByte ht hd]
  case char =>
    rw [hk] at h
    obtain ⟨n, hn⟩ := readByte_of_char? h
    simp only [hn]
  all_goals rfl

end Token

end FlatScope
