/-
  How lexemes are spelled. The scanner finds a lexeme by its length; here the texts themselves are described. What a
  text starts with is spelled so (`real?_spelled` and its siblings), and a text that is spelled so is found, as long as
  what follows does not go on with it (`real?_append` and its siblings). `Kind.Spells` says which texts a
  token of a kind can have.
-/
import Mathlib.Data.List.TakeWhile
import FlatScope.Token.Lexeme
import FlatScope.Number.Decimal

namespace FlatScope.Lexeme

variable {p : Char → Bool} {xs cs rest : List Char} {n : Nat}

/-! ## Runs -/

/-- A text starts with no character of a class. -/
def StopsRun (p : Char → Bool) (cs : List Char) : Prop := ∀ c ∈ cs.head?, p c = false

theorem stopsRun_nil : StopsRun p [] := nofun

theorem StopsRun.cons {c : Char} (h : p c = false) : StopsRun p (c :: cs) := by
  intro c' hc
  obtain rfl := Option.some.inj hc
  exact h

theorem StopsRun.takeWhile (h : StopsRun p rest) : rest.takeWhile p = [] := by
  cases rest with
  | nil => rfl
  | cons c rest => rw [List.takeWhile_cons, if_neg (by rw [h c rfl]; exact Bool.false_ne_true)]

theorem run_append (h : ∀ c ∈ xs, p c = true) (hr : StopsRun p rest) : run p (xs ++ rest) = xs.length := by
  rw [run, List.takeWhile_append_of_pos h, hr.takeWhile, List.append_nil]

theorem run?_append (hne : xs ≠ []) (h : ∀ c ∈ xs, p c = true) (hr : StopsRun p rest) :
    run? p (xs ++ rest) = some xs.length := by
  rw [run?, run_append h hr, if_neg]
  exact fun h => hne (List.length_eq_zero_iff.mp h)

theorem run?_eq_none (hr : StopsRun p rest) : run? p rest = none := by
  rw [run?, if_pos]
  rw [run, hr.takeWhile]
  rfl

theorem take_run : cs.take (run p cs) = cs.takeWhile p :=
  (List.prefix_iff_eq_take.mp (List.takeWhile_prefix p)).symm

/-- A run is found as long as it is. -/
theorem run?_spelled (h : run? p cs = some n) : cs.take n ≠ [] ∧ ∀ c ∈ cs.take n, p c = true := by
  unfold run? at h
  split at h
  · cases h
  · rename_i hpos
    obtain rfl := Option.some.inj h
    rw [take_run]
    exact ⟨fun he => hpos (by rw [run, he]; rfl), fun c hc => List.mem_takeWhile_imp hc⟩

/-! ## Digits -/

theorem isDigits_iff : Decimal.isDigits xs = true ↔ xs ≠ [] ∧ ∀ c ∈ xs, c.isDigit = true := by
  rw [Decimal.isDigits, Bool.and_eq_true, List.all_eq_true, Bool.not_eq_true', List.isEmpty_eq_false_iff]

theorem digits_append (h : Decimal.isDigits xs = true) (hr : StopsRun Char.isDigit rest) :
    run? Char.isDigit (xs ++ rest) = some xs.length := by
  obtain ⟨hne, hd⟩ := isDigits_iff.mp h
  exact run?_append hne hd hr

theorem digits_spelled (h : run? Char.isDigit cs = some n) : Decimal.isDigits (cs.take n) = true :=
  isDigits_iff.mpr (run?_spelled h)

/-- Some digits begin with a digit. -/
theorem exists_digit (h : Decimal.isDigits xs = true) : ∃ c cs, xs = c :: cs ∧ c.isDigit = true := by
  obtain ⟨hne, hd⟩ := isDigits_iff.mp h
  obtain ⟨c, cs, rfl⟩ := List.exists_cons_of_ne_nil hne
  exact ⟨c, cs, rfl, hd c List.mem_cons_self⟩

/-- A digit is none of the characters that are tested for one by one. -/
theorem ne_of_isDigit {c d : Char} (h : c.isDigit = true) (hd : d.isDigit = false) : c ≠ d := by
  rintro rfl
  rw [h] at hd
  cases hd

theorem minus_of_isDigits (h : Decimal.isDigits xs = true) : minus (xs ++ rest) = 0 := by
  obtain ⟨c, cs, rfl, hc⟩ := exists_digit h
  unfold minus
  split
  · rename_i he
    obtain ⟨rfl, -⟩ := List.cons.inj he
    cases hc
  · rfl

theorem sign_of_isDigits (h : Decimal.isDigits xs = true) : sign (xs ++ rest) = 0 := by
  obtain ⟨c, cs, rfl, hc⟩ := exists_digit h
  unfold sign
  split
  · rename_i he
    obtain ⟨rfl, -⟩ := List.cons.inj he
    cases hc
  · rename_i he
    obtain ⟨rfl, -⟩ := List.cons.inj he
    cases hc
  · rfl

/-! ## Numbers -/

/-- A minus sign or nothing. -/
def IsMinus (xs : List Char) : Prop := xs = [] ∨ xs = ['-']

/-- A sign or nothing. -/
def IsSign (xs : List Char) : Prop := xs = [] ∨ xs = ['-'] ∨ xs = ['+']

/-- An exponent. -/
inductive IsExponent : List Char → Prop
  | intro {e : Char} {sign digits : List Char} (he : e = 'e' ∨ e = 'E') (hs : IsSign sign)
    (hd : Decimal.isDigits digits = true) : IsExponent (e :: (sign ++ digits))

/-- What makes digits a float. -/
inductive IsFraction : List Char → Prop
  | point {digits : List Char} (hd : Decimal.isDigits digits = true) : IsFraction ('.' :: digits)
  | pointExponent {digits exponent : List Char} (hd : Decimal.isDigits digits = true) (he : IsExponent exponent) :
    IsFraction ('.' :: (digits ++ exponent))
  | exponent {exponent : List Char} (he : IsExponent exponent) : IsFraction exponent

/-- A float. -/
inductive IsReal : List Char → Prop
  | intro {minus digits fraction : List Char} (hm : IsMinus minus) (hd : Decimal.isDigits digits = true)
    (hf : IsFraction fraction) : IsReal (minus ++ (digits ++ fraction))

/-- An integer. -/
inductive IsInteger : List Char → Prop
  | intro {minus digits : List Char} (hm : IsMinus minus) (hd : Decimal.isDigits digits = true) :
    IsInteger (minus ++ digits)

/-- A byte in digits. -/
inductive IsByte : List Char → Prop
  | intro {digits : List Char} (hd : Decimal.isDigits digits = true) : IsByte (digits ++ ['b'])

theorem minus_append (hm : IsMinus xs) (hd : Decimal.isDigits cs = true) :
    minus (xs ++ (cs ++ rest)) = xs.length := by
  obtain rfl | rfl := hm
  · exact @minus_of_isDigits cs rest hd
  · rfl

theorem sign_append (hs : IsSign xs) (hd : Decimal.isDigits cs = true) : sign (xs ++ (cs ++ rest)) = xs.length := by
  obtain rfl | rfl | rfl := hs
  · exact @sign_of_isDigits cs rest hd
  · rfl
  · rfl

theorem minus_spelled (cs : List Char) : IsMinus (cs.take (minus cs)) := by
  unfold minus
  split
  · exact .inr rfl
  · exact .inl rfl

theorem sign_spelled (cs : List Char) : IsSign (cs.take (sign cs)) := by
  unfold sign
  split
  · exact .inr (.inl rfl)
  · exact .inr (.inr rfl)
  · exact .inl rfl

theorem exponent?_append (h : IsExponent xs) (hr : StopsRun Char.isDigit rest) :
    exponent? (xs ++ rest) = some xs.length := by
  obtain @⟨e, sg, ds, he, hs, hd⟩ := h
  rw [List.cons_append, List.append_assoc, exponent?, if_pos he, sign_append hs hd, List.drop_left,
    digits_append hd hr, Option.map_some, List.length_cons, List.length_append]
  congr 1
  omega

theorem exponent?_spelled (h : exponent? cs = some n) : IsExponent (cs.take n) := by
  unfold exponent? at h
  split at h
  · rename_i c cs
    split at h
    · rename_i he
      obtain ⟨m, hm, rfl⟩ := Option.map_eq_some_iff.mp h
      rw [show 1 + sign cs + m = sign cs + m + 1 by omega, List.take_succ_cons, List.take_add]
      exact .intro he (sign_spelled cs) (digits_spelled hm)
    · cases h
  · cases h

/-! ## Ends -/

/-- No number and no word that stands in front of a text can go on in it. -/
def Ends (cs : List Char) : Prop := StopsRun (fun c => isWordChar c || c = '.') cs

theorem Ends.stopsRun (h : Ends rest) (hp : ∀ c, p c = true → isWordChar c = true) : StopsRun p rest := by
  intro c hc
  have hw := h c hc
  rw [Bool.or_eq_false_iff] at hw
  rw [← Bool.not_eq_true]
  exact fun hpc => Bool.false_ne_true (hw.1.symm.trans (hp c hpc))

theorem Ends.digits (h : Ends rest) : StopsRun Char.isDigit rest :=
  h.stopsRun fun c hc => by simp [isWordChar, hc]

theorem Ends.word (h : Ends rest) : StopsRun isWordChar rest := h.stopsRun fun _ hc => hc

theorem Ends.head_ne {c d : Char} (h : Ends (c :: rest)) (hd : (isWordChar d || d = '.') = true) : c ≠ d := by
  rintro rfl
  have hc : (isWordChar c || c = '.') = false := h c rfl
  rw [hc] at hd
  cases hd

theorem Ends.exponent? (h : Ends rest) : exponent? rest = none := by
  cases rest with
  | nil => rfl
  | cons c rest =>
    refine if_neg ?_
    rintro (rfl | rfl)
    · exact h.head_ne rfl rfl
    · exact h.head_ne rfl rfl

theorem Ends.fraction? (h : Ends rest) : fraction? rest = none := by
  unfold Lexeme.fraction?
  split
  · exact absurd rfl (h.head_ne rfl)
  · exact h.exponent?

theorem ends_nil : Ends [] := stopsRun_nil

theorem Ends.cons {c : Char} (h : (isWordChar c || c = '.') = false) : Ends (c :: cs) := StopsRun.cons h

/-! ## Numbers at the start of a text -/

theorem IsExponent.stopsDigits (h : IsExponent xs) : StopsRun Char.isDigit (xs ++ rest) := by
  obtain @⟨e, sg, ds, he, hs, hd⟩ := h
  obtain rfl | rfl := he
  · exact .cons rfl
  · exact .cons rfl

theorem IsFraction.stopsDigits (h : IsFraction xs) : StopsRun Char.isDigit (xs ++ rest) := by
  cases h with
  | point hd => exact .cons rfl
  | pointExponent hd he => exact .cons rfl
  | exponent he => exact he.stopsDigits

theorem fraction?_append (h : IsFraction xs) (hr : Ends rest) : fraction? (xs ++ rest) = some xs.length := by
  cases h with
  | @point ds hd =>
    rw [List.cons_append, fraction?, digits_append hd hr.digits, Option.map_some, List.drop_left, hr.exponent?,
      Option.getD_none, List.length_cons]
    congr 1
    omega
  | @pointExponent ds ex hd he =>
    rw [List.cons_append, fraction?, List.append_assoc, digits_append hd he.stopsDigits, Option.map_some,
      List.drop_left, exponent?_append he hr.digits, Option.getD_some, List.length_cons, List.length_append]
    congr 1
    omega
  | exponent he =>
    unfold fraction?
    split
    · rename_i hx
      obtain @⟨e, sg, ds, he, -, -⟩ := he
      obtain ⟨rfl, -⟩ := List.cons.inj hx
      obtain h | h := he
      · exact absurd h (by decide)
      · exact absurd h (by decide)
    · exact exponent?_append he hr.digits

theorem fraction?_spelled (h : fraction? cs = some n) : IsFraction (cs.take n) := by
  unfold fraction? at h
  split at h
  · rename_i cs
    obtain ⟨m, hm, rfl⟩ := Option.map_eq_some_iff.mp h
    cases hx : exponent? (cs.drop m) with
    | none =>
      rw [Option.getD_none, Nat.add_zero, Nat.add_comm, List.take_succ_cons]
      exact .point (digits_spelled hm)
    | some k =>
      rw [Option.getD_some, show 1 + m + k = m + k + 1 by omega, List.take_succ_cons, List.take_add]
      exact .pointExponent (digits_spelled hm) (exponent?_spelled hx)
  · exact .exponent (exponent?_spelled h)

theorem real?_append (h : IsReal xs) (hr : Ends rest) : real? (xs ++ rest) = some xs.length := by
  obtain @⟨m, ds, fr, hm, hd, hf⟩ := h
  have hdigits : run? Char.isDigit ((m ++ (ds ++ (fr ++ rest))).drop m.length) = some ds.length := by
    rw [List.drop_left]
    exact digits_append hd hf.stopsDigits
  have hfraction : fraction? ((m ++ (ds ++ (fr ++ rest))).drop (m.length + ds.length)) = some fr.length := by
    rw [← List.drop_drop, List.drop_left, List.drop_left]
    exact fraction?_append hf hr
  rw [real?, List.append_assoc, List.append_assoc, minus_append hm hd, hdigits]
  show (fraction? _).bind _ = _
  rw [hfraction, List.length_append, List.length_append, ← Nat.add_assoc]
  rfl

theorem real?_spelled (h : real? cs = some n) : IsReal (cs.take n) := by
  simp only [real?, bind, Option.bind_eq_some_iff, pure, Option.some.injEq] at h
  obtain ⟨a, ha, b, hb, rfl⟩ := h
  rw [Nat.add_assoc, List.take_add, List.take_add, List.drop_drop]
  exact .intro (minus_spelled cs) (digits_spelled ha) (fraction?_spelled hb)

theorem real?_eq_none (hm : minus cs = 0) (hd : StopsRun Char.isDigit cs) : real? cs = none := by
  rw [real?, hm, List.drop_zero, run?_eq_none hd]
  rfl

theorem integer?_append (h : IsInteger xs) (hr : Ends rest) : integer? (xs ++ rest) = some xs.length := by
  obtain @⟨m, ds, hm, hd⟩ := h
  rw [integer?, List.append_assoc, minus_append hm hd, List.drop_left, digits_append hd hr.digits,
    Option.map_some, List.length_append]

theorem integer?_spelled (h : integer? cs = some n) : IsInteger (cs.take n) := by
  obtain ⟨m, hm, rfl⟩ := Option.map_eq_some_iff.mp h
  rw [List.take_add]
  exact .intro (minus_spelled cs) (digits_spelled hm)

theorem integer?_eq_none (hm : minus cs = 0) (hd : StopsRun Char.isDigit cs) : integer? cs = none := by
  rw [integer?, hm, List.drop_zero, run?_eq_none hd]
  rfl

/-- An integer is not the beginning of a float, unless it goes on. -/
theorem IsInteger.real?_eq_none (h : IsInteger xs) (hr : fraction? rest = none) (hd : StopsRun Char.isDigit rest) :
    real? (xs ++ rest) = none := by
  obtain @⟨m, ds, hm, hds⟩ := h
  have hdigits : run? Char.isDigit ((m ++ (ds ++ rest)).drop m.length) = some ds.length := by
    rw [List.drop_left]
    exact digits_append hds hd
  have hfraction : fraction? ((m ++ (ds ++ rest)).drop (m.length + ds.length)) = none := by
    rw [← List.drop_drop, List.drop_left, List.drop_left]
    exact hr
  rw [real?, List.append_assoc, minus_append hm hds, hdigits]
  show (fraction? _).bind _ = _
  rw [hfraction]
  rfl

theorem byte?_append (h : IsByte xs) (hr : StopsRun isWordChar rest) : byte? (xs ++ rest) = some xs.length := by
  obtain @⟨ds, hd⟩ := h
  have hdigits : run? Char.isDigit (ds ++ (['b'] ++ rest)) = some ds.length := digits_append hd (.cons rfl)
  rw [byte?, List.append_assoc, hdigits, List.length_append]
  simp only [bind, Option.bind_some, List.drop_left]
  cases rest with
  | nil => rfl
  | cons c rest =>
    show (if isWordChar c = true then _ else _) = _
    rw [if_neg (by rw [hr c rfl]; exact Bool.false_ne_true)]
    rfl

theorem byte?_spelled (h : byte? cs = some n) : IsByte (cs.take n) := by
  simp only [byte?, bind, Option.bind_eq_some_iff] at h
  obtain ⟨a, ha, h⟩ := h
  have hb : n = a + 1 ∧ (cs.drop a).take 1 = ['b'] := by
    split at h
    · rename_i hx
      exact ⟨(Option.some.inj h).symm, by rw [hx]; rfl⟩
    · rename_i hx
      split at h
      · cases h
      · exact ⟨(Option.some.inj h).symm, by rw [hx]; rfl⟩
    · cases h
  rw [hb.1, List.take_add, hb.2]
  exact .intro (digits_spelled ha)

theorem byte?_eq_none (hd : StopsRun Char.isDigit cs) : byte? cs = none := by
  rw [byte?, run?_eq_none hd]
  rfl

/-- An integer is not the beginning of a byte, unless it goes on. -/
theorem IsInteger.byte?_eq_none (h : IsInteger xs) (hr : Ends rest) : byte? (xs ++ rest) = none := by
  obtain @⟨m, ds, hm, hd⟩ := h
  obtain rfl | rfl := hm
  · have hdigits : run? Char.isDigit (ds ++ rest) = some ds.length := digits_append hd hr.digits
    rw [List.nil_append, byte?, hdigits]
    simp only [bind, Option.bind_some, List.drop_left]
    split
    · exact absurd rfl (hr.head_ne rfl)
    · exact absurd rfl (hr.head_ne rfl)
    · rfl
  · exact Lexeme.byte?_eq_none (.cons rfl)

/-! ## Words -/

/-- A letter with letters, digits and underscores behind it. -/
inductive IsWord : List Char → Prop
  | intro {c : Char} {tail : List Char} (hc : c.isAlpha = true) (ht : ∀ d ∈ tail, isWordChar d = true) :
    IsWord (c :: tail)

theorem word?_append (h : IsWord xs) (hr : StopsRun isWordChar rest) : word? (xs ++ rest) = some xs.length := by
  obtain @⟨c, tail, hc, ht⟩ := h
  rw [List.cons_append, word?, if_pos hc, run_append ht hr, List.length_cons, Nat.add_comm]

theorem word?_spelled (h : word? cs = some n) : IsWord (cs.take n) := by
  unfold word? at h
  split at h
  · rename_i c cs
    split at h
    · rename_i hc
      obtain rfl := Option.some.inj h
      rw [Nat.add_comm, List.take_succ_cons, take_run]
      exact .intro hc fun d hd => List.mem_takeWhile_imp hd
    · cases h
  · cases h

theorem builtin?_append (h : IsWord xs) (hr : StopsRun isWordChar rest) :
    builtin? ('_' :: xs ++ rest) = some (xs.length + 1) := by
  rw [List.cons_append, builtin?, word?_append h hr, Option.map_some, Nat.add_comm]

theorem builtin?_spelled (h : builtin? cs = some n) : ∃ xs, cs.take n = '_' :: xs ∧ IsWord xs := by
  unfold builtin? at h
  split at h
  · rename_i cs
    obtain ⟨m, hm, rfl⟩ := Option.map_eq_some_iff.mp h
    exact ⟨cs.take m, by rw [Nat.add_comm, List.take_succ_cons], word?_spelled hm⟩
  · cases h

/-- Letters are no digits. -/
theorem isDigit_of_isAlpha {c : Char} (h : c.isAlpha = true) : c.isDigit = false := by
  have hrange : (decide (65 ≤ c.val ∧ c.val ≤ 90) || (decide (97 ≤ c.val) && decide (c.val ≤ 122))) = true := h
  simp only [Bool.or_eq_true, Bool.and_eq_true, decide_eq_true_eq] at hrange
  simp only [Char.isDigit, Bool.and_eq_false_imp, decide_eq_true_eq, decide_eq_false_iff_not]
  intro _
  obtain h | h := hrange
  · exact UInt32.not_le.mpr (UInt32.lt_of_lt_of_le (by decide) h.1)
  · exact UInt32.not_le.mpr (UInt32.lt_of_lt_of_le (by decide) h.1)

end FlatScope.Lexeme
