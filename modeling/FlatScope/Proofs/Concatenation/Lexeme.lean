/-
  Lexemes in front of white space, a comment or a closing parenthesis. No number, no word and no mark goes on with what such a
  text begins with (`Lexeme.Closes`). No lexeme but white space takes in a newline, and none looks past one: what a text
  starts with does not depend on the lines behind it (`Lexeme.first_newline`).
-/
import FlatScope.Proofs.Token.First

namespace FlatScope.Lexeme

variable {p : Char → Bool} (cs rest : List Char)

/-! ## What closes a lexeme -/

/-- White space, the first character of a comment, and a closing parenthesis. -/
def isCloser (c : Char) : Bool := isSpace c || c = '/' || c = ')'

/-- A text is empty, or begins with a character that goes on with no lexeme in front of it. -/
def Closes (rest : List Char) : Prop := ∀ c ∈ rest.head?, isCloser c = true

theorem isCloser_iff {c : Char} : isCloser c = true ↔ isSpace c = true ∨ c = '/' ∨ c = ')' := by
  rw [isCloser, Bool.or_eq_true, Bool.or_eq_true, decide_eq_true_eq, decide_eq_true_eq, or_assoc]

theorem closes_nil : Closes [] := nofun

theorem closes_cons {c : Char} (h : isCloser c = true) (cs : List Char) : Closes (c :: cs) := by
  intro c' hc
  obtain rfl := Option.some.inj hc
  exact h

/-- What a lexeme goes on with does not close it. -/
theorem ne_of_isCloser {c d : Char} (h : isCloser c = true) (hd : isCloser d = false) : c ≠ d := by
  rintro rfl
  cases h.symm.trans hd

theorem isWordChar_of_isCloser {c : Char} (h : isCloser c = true) : isWordChar c = false := by
  obtain hs | rfl | rfl := isCloser_iff.mp h
  · simp only [isSpace, Bool.or_eq_true, decide_eq_true_eq] at hs
    obtain (((rfl | rfl) | rfl) | rfl) | rfl := hs <;> rfl
  · rfl
  · rfl

theorem isDigit_of_isCloser {c : Char} (h : isCloser c = true) : c.isDigit = false := by
  have hw := isWordChar_of_isCloser h
  rw [isWordChar, Bool.or_eq_false_iff, Bool.or_eq_false_iff] at hw
  exact hw.1.2

variable {rest}

theorem Closes.stopsRun (h : Closes rest) (hp : ∀ c, isCloser c = true → p c = false) : StopsRun p rest :=
  fun c hc => hp c (h c hc)

theorem Closes.digits (h : Closes rest) : StopsRun Char.isDigit rest := h.stopsRun fun _ => isDigit_of_isCloser

theorem Closes.word (h : Closes rest) : StopsRun isWordChar rest := h.stopsRun fun _ => isWordChar_of_isCloser

theorem Closes.ends (h : Closes rest) : Ends rest := h.stopsRun fun c hc => by
  rw [isWordChar_of_isCloser hc, Bool.false_or, decide_eq_false_iff_not]
  exact ne_of_isCloser hc rfl

/-! ## Runs -/

theorem takeWhile_closes (hr : StopsRun p rest) : (cs ++ rest).takeWhile p = cs.takeWhile p := by
  induction cs with
  | nil => exact hr.takeWhile
  | cons c cs ih => rw [List.cons_append, List.takeWhile_cons, List.takeWhile_cons, ih]

theorem run_closes (hr : StopsRun p rest) : run p (cs ++ rest) = run p cs := by
  rw [run, takeWhile_closes cs hr, run]

theorem run?_closes (hr : StopsRun p rest) : run? p (cs ++ rest) = run? p cs := by
  rw [run?, run_closes cs hr, run?]

theorem run_le (p : Char → Bool) (cs : List Char) : run p cs ≤ cs.length :=
  (List.takeWhile_prefix p).length_le

theorem run?_le {cs : List Char} {n : Nat} (h : run? p cs = some n) : n ≤ cs.length := by
  unfold run? at h
  split at h
  · cases h
  · exact Option.some.inj h ▸ run_le p cs

/-! ## Signs -/

theorem minus_closes (hr : Closes rest) : minus (cs ++ rest) = minus cs := by
  obtain _ | ⟨c, cs⟩ := cs
  · obtain _ | ⟨d, rest⟩ := rest
    · rfl
    · exact minus_eq_zero (ne_of_isCloser (hr d rfl) rfl)
  · by_cases hc : c = '-'
    · subst hc
      rfl
    · rw [List.cons_append, minus_eq_zero hc, minus_eq_zero hc]

theorem minus_le : minus cs ≤ cs.length := by
  unfold minus
  split
  · exact Nat.succ_le_succ (Nat.zero_le _)
  · exact Nat.zero_le _

theorem sign_eq_zero {c : Char} {cs : List Char} (h : c ≠ '-') (h' : c ≠ '+') : sign (c :: cs) = 0 := by
  unfold sign
  split
  · rename_i he
    exact absurd (List.cons.inj he).1 h
  · rename_i he
    exact absurd (List.cons.inj he).1 h'
  · rfl

/-- The sign is that of the first character. -/
theorem sign_cons_append (c : Char) (cs rest : List Char) : sign (c :: cs ++ rest) = sign (c :: cs) := by
  by_cases hc : c = '-' ∨ c = '+'
  · obtain rfl | rfl := hc
    · rfl
    · rfl
  · obtain ⟨hminus, hplus⟩ := not_or.mp hc
    rw [List.cons_append, sign_eq_zero hminus hplus, sign_eq_zero hminus hplus]

theorem sign_closes (hr : Closes rest) : sign (cs ++ rest) = sign cs := by
  obtain _ | ⟨c, cs⟩ := cs
  · obtain _ | ⟨d, rest⟩ := rest
    · rfl
    · exact sign_eq_zero (ne_of_isCloser (hr d rfl) rfl) (ne_of_isCloser (hr d rfl) rfl)
  · exact sign_cons_append c cs rest

theorem sign_le : sign cs ≤ cs.length := by
  unfold sign
  split
  · exact Nat.succ_le_succ (Nat.zero_le _)
  · exact Nat.succ_le_succ (Nat.zero_le _)
  · exact Nat.zero_le _

/-! ## Numbers -/

theorem exponent?_closes (hr : Closes rest) : exponent? (cs ++ rest) = exponent? cs := by
  cases cs with
  | nil => exact hr.ends.exponent?
  | cons c cs =>
    rw [List.cons_append, exponent?, exponent?, sign_closes cs hr, List.drop_append_of_le_length (sign_le cs),
      run?_closes _ hr.digits]

theorem fraction?_of_ne {c : Char} {cs : List Char} (h : c ≠ '.') : fraction? (c :: cs) = exponent? (c :: cs) := by
  unfold fraction?
  split
  · rename_i he
    exact absurd (List.cons.inj he).1 h
  · rfl

theorem fraction?_closes (hr : Closes rest) : fraction? (cs ++ rest) = fraction? cs := by
  cases cs with
  | nil => exact hr.ends.fraction?
  | cons c cs =>
    by_cases hc : c = '.'
    · subst hc
      rw [List.cons_append, fraction?, fraction?, run?_closes _ hr.digits]
      cases hn : run? Char.isDigit cs with
      | none => rfl
      | some n =>
        rw [Option.map_some, Option.map_some, List.drop_append_of_le_length (run?_le hn), exponent?_closes _ hr]
    · have hexponent := exponent?_closes (c :: cs) hr
      rw [List.cons_append] at hexponent ⊢
      rw [fraction?_of_ne hc, fraction?_of_ne hc, hexponent]

theorem real?_closes (hr : Closes rest) : real? (cs ++ rest) = real? cs := by
  rw [real?, real?, minus_closes cs hr, List.drop_append_of_le_length (minus_le cs), run?_closes _ hr.digits]
  cases hn : run? Char.isDigit (cs.drop (minus cs)) with
  | none => rfl
  | some n =>
    have hle := run?_le hn
    rw [List.length_drop] at hle
    have hminus := minus_le cs
    rw [Option.bind_eq_bind, Option.bind_some, Option.bind_some, List.drop_append_of_le_length (by omega),
      fraction?_closes _ hr]

theorem byte?_closes (hr : Closes rest) : byte? (cs ++ rest) = byte? cs := by
  rw [byte?, byte?, run?_closes _ hr.digits]
  cases hn : run? Char.isDigit cs with
  | none => rfl
  | some n =>
    rw [Option.bind_eq_bind, Option.bind_some, Option.bind_some, List.drop_append_of_le_length (run?_le hn)]
    obtain _ | ⟨d, _ | ⟨e, tail⟩⟩ := cs.drop n
    · obtain _ | ⟨d, rest⟩ := rest
      · rfl
      · simp [ne_of_isCloser (d := 'b') (hr d rfl) rfl]
    · by_cases hd : d = 'b'
      · subst hd
        obtain _ | ⟨e, rest⟩ := rest
        · rfl
        · simp [isWordChar_of_isCloser (hr e rfl)]
      · simp [hd]
    · by_cases hd : d = 'b'
      · subst hd
        rfl
      · simp [hd]

theorem integer?_closes (hr : Closes rest) : integer? (cs ++ rest) = integer? cs := by
  rw [integer?, integer?, minus_closes cs hr, List.drop_append_of_le_length (minus_le cs), run?_closes _ hr.digits]

/-! ## Words -/

theorem word?_closes (hr : Closes rest) : word? (cs ++ rest) = word? cs := by
  cases cs with
  | nil =>
    obtain _ | ⟨c, rest⟩ := rest
    · rfl
    · have hw := isWordChar_of_isCloser (hr c rfl)
      rw [isWordChar, Bool.or_eq_false_iff, Bool.or_eq_false_iff] at hw
      rw [List.nil_append, word?, if_neg (by rw [hw.1.1]; exact Bool.false_ne_true)]
      rfl
  | cons c cs => rw [List.cons_append, word?, word?, run_closes _ hr.word]

theorem word?_le {cs : List Char} {n : Nat} (h : word? cs = some n) : n ≤ cs.length := by
  unfold word? at h
  split at h
  · split at h
    · obtain rfl := Option.some.inj h
      rw [List.length_cons, Nat.add_comm]
      exact Nat.succ_le_succ (run_le _ _)
    · cases h
  · cases h

theorem builtin?_of_ne {c : Char} {cs : List Char} (h : c ≠ '_') : builtin? (c :: cs) = none := by
  unfold builtin?
  split
  · rename_i he
    exact absurd (List.cons.inj he).1 h
  · rfl

theorem builtin?_closes (hr : Closes rest) : builtin? (cs ++ rest) = builtin? cs := by
  cases cs with
  | nil =>
    obtain _ | ⟨c, rest⟩ := rest
    · rfl
    · exact builtin?_of_ne (ne_of_isCloser (hr c rfl) rfl)
  | cons c cs =>
    by_cases hc : c = '_'
    · subst hc
      rw [List.cons_append, builtin?, builtin?, word?_closes _ hr]
    · rw [List.cons_append, builtin?_of_ne hc, builtin?_of_ne hc]

/-! ## Other lexemes -/

theorem char?_of_ne {c : Char} {cs : List Char} (h : c ≠ '\'') : char? (c :: cs) = none := by
  unfold char?
  split
  · rename_i he
    exact absurd (List.cons.inj he).1 h
  · rename_i he
    exact absurd (List.cons.inj he).1 h
  · rfl

theorem char?_newline (rest : List Char) : char? (cs ++ '\n' :: rest) = char? cs := by
  obtain _ | ⟨a, cs⟩ := cs
  · rfl
  · by_cases ha : a = '\''
    · subst ha
      -- a newline is no quote, no escape, and no character between quotes
      obtain _ | ⟨b, _ | ⟨c, _ | ⟨d, tail⟩⟩⟩ := cs
      · cases rest with
        | nil => rfl
        | cons c rest => by_cases hc : c = '\'' <;> simp [char?, hc]
      · by_cases hb : b = '\\'
        · cases rest with
          | nil => simp [char?, hb]
          | cons d rest => by_cases hd : d = '\'' <;> simp [char?, hb, hd, escapes]
        · simp [char?, hb]
      · by_cases hb : b = '\\' <;> by_cases hc : c = '\'' <;> simp [char?, hb, hc]
      · by_cases hb : b = '\\' <;> by_cases hc : c = '\'' <;> by_cases hd : d = '\'' <;> simp [char?, hb, hc, hd]
    · rw [List.cons_append, char?_of_ne ha, char?_of_ne ha]

theorem comment?_newline (rest : List Char) : comment? (cs ++ '\n' :: rest) = comment? cs := by
  obtain _ | ⟨a, _ | ⟨b, cs⟩⟩ := cs
  · rfl
  · by_cases ha : a = '/' <;> simp [comment?, ha]
  · by_cases ha : a = '/' <;> by_cases hb : b = '/' <;> simp [comment?, ha, hb]
    exact run_closes cs (.cons rfl)

theorem mark?_closes (c : Char) (hr : Closes rest) : mark? (c :: cs ++ rest) = mark? (c :: cs) := by
  obtain _ | ⟨b, cs⟩ := cs
  · obtain _ | ⟨b, rest⟩ := rest
    · rfl
    · have hb := ne_of_isCloser (d := '=') (hr b rfl) rfl
      simp only [List.cons_append, List.nil_append]
      unfold mark?
      split <;> simp_all
  · simp only [List.cons_append]
    unfold mark?
    split <;> simp_all

/-! ## Lengths -/

theorem exponent?_le {cs : List Char} {n : Nat} (h : exponent? cs = some n) : n ≤ cs.length := by
  cases cs with
  | nil => cases h
  | cons c cs =>
    rw [exponent?] at h
    split at h
    · obtain ⟨m, hm, rfl⟩ := Option.map_eq_some_iff.mp h
      have hle := run?_le hm
      have hsign := sign_le cs
      rw [List.length_drop] at hle
      rw [List.length_cons]
      omega
    · cases h

theorem fraction?_le {cs : List Char} {n : Nat} (h : fraction? cs = some n) : n ≤ cs.length := by
  unfold fraction? at h
  split at h
  · rename_i cs
    obtain ⟨m, hm, rfl⟩ := Option.map_eq_some_iff.mp h
    have hle := run?_le hm
    have hexponent : (exponent? (cs.drop m)).getD 0 ≤ cs.length - m := by
      rw [← List.length_drop]
      cases he : exponent? (cs.drop m) with
      | none => exact Nat.zero_le _
      | some k => exact exponent?_le he
    rw [List.length_cons]
    omega
  · exact exponent?_le h

theorem real?_le {cs : List Char} {n : Nat} (h : real? cs = some n) : n ≤ cs.length := by
  obtain ⟨a, ha, h⟩ := Option.bind_eq_some_iff.mp h
  obtain ⟨b, hb, h⟩ := Option.bind_eq_some_iff.mp h
  obtain rfl := Option.some.inj h
  have hdigits := run?_le ha
  have hfraction := fraction?_le hb
  have hminus := minus_le cs
  rw [List.length_drop] at hdigits hfraction
  omega

theorem byte?_le {cs : List Char} {n : Nat} (h : byte? cs = some n) : n ≤ cs.length := by
  obtain ⟨a, ha, h⟩ := Option.bind_eq_some_iff.mp h
  have hdigits := run?_le ha
  have hlength := List.length_drop (i := a) (l := cs)
  split at h
  · rename_i hdrop
    obtain rfl := Option.some.inj h
    rw [hdrop, List.length_singleton] at hlength
    omega
  · rename_i hdrop
    split at h
    · cases h
    · obtain rfl := Option.some.inj h
      rw [hdrop, List.length_cons, List.length_cons] at hlength
      omega
  · cases h

theorem integer?_le {cs : List Char} {n : Nat} (h : integer? cs = some n) : n ≤ cs.length := by
  obtain ⟨a, ha, rfl⟩ := Option.map_eq_some_iff.mp h
  have hdigits := run?_le ha
  have hminus := minus_le cs
  rw [List.length_drop] at hdigits
  omega

theorem builtin?_le {cs : List Char} {n : Nat} (h : builtin? cs = some n) : n ≤ cs.length := by
  unfold builtin? at h
  split at h
  · obtain ⟨m, hm, rfl⟩ := Option.map_eq_some_iff.mp h
    rw [List.length_cons, Nat.add_comm]
    exact Nat.succ_le_succ (word?_le hm)
  · cases h

theorem char?_le {cs : List Char} {n : Nat} (h : char? cs = some n) : n ≤ cs.length := by
  unfold char? at h
  split at h
  · split at h
    · obtain rfl := Option.some.inj h
      exact Nat.le_add_left 4 _
    · cases h
  · split at h
    · cases h
    · obtain rfl := Option.some.inj h
      exact Nat.le_add_left 3 _
  · cases h

theorem comment?_le {cs : List Char} {n : Nat} (h : comment? cs = some n) : n ≤ cs.length := by
  unfold comment? at h
  split at h
  · obtain rfl := Option.some.inj h
    rw [List.length_cons, List.length_cons, Nat.add_comm]
    exact Nat.succ_le_succ (Nat.succ_le_succ (run_le _ _))
  · cases h

theorem mark?_le {cs : List Char} {kind : Kind} {n : Nat} (h : mark? cs = some (kind, n)) : n ≤ cs.length := by
  unfold mark? at h
  split at h <;> cases h <;> simp

/-- A lexeme is no longer than the text. -/
theorem first_le {cs : List Char} {kind : Kind} {n : Nat} (h : first cs = some (kind, n)) : n ≤ cs.length := by
  unfold first at h
  split at h
  · cases h; exact real?_le (by assumption)
  split at h
  · cases h; exact byte?_le (by assumption)
  split at h
  · cases h; exact integer?_le (by assumption)
  split at h
  · cases h; exact word?_le (by assumption)
  split at h
  · cases h; exact builtin?_le (by assumption)
  split at h
  · cases h; exact char?_le (by assumption)
  split at h
  · cases h; exact comment?_le (by assumption)
  split at h
  · cases h; exact run?_le (by assumption)
  · exact mark?_le h

/-! ## The first lexeme -/

/-- A text is the lexeme it starts with and the rest. -/
theorem append_of_first {cs : List Char} {kind : Kind} {n : Nat} (h : first cs = some (kind, n)) :
    ∃ text rest, cs = text ++ rest ∧ n = text.length :=
  ⟨cs.take n, cs.drop n, (List.take_append_drop n cs).symm, (List.length_take_of_le (first_le h)).symm⟩

/-- What a text starts with, if not with white space, is the same with another line behind it. -/
theorem first_newline {c : Char} (rest : List Char) (hc : isSpace c = false) :
    first (c :: cs ++ '\n' :: rest) = first (c :: cs) := by
  have hr : Closes ('\n' :: rest) := closes_cons rfl rest
  have hspace (tail : List Char) : space? (c :: tail) = none := run?_eq_none (.cons hc)
  rw [first, first, real?_closes _ hr, byte?_closes _ hr, integer?_closes _ hr, word?_closes _ hr, builtin?_closes _ hr,
    char?_newline, comment?_newline, mark?_closes _ c hr, hspace, List.cons_append, hspace]
  cases hn : word? (c :: cs) with
  | none => rfl
  | some n =>
    have htake : (c :: (cs ++ '\n' :: rest)).take n = (c :: cs).take n := List.take_append_of_le_length (word?_le hn)
    dsimp only
    rw [htake]

/-- What holds of nothing, of a text that starts with no lexeme, and of a text if it holds of what is behind the first lexeme,
holds of every text. -/
theorem induct {P : List Char → Prop} (nil : P []) (fault : ∀ c cs, first (c :: cs) = none → P (c :: cs))
    (lexeme : ∀ cs kind n, first cs = some (kind, n) → P (cs.drop n) → P cs) (cs : List Char) : P cs := by
  induction h : cs.length using Nat.strongRecOn generalizing cs with
  | ind m ih =>
    subst h
    obtain _ | ⟨c, cs⟩ := cs
    · exact nil
    · cases hfirst : first (c :: cs) with
      | none => exact fault c cs hfirst
      | some found =>
        obtain ⟨kind, n⟩ := found
        refine lexeme _ kind n hfirst (ih _ ?_ _ rfl)
        have hpos := first_pos hfirst
        rw [List.length_drop, List.length_cons]
        omega

end FlatScope.Lexeme
