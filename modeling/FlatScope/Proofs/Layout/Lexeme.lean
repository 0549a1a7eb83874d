/-
  Lexemes in other surroundings. What the scanner finds within a text it finds as well when the text ends there
  (`Lexeme.LooksWithin`): every sort takes in as much as it can, so less text never makes a lexeme longer. Only the letter of a
  byte literal looks at what comes next. So a lexeme in front of others is found again where whatever
  is behind these is replaced by what closes a lexeme (`Lexeme.first_replaced`).
-/
import FlatScope.Proofs.Concatenation.Lexeme

namespace FlatScope.Lexeme

/-! ## Within a text -/

/-- What is found within a text is found as well when the text ends there, and nothing is found there that is not found
in front of more text. -/
structure LooksWithin (f : List Char → Option Nat) : Prop where
  none : ∀ cs rest, f (cs ++ rest) = none → f cs = none
  some : ∀ cs rest n, f (cs ++ rest) = some n → n ≤ cs.length → f cs = some n

theorem run_within {p : Char → Bool} {cs rest : List Char} (h : run p (cs ++ rest) ≤ cs.length) :
    run p cs = run p (cs ++ rest) := by
  unfold run at h ⊢
  rw [List.takeWhile_append] at h ⊢
  split
  · rename_i hall
    rw [if_pos hall, List.length_append] at h
    rw [List.length_append]
    omega
  · rfl

theorem run_le_append (p : Char → Bool) (cs rest : List Char) : run p cs ≤ run p (cs ++ rest) := by
  unfold run
  rw [List.takeWhile_append]
  split
  · rename_i hall
    rw [List.length_append]
    omega
  · exact Nat.le_refl _

theorem looksWithin_run? (p : Char → Bool) : LooksWithin (run? p) where
  none cs rest h := by
    unfold run? at h ⊢
    split at h
    · rename_i hzero
      rw [if_pos (Nat.le_zero.mp (hzero ▸ run_le_append p cs rest))]
    · cases h
  some cs rest n h hn := by
    unfold run? at h ⊢
    split at h
    · cases h
    · rename_i hpos
      obtain rfl := Option.some.inj h
      rw [run_within hn, if_neg hpos]

theorem looksWithin_exponent? : LooksWithin exponent? where
  none cs rest h := by
    cases cs with
    | nil => rfl
    | cons c cs =>
      rw [List.cons_append, exponent?] at h
      rw [exponent?]
      split at h
      · rename_i hc
        rw [if_pos hc]
        cases cs with
        | nil => rfl
        | cons d cs =>
          rw [sign_cons_append, List.drop_append_of_le_length (sign_le _), Option.map_eq_none_iff] at h
          rw [(looksWithin_run? _).none _ _ h]
          rfl
      · rename_i hc
        rw [if_neg hc]
  some cs rest n h hn := by
    cases cs with
    | nil => exact absurd (exponent?_pos h) (Nat.not_lt_of_le hn)
    | cons c cs =>
      rw [List.cons_append, exponent?] at h
      rw [exponent?]
      split at h
      · rename_i hc
        obtain ⟨m, hm, rfl⟩ := Option.map_eq_some_iff.mp h
        rw [if_pos hc]
        rw [List.length_cons] at hn
        cases cs with
        | nil =>
          have hpos := run?_pos hm
          rw [List.length_nil] at hn
          omega
        | cons d cs =>
          rw [sign_cons_append] at hm hn ⊢
          rw [List.drop_append_of_le_length (sign_le _)] at hm
          rw [(looksWithin_run? _).some _ _ m hm (by rw [List.length_drop]; omega)]
          rfl
      · cases h

theorem fraction?_pos {cs : List Char} {n : Nat} (h : fraction? cs = some n) : 0 < n := by
  unfold fraction? at h
  split at h
  · obtain ⟨m, -, rfl⟩ := Option.map_eq_some_iff.mp h
    omega
  · exact exponent?_pos h

theorem looksWithin_fraction? : LooksWithin fraction? where
  none cs rest h := by
    cases cs with
    | nil => rfl
    | cons c cs =>
      by_cases hc : c = '.'
      · subst hc
        rw [List.cons_append, fraction?, Option.map_eq_none_iff] at h
        rw [fraction?, (looksWithin_run? _).none _ _ h]
        rfl
      · rw [List.cons_append, fraction?_of_ne hc] at h
        rw [fraction?_of_ne hc]
        exact looksWithin_exponent?.none (c :: cs) rest h
  some cs rest n h hn := by
    cases cs with
    | nil => exact absurd (fraction?_pos h) (Nat.not_lt_of_le hn)
    | cons c cs =>
      by_cases hc : c = '.'
      · subst hc
        rw [List.cons_append, fraction?] at h
        obtain ⟨m, hm, rfl⟩ := Option.map_eq_some_iff.mp h
        rw [List.length_cons] at hn
        rw [fraction?, (looksWithin_run? _).some _ _ m hm (by omega), Option.map_some,
          List.drop_append_of_le_length (by omega)]
        congr 2
        cases he : exponent? (cs.drop m ++ rest) with
        | none => rw [looksWithin_exponent?.none _ _ he]
        | some k =>
          rw [List.drop_append_of_le_length (by omega), he, Option.getD_some] at hn
          rw [looksWithin_exponent?.some _ _ k he (by rw [List.length_drop]; omega)]
      · rw [List.cons_append, fraction?_of_ne hc] at h
        rw [fraction?_of_ne hc]
        exact looksWithin_exponent?.some (c :: cs) rest n h hn

/-- The minus sign is that of the first character. -/
theorem minus_cons_append (c : Char) (cs rest : List Char) : minus (c :: cs ++ rest) = minus (c :: cs) := by
  by_cases hc : c = '-'
  · subst hc
    rfl
  · rw [List.cons_append, minus_eq_zero hc, minus_eq_zero hc]

/-- A run that ends within a text does so whatever comes behind. -/
theorem run?_of_lt {p : Char → Bool} {cs : List Char} {n : Nat} (h : run? p cs = some n) (hn : n < cs.length)
    (rest : List Char) : run? p (cs ++ rest) = some n := by
  unfold run? at h ⊢
  split at h
  · cases h
  · rename_i hpos
    obtain rfl := Option.some.inj h
    have hrun : run p (cs ++ rest) = run p cs := by
      unfold run at hn ⊢
      rw [List.takeWhile_append, if_neg (Nat.ne_of_lt hn)]
    rw [hrun, if_neg hpos]

theorem looksWithin_real? : LooksWithin real? where
  none cs rest h := by
    cases cs with
    | nil => rfl
    | cons c cs =>
      have hminus := minus_le (c :: cs)
      rw [real?, minus_cons_append, List.drop_append_of_le_length hminus] at h
      rw [real?]
      cases hd : run? Char.isDigit ((c :: cs).drop (minus (c :: cs))) with
      | none => rfl
      | some m =>
        have hm := run?_le hd
        obtain hlt | heq := Nat.lt_or_eq_of_le hm
        · rw [run?_of_lt hd hlt] at h
          rw [List.length_drop] at hm
          rw [Option.bind_eq_bind, Option.bind_some, List.drop_append_of_le_length (by omega),
            Option.bind_eq_none_iff] at h
          rw [Option.bind_eq_bind, Option.bind_some, looksWithin_fraction?.none _ rest]
          · rfl
          · refine Option.eq_none_iff_forall_ne_some.mpr fun k hk => ?_
            cases h k hk
        · -- there is nothing but digits
          rw [Option.bind_eq_bind, Option.bind_some, ← List.drop_drop, List.drop_of_length_le heq.ge]
          rfl
  some cs rest n h hn := by
    cases cs with
    | nil => exact absurd (real?_pos h) (Nat.not_lt_of_le hn)
    | cons c cs =>
      have hminus := minus_le (c :: cs)
      rw [real?, minus_cons_append, List.drop_append_of_le_length hminus] at h
      obtain ⟨m, hm, h⟩ := Option.bind_eq_some_iff.mp h
      obtain ⟨k, hk, h⟩ := Option.bind_eq_some_iff.mp h
      obtain rfl := Option.some.inj h
      rw [List.drop_append_of_le_length (by omega)] at hk
      rw [real?, (looksWithin_run? _).some _ _ m hm (by rw [List.length_drop]; omega), Option.bind_eq_bind, Option.bind_some,
        looksWithin_fraction?.some _ _ k hk (by rw [List.length_drop]; omega)]
      rfl

theorem looksWithin_integer? : LooksWithin integer? where
  none cs rest h := by
    cases cs with
    | nil => rfl
    | cons c cs =>
      rw [integer?, minus_cons_append, List.drop_append_of_le_length (minus_le _), Option.map_eq_none_iff] at h
      rw [integer?, (looksWithin_run? _).none _ _ h]
      rfl
  some cs rest n h hn := by
    cases cs with
    | nil => exact absurd (integer?_pos h) (Nat.not_lt_of_le hn)
    | cons c cs =>
      rw [integer?, minus_cons_append, List.drop_append_of_le_length (minus_le _)] at h
      obtain ⟨m, hm, rfl⟩ := Option.map_eq_some_iff.mp h
      rw [integer?, (looksWithin_run? _).some _ _ m hm (by rw [List.length_drop]; omega)]
      rfl

theorem looksWithin_word? : LooksWithin word? where
  none cs rest h := by
    cases cs with
    | nil => rfl
    | cons c cs =>
      rw [List.cons_append, word?] at h
      rw [word?]
      split at h
      · cases h
      · rename_i hc
        rw [if_neg hc]
  some cs rest n h hn := by
    cases cs with
    | nil => exact absurd (word?_pos h) (Nat.not_lt_of_le hn)
    | cons c cs =>
      rw [List.cons_append, word?] at h
      rw [word?]
      split at h
      · rename_i hc
        obtain rfl := Option.some.inj h
        rw [List.length_cons] at hn
        have hrun : run isWordChar (cs ++ rest) ≤ cs.length := by omega
        rw [if_pos hc, run_within hrun]
      · cases h

theorem looksWithin_builtin? : LooksWithin builtin? where
  none cs rest h := by
    cases cs with
    | nil => rfl
    | cons c cs =>
      by_cases hc : c = '_'
      · subst hc
        rw [List.cons_append, builtin?, Option.map_eq_none_iff] at h
        rw [builtin?, looksWithin_word?.none _ _ h]
        rfl
      · exact builtin?_of_ne hc
  some cs rest n h hn := by
    cases cs with
    | nil => exact absurd (builtin?_pos h) (Nat.not_lt_of_le hn)
    | cons c cs =>
      by_cases hc : c = '_'
      · subst hc
        rw [List.cons_append, builtin?] at h
        obtain ⟨m, hm, rfl⟩ := Option.map_eq_some_iff.mp h
        rw [List.length_cons] at hn
        rw [builtin?, looksWithin_word?.some _ _ m hm (by omega)]
        rfl
      · rw [List.cons_append, builtin?_of_ne hc] at h
        cases h

/-- A character literal is an escape or a plain character between quotes. -/
theorem char?_eq_some_iff {cs : List Char} {n : Nat} : char? cs = some n
    ↔ (∃ c tail, cs = '\'' :: '\\' :: c :: '\'' :: tail ∧ (escapes.lookup c).isSome = true ∧ n = 4)
      ∨ ∃ c tail, cs = '\'' :: c :: '\'' :: tail ∧ ¬(c = '\\' ∨ c = '\'' ∨ c = '\n') ∧ n = 3 := by
  constructor
  · intro h
    unfold char? at h
    split at h
    · rename_i c tail
      split at h
      · exact .inl ⟨c, tail, rfl, ‹_›, (Option.some.inj h).symm⟩
      · cases h
    · rename_i c tail _
      split at h
      · cases h
      · exact .inr ⟨c, tail, rfl, ‹_›, (Option.some.inj h).symm⟩
    · cases h
  · rintro (⟨c, tail, rfl, hc, rfl⟩ | ⟨c, tail, rfl, hc, rfl⟩)
    · exact if_pos hc
    · unfold char?
      split
      · rename_i he
        exact absurd (.inl (List.cons.inj (List.cons.inj he).2).1) hc
      · rename_i he
        obtain rfl := (List.cons.inj (List.cons.inj he).2).1
        exact if_neg hc
      · rename_i hno
        exact absurd rfl (hno c tail)

theorem char?_append {cs : List Char} {n : Nat} (h : char? cs = some n) (rest : List Char) : char? (cs ++ rest) = some n := by
  obtain ⟨c, tail, rfl, hc, rfl⟩ | ⟨c, tail, rfl, hc, rfl⟩ := char?_eq_some_iff.mp h
  · exact char?_eq_some_iff.mpr (.inl ⟨c, tail ++ rest, rfl, hc, rfl⟩)
  · exact char?_eq_some_iff.mpr (.inr ⟨c, tail ++ rest, rfl, hc, rfl⟩)

theorem looksWithin_char? : LooksWithin char? where
  none cs rest h := by
    rw [Option.eq_none_iff_forall_ne_some]
    intro n hn
    cases h.symm.trans (char?_append hn rest)
  some cs rest n h hn := by
    have hwithin {front tail : List Char} (he : cs ++ rest = front ++ tail) (hl : front.length ≤ cs.length) : front <+: cs :=
      List.prefix_of_prefix_length_le (he ▸ List.prefix_append front tail) (List.prefix_append cs rest) hl
    obtain ⟨c, tail, he, hc, rfl⟩ | ⟨c, tail, he, hc, rfl⟩ := char?_eq_some_iff.mp h
    · obtain ⟨more, rfl⟩ := @hwithin ['\'', '\\', c, '\''] tail he hn
      exact char?_eq_some_iff.mpr (.inl ⟨c, more, rfl, hc, rfl⟩)
    · obtain ⟨more, rfl⟩ := @hwithin ['\'', c, '\''] tail he hn
      exact char?_eq_some_iff.mpr (.inr ⟨c, more, rfl, hc, rfl⟩)

/-- A mark does not look behind itself. -/
theorem mark?_within {cs rest : List Char} {kind : Kind} {n : Nat} (h : mark? (cs ++ rest) = some (kind, n))
    (hn : n ≤ cs.length) : mark? cs = some (kind, n) := by
  obtain _ | ⟨a, _ | ⟨b, cs⟩⟩ := cs
  · exact absurd (mark?_pos h) (Nat.not_lt_of_le hn)
  · rw [List.length_singleton] at hn
    simp only [List.cons_append, List.nil_append] at h
    unfold mark? at h ⊢
    split at h <;> (simp_all; try omega)
  · simp only [List.cons_append] at h
    unfold mark? at h ⊢
    split at h <;> simp_all

/-- A byte literal in digits ends in a letter behind which no word goes on. -/
theorem byte?_eq_some_iff {cs : List Char} {n : Nat} : byte? cs = some n
    ↔ ∃ digits tail, cs = digits ++ 'b' :: tail ∧ Decimal.isDigits digits = true ∧ StopsRun isWordChar tail
      ∧ n = digits.length + 1 := by
  constructor
  · intro h
    obtain ⟨a, ha, h⟩ := Option.bind_eq_some_iff.mp h
    obtain ⟨tail, hdrop, htail, rfl⟩ : ∃ tail, cs.drop a = 'b' :: tail ∧ StopsRun isWordChar tail ∧ n = a + 1 := by
      split at h
      · rename_i hx
        exact ⟨[], hx, stopsRun_nil, (Option.some.inj h).symm⟩
      · rename_i c tail hx
        split at h
        · cases h
        · rename_i hc
          exact ⟨c :: tail, hx, .cons (Bool.eq_false_iff.mpr hc), (Option.some.inj h).symm⟩
      · cases h
    refine ⟨cs.take a, tail, ?_, digits_spelled ha, htail, ?_⟩
    · rw [← hdrop, List.take_append_drop]
    · rw [List.length_take_of_le (run?_le ha)]
  · rintro ⟨digits, tail, rfl, hd, htail, rfl⟩
    have hbyte := byte?_append (.intro hd) htail
    rwa [List.append_assoc, List.length_append] at hbyte

theorem byte?_within {cs rest : List Char} {n : Nat} (h : byte? (cs ++ rest) = some n) (hn : n ≤ cs.length) :
    byte? cs = some n := by
  obtain ⟨digits, tail, he, hd, htail, rfl⟩ := byte?_eq_some_iff.mp h
  rw [← List.singleton_append, ← List.append_assoc] at he
  obtain ⟨more, rfl⟩ : digits ++ ['b'] <+: cs :=
    List.prefix_of_prefix_length_le (he ▸ List.prefix_append _ tail) (List.prefix_append cs rest)
      (by rwa [List.length_append])
  rw [List.append_assoc, List.append_cancel_left_eq] at he
  refine byte?_eq_some_iff.mpr ⟨digits, more, by rw [List.append_assoc]; rfl, hd, fun c hc => htail c ?_, rfl⟩
  rw [← he, List.head?_append, hc]
  rfl

/-- What only looks like a byte literal when a text ends there goes on as a word. -/
theorem byte?_eq_none_within {cs rest : List Char} (h : byte? (cs ++ rest) = none) :
    byte? cs = none
      ∨ ∃ digits, Decimal.isDigits digits = true ∧ cs = digits ++ ['b'] ∧ ¬StopsRun isWordChar rest := by
  cases hn : byte? cs with
  | none => exact .inl rfl
  | some n =>
    obtain ⟨digits, tail, rfl, hd, htail, rfl⟩ := byte?_eq_some_iff.mp hn
    have hnot (hs : StopsRun isWordChar (tail ++ rest)) : False := by
      have hsome := byte?_eq_some_iff.mpr ⟨digits, tail ++ rest, rfl, hd, hs, rfl⟩
      rw [List.append_assoc, List.cons_append] at h
      cases h.symm.trans hsome
    cases tail with
    | nil => exact .inr ⟨digits, hd, rfl, hnot⟩
    | cons c tail => exact absurd (.cons (htail c rfl)) hnot

theorem mark?_eq_none_within {cs rest : List Char} (h : mark? (cs ++ rest) = none) : mark? cs = none := by
  obtain _ | ⟨a, _ | ⟨b, cs⟩⟩ := cs
  · rfl
  · simp only [List.cons_append, List.nil_append] at h
    unfold mark? at h ⊢
    split at h <;> simp_all
  · simp only [List.cons_append] at h
    unfold mark? at h ⊢
    split at h <;> simp_all

theorem comment?_eq_none_within {cs rest : List Char} (h : comment? (cs ++ rest) = none) : comment? cs = none := by
  obtain _ | ⟨a, _ | ⟨b, cs⟩⟩ := cs
  · rfl
  · unfold comment?
    split
    · rename_i he
      cases he
    · rfl
  · simp only [List.cons_append] at h
    unfold comment? at h ⊢
    split at h <;> simp_all

theorem comment?_of_ne {c : Char} {cs : List Char} (h : c ≠ '/') : comment? (c :: cs) = none := by
  unfold comment?
  split
  · rename_i he
    exact absurd (List.cons.inj he).1 h
  · rfl

/-! ## The first lexeme -/

/-- The sorts of lexemes, in the order in which they are tried. -/
def sorts : List (List Char → Option (Kind × Nat)) :=
  [fun cs => (real? cs).map (.real, ·), fun cs => (byte? cs).map (.byte, ·), fun cs => (integer? cs).map (.integer, ·),
    fun cs => (word? cs).map fun n => (wordKind (cs.take n), n), fun cs => (builtin? cs).map (.builtin, ·),
    fun cs => (char? cs).map (.char, ·), fun cs => (comment? cs).map (.comment, ·), fun cs => (space? cs).map (.space, ·), mark?]

theorem first_eq_findSome? (cs : List Char) : first cs = sorts.findSome? fun sort => sort cs := by
  unfold first sorts
  simp only [List.findSome?_cons, List.findSome?_nil]
  cases real? cs with
  | some n => rfl
  | none =>
  cases byte? cs with
  | some n => rfl
  | none =>
  cases integer? cs with
  | some n => rfl
  | none =>
  cases word? cs with
  | some n => rfl
  | none =>
  cases builtin? cs with
  | some n => rfl
  | none =>
  cases char? cs with
  | some n => rfl
  | none =>
  cases comment? cs with
  | some n => rfl
  | none =>
  cases space? cs with
  | some n => rfl
  | none =>
  cases mark? cs with
  | some found => rfl
  | none => rfl

/-- What one text gives, if it is this lexeme, is given by another one, and nothing is given there if not by the first.
-/
def Carries (found : Kind × Nat) (a b : Option (Kind × Nat)) : Prop := (a = none → b = none) ∧ (a = some found → b = some found)

theorem findSome?_of_carries {cs cs' : List Char} {found : Kind × Nat} {sorts : List (List Char → Option (Kind × Nat))}
    (h : ∀ sort ∈ sorts, Carries found (sort cs) (sort cs')) (hfound : sorts.findSome? (fun sort => sort cs) = some found) :
    sorts.findSome? (fun sort => sort cs') = some found := by
  induction sorts with
  | nil => cases hfound
  | cons sort rest ih =>
    obtain ⟨⟨hnone, hsome⟩, hrest⟩ := List.forall_mem_cons.mp h
    rw [List.findSome?_cons] at hfound ⊢
    cases hs : sort cs with
    | none =>
      rw [hs] at hfound
      rw [hnone hs]
      exact ih hrest hfound
    | some other =>
      rw [hs] at hfound
      obtain rfl := Option.some.inj hfound
      rw [hsome hs]

variable {cs cs' : List Char} {kind : Kind} {n : Nat}

theorem Carries.map {a b : Option Nat} {k : Kind} (hnone : a = none → b = none) (hsome : a = some n → b = some n) :
    Carries (kind, n) (a.map (k, ·)) (b.map (k, ·)) := by
  refine ⟨fun h => ?_, fun h => ?_⟩
  · rw [hnone (Option.map_eq_none_iff.mp h)]
    rfl
  · obtain ⟨m, hm, he⟩ := Option.map_eq_some_iff.mp h
    obtain ⟨rfl, rfl⟩ := Prod.mk.inj he
    rw [hsome hm]
    rfl

/-- A sort for gaps only has to find nothing where it found nothing. -/
theorem Carries.gap {a b : Option Nat} {k : Kind} (hk : k.isGap = true) (hg : kind.isGap = false) (hnone : a = none → b = none) :
    Carries (kind, n) (a.map (k, ·)) (b.map (k, ·)) := by
  refine ⟨fun h => ?_, fun h => ?_⟩
  · rw [hnone (Option.map_eq_none_iff.mp h)]
    rfl
  · obtain ⟨m, -, he⟩ := Option.map_eq_some_iff.mp h
    obtain ⟨rfl, -⟩ := Prod.mk.inj he
    cases hk.symm.trans hg

theorem Carries.word (hnone : word? cs = none → word? cs' = none) (hsome : word? cs = some n → word? cs' = some n)
    (htake : word? cs = some n → cs'.take n = cs.take n) :
    Carries (kind, n) ((word? cs).map fun n => (wordKind (cs.take n), n))
      ((word? cs').map fun n => (wordKind (cs'.take n), n)) := by
  refine ⟨fun h => ?_, fun h => ?_⟩
  · rw [hnone (Option.map_eq_none_iff.mp h)]
    rfl
  · obtain ⟨m, hm, he⟩ := Option.map_eq_some_iff.mp h
    obtain ⟨rfl, rfl⟩ := Prod.mk.inj he
    rw [hsome hm, Option.map_some, htake hm]

/-- The first lexeme of a text is the first one where the text ends behind it. -/
theorem first_within {rest : List Char} (h : first (cs ++ rest) = some (kind, n)) (hn : n ≤ cs.length)
    (hg : kind.isGap = false) (hbyte : byte? (cs ++ rest) = none → byte? cs = none) : first cs = some (kind, n) := by
  rw [first_eq_findSome?] at h ⊢
  refine findSome?_of_carries ?_ h
  simp only [sorts, List.forall_mem_cons]
  refine ⟨?_, ?_, ?_, ?_, ?_, ?_, ?_, ?_, ?_, nofun⟩
  · exact .map (looksWithin_real?.none _ _) fun h => looksWithin_real?.some _ _ _ h hn
  · exact .map hbyte fun h => byte?_within h hn
  · exact .map (looksWithin_integer?.none _ _) fun h => looksWithin_integer?.some _ _ _ h hn
  · exact .word (looksWithin_word?.none _ _) (fun h => looksWithin_word?.some _ _ _ h hn)
      fun _ => (List.take_append_of_le_length hn).symm
  · exact .map (looksWithin_builtin?.none _ _) fun h => looksWithin_builtin?.some _ _ _ h hn
  · exact .map (looksWithin_char?.none _ _) fun h => looksWithin_char?.some _ _ _ h hn
  · exact .gap rfl hg comment?_eq_none_within
  · exact .gap rfl hg ((looksWithin_run? _).none _ _)
  · exact ⟨mark?_eq_none_within, fun h => mark?_within h hn⟩

/-- A quote begins nothing but a character literal. -/
theorem first_quote (cs : List Char) : first ('\'' :: cs) = (char? ('\'' :: cs)).map (.char, ·) := by
  rw [first_of_stopsRun rfl (.cons rfl), show word? ('\'' :: cs) = none from rfl, show builtin? ('\'' :: cs) = none from rfl]
  cases char? ('\'' :: cs) <;> rfl

/-- A slash begins nothing but a comment. -/
theorem first_slash (cs : List Char) : first ('/' :: cs) = (comment? ('/' :: cs)).map (.comment, ·) := by
  rw [first_of_stopsRun rfl (.cons rfl), show word? ('/' :: cs) = none from rfl, show builtin? ('/' :: cs) = none from rfl,
    char?_of_ne (by decide)]
  cases comment? ('/' :: cs) <;> rfl

/-- A token begins with no character of a gap. -/
theorem ne_of_first {c : Char} (h : first (c :: cs) = some (kind, n)) (hg : kind.isGap = false) : isSpace c = false ∧ c ≠ '/' := by
  refine ⟨Bool.eq_false_iff.mpr fun hs => ?_, ?_⟩
  · rw [first_space hs] at h
    cases h
    cases hg
  · rintro rfl
    rw [first_slash] at h
    obtain ⟨m, -, he⟩ := Option.map_eq_some_iff.mp h
    cases he
    cases hg

/-- The first lexeme of a text is the first one in front of what closes it. -/
theorem first_append {rest : List Char} (h : first cs = some (kind, n)) (hg : kind.isGap = false) (hr : Closes rest) :
    first (cs ++ rest) = some (kind, n) := by
  obtain _ | ⟨c, cs⟩ := cs
  · cases h
  obtain ⟨hspace, hslash⟩ := ne_of_first h hg
  have hsorts := h
  rw [first_eq_findSome?] at hsorts ⊢
  refine findSome?_of_carries ?_ hsorts
  simp only [sorts, List.forall_mem_cons]
  rw [real?_closes _ hr, byte?_closes _ hr, integer?_closes _ hr, builtin?_closes _ hr, mark?_closes _ c hr]
  have hword := word?_closes (c :: cs) hr
  refine ⟨⟨id, id⟩, ⟨id, id⟩, ⟨id, id⟩, ?_, ⟨id, id⟩, ?_, ?_, ?_, ⟨id, id⟩, nofun⟩
  · exact .word hword.trans hword.trans fun hw => List.take_append_of_le_length (word?_le hw)
  · by_cases hc : c = '\''
    · subst hc
      rw [first_quote] at h
      obtain ⟨m, hm, -⟩ := Option.map_eq_some_iff.mp h
      exact .map (fun hn => nomatch hm.symm.trans hn) fun hs => char?_append hs rest
    · exact .map (fun _ => char?_of_ne hc) fun hs => nomatch (char?_of_ne hc).symm.trans hs
  · exact .gap rfl hg fun _ => comment?_of_ne hslash
  · exact .gap rfl hg fun _ => run?_eq_none (.cons hspace)

/-- Where a word goes on behind what looks like a byte literal, the digits are an integer. -/
theorem first_of_byte {digits rest : List Char} (hd : Decimal.isDigits digits = true)
    (hnone : byte? (digits ++ ('b' :: rest)) = none) : first (digits ++ ('b' :: rest)) = some (.integer, digits.length) := by
  have hdigits : IsInteger digits := .intro (.inl rfl) hd
  have hreal : real? (digits ++ ('b' :: rest)) = none := hdigits.real?_eq_none rfl (.cons rfl)
  have hinteger : integer? (digits ++ ('b' :: rest)) = some digits.length := by
    rw [integer?, minus_of_isDigits hd, List.drop_zero, digits_append hd (.cons rfl), Option.map_some, Nat.zero_add]
  rw [first, hreal, hnone, hinteger]

theorem first_b {rest : List Char} (h : ¬StopsRun isWordChar rest) {kind : Kind} {n : Nat}
    (hfirst : first ('b' :: rest) = some (kind, n)) : 1 < n := by
  obtain _ | ⟨c, rest⟩ := rest
  · exact absurd stopsRun_nil h
  · have hc : isWordChar c = true := by
      rw [← Bool.not_eq_false]
      exact fun hc => h (.cons hc)
    have hrun : run isWordChar (c :: rest) = run isWordChar rest + 1 := by
      rw [run, List.takeWhile_cons, if_pos hc]
      rfl
    have hword : word? ('b' :: c :: rest) = some (1 + run isWordChar (c :: rest)) := rfl
    rw [first_of_stopsRun rfl (.cons rfl), hword] at hfirst
    obtain ⟨-, rfl⟩ := Prod.mk.inj (Option.some.inj hfirst)
    omega

/-- A lexeme in front of others is found again if what is behind these is replaced by what closes a lexeme. -/
theorem first_replaced {lexeme more rest rest' : List Char} (h : first (lexeme ++ (more ++ rest)) = some (kind, lexeme.length))
    (hg : kind.isGap = false)
    (hmore : more = [] ∨ ∃ next m, first (more ++ rest) = some (next, m) ∧ m ≤ more.length) (hr : Closes rest') :
    first (lexeme ++ (more ++ rest')) = some (kind, lexeme.length) := by
  rw [← List.append_assoc] at h ⊢
  refine first_append (first_within h ?_ hg fun hnone => ?_) hg hr
  · rw [List.length_append]
    exact Nat.le_add_right _ _
  · refine (byte?_eq_none_within hnone).resolve_right ?_
    rintro ⟨digits, hd, hb, hstops⟩
    -- the letter is the whole of the next lexeme, although a word goes on behind it
    rw [hb, List.append_assoc, List.singleton_append] at h hnone
    have hfirst := h.symm.trans (first_of_byte hd hnone)
    have hlength : lexeme.length = digits.length := (Prod.mk.inj (Option.some.inj hfirst)).2
    obtain ⟨-, rfl⟩ := List.append_inj hb hlength
    obtain hnil | ⟨next, m, hnext, hm⟩ := hmore
    · cases hnil
    · exact absurd (first_b hstops hnext) (Nat.not_lt_of_le hm)

end FlatScope.Lexeme
