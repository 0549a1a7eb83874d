/-
  The first lexeme of a text. A text that is spelled as a lexeme is found at the start of any text that it does not go
  on in (`first_real` and its siblings). The other way round, what is found spells its kind (`spells_of_first`):
  `Kind.Spells` is what a token of a kind can look like, wherever it comes from.
-/
import FlatScope.Proofs.Token.Spelling

namespace FlatScope

namespace Lexeme

variable {xs cs rest : List Char} {n : Nat}

/-! ## Numbers -/

theorem first_real (h : IsReal xs) (hr : Ends rest) : first (xs ++ rest) = some (.real, xs.length) := by
  rw [first, real?_append h hr]

theorem first_byte (h : IsByte xs) (hr : StopsRun isWordChar rest) : first (xs ++ rest) = some (.byte, xs.length) := by
  have hb := byte?_append h hr
  obtain @⟨ds, hd⟩ := h
  have hi : IsInteger ds := .intro (.inl rfl) hd
  have hn : real? (ds ++ ['b'] ++ rest) = none := by
    rw [List.append_assoc]
    exact hi.real?_eq_none rfl (.cons rfl)
  rw [first, hn, hb]

theorem first_integer (h : IsInteger xs) (hr : Ends rest) : first (xs ++ rest) = some (.integer, xs.length) := by
  rw [first, h.real?_eq_none hr.fraction? hr.digits, h.byte?_eq_none hr, integer?_append h hr]

/-! ## Words, marks and gaps -/

/-- What is no number is one of the other lexemes. -/
theorem first_of_stopsRun (hm : minus cs = 0) (hd : StopsRun Char.isDigit cs) :
    first cs =
      if let some n := word? cs then some (wordKind (cs.take n), n)
      else if let some n := builtin? cs then some (.builtin, n)
      else if let some n := char? cs then some (.char, n)
      else if let some n := comment? cs then some (.comment, n)
      else if let some n := space? cs then some (.space, n)
      else mark? cs := by
  rewrite [first, real?_eq_none hm hd, byte?_eq_none hd, integer?_eq_none hm hd]
  rfl

theorem minus_eq_zero {c : Char} (h : c ≠ '-') : minus (c :: cs) = 0 := by
  unfold minus
  split
  · rename_i he
    exact absurd (List.cons.inj he).1 h
  · rfl

theorem first_word (h : IsWord xs) (hr : StopsRun isWordChar rest) :
    first (xs ++ rest) = some (wordKind xs, xs.length) := by
  have hw := word?_append h hr
  obtain @⟨c, tail, hc, ht⟩ := h
  have hd : c.isDigit = false := isDigit_of_isAlpha hc
  rw [List.cons_append] at hw ⊢
  rw [first_of_stopsRun (minus_eq_zero (by rintro rfl; cases hc)) (.cons hd), hw]
  show some (wordKind (List.take (c :: tail).length (c :: tail ++ rest)), _) = _
  rw [List.take_left]

theorem first_builtin (h : IsWord xs) (hr : StopsRun isWordChar rest) :
    first ('_' :: xs ++ rest) = some (.builtin, xs.length + 1) := by
  have hb := builtin?_append h hr
  rw [List.cons_append] at hb ⊢
  rw [first_of_stopsRun rfl (.cons rfl), hb]
  rfl

/-- A character that can begin a mark or a gap, and no other lexeme. -/
def isPlain (c : Char) : Bool :=
  !(c.isDigit || c.isAlpha || c = '-' || c = '_' || c = '\'' || c = '/')

theorem first_of_isPlain {c : Char} (h : isPlain c = true) :
    first (c :: rest) =
      if let some n := space? (c :: rest) then some (.space, n) else mark? (c :: rest) := by
  simp only [isPlain, Bool.not_eq_true', Bool.or_eq_false_iff, decide_eq_false_iff_not] at h
  obtain ⟨⟨⟨⟨⟨hd, ha⟩, hminus⟩, hunderscore⟩, hquote⟩, hslash⟩ := h
  have hw : word? (c :: rest) = none := if_neg (by rw [ha]; exact Bool.false_ne_true)
  have hb : builtin? (c :: rest) = none := by
    unfold builtin?
    split
    · rename_i he
      exact absurd (List.cons.inj he).1 hunderscore
    · rfl
  have hc : char? (c :: rest) = none := by
    unfold char?
    split
    · rename_i he
      exact absurd (List.cons.inj he).1 hquote
    · rename_i he
      exact absurd (List.cons.inj he).1 hquote
    · rfl
  have hs : comment? (c :: rest) = none := by
    unfold comment?
    split
    · rename_i he
      exact absurd (List.cons.inj he).1 hslash
    · rfl
  rw [first_of_stopsRun (minus_eq_zero hminus) (.cons hd), hw, hb, hc, hs]

theorem first_mark {c : Char} (h : isPlain c = true) (hs : isSpace c = false) :
    first (c :: rest) = mark? (c :: rest) := by
  rw [first_of_isPlain h, space?, run?_eq_none (.cons hs)]

theorem isPlain_of_isSpace {c : Char} (h : isSpace c = true) : isPlain c = true := by
  simp only [isSpace, Bool.or_eq_true, decide_eq_true_eq] at h
  obtain (((rfl | rfl) | rfl) | rfl) | rfl := h <;> decide

theorem first_space {c : Char} (hs : isSpace c = true) :
    first (c :: rest) = some (.space, run isSpace rest + 1) := by
  have hr : run isSpace (c :: rest) = run isSpace rest + 1 := by
    rw [run, List.takeWhile_cons, if_pos hs]
    rfl
  rw [first_of_isPlain (isPlain_of_isSpace hs), space?, run?, hr, if_neg (Nat.succ_ne_zero _)]

/-! ## What is found -/

theorem char?_spelled (h : char? cs = some n) : char? (cs.take n) = some (cs.take n).length := by
  unfold char? at h
  split at h
  · rename_i c _
    split at h
    · rename_i hc
      obtain rfl := Option.some.inj h
      exact if_pos hc
    · cases h
  · rename_i c _ hne
    split at h
    · cases h
    · rename_i hc
      obtain rfl := Option.some.inj h
      simp only [List.take_succ_cons, List.take_zero, char?, if_neg hc]
      rfl
  · cases h

theorem mark?_spelled {kind : Kind} (h : mark? cs = some (kind, n)) :
    mark? (cs.take n) = some (kind, (cs.take n).length) := by
  unfold mark? at h
  split at h <;> cases h <;> rfl

end Lexeme

/-- A text is the whole of a lexeme of a kind. A keyword also has the form of a name. Gaps and the end of the input are
no tokens. -/
def Kind.Spells (kind : Kind) (text : List Char) : Prop :=
  match kind with
  | .name => Lexeme.word? text = some text.length
  | .builtin => Lexeme.builtin? text = some text.length
  | .real => Lexeme.real? text = some text.length
  | .byte => Lexeme.byte? text = some text.length
  | .integer => Lexeme.integer? text = some text.length
  | .char => Lexeme.char? text = some text.length
  | .spacedBracket | .bracket => text = ['[']
  | .spacedParen | .paren => text = ['(']
  | .spacedStar | .star => text = ['*']
  | .endOfInput | .space | .comment => False
  | kind => Kind.ofKeyword? (String.ofList text) = some kind ∨ Lexeme.mark? text = some (kind, text.length)

/-- A lexeme may touch the token before it. -/
theorem Kind.Spells.touching {kind : Kind} {text : List Char} (h : kind.Spells text) :
    kind.touching.Spells text := by
  cases kind <;> exact h

namespace Lexeme

variable {cs : List Char} {n : Nat} {kind : Kind}

/-- The kind of a word that is spelled as one. -/
theorem spells_wordKind (h : word? cs = some cs.length) : (wordKind cs).Spells cs := by
  unfold wordKind
  cases hk : Kind.ofKeyword? (String.ofList cs) with
  | none => exact h
  | some kind =>
    have hs := hk
    unfold Kind.ofKeyword? at hk
    split at hk <;> cases hk <;> exact .inl hs

theorem spells_of_mark? (h : mark? cs = some (kind, cs.length)) : kind.Spells cs := by
  have hm := h
  unfold mark? at h
  split at h
  case h_11 => cases h
  all_goals
    obtain ⟨rfl, hl⟩ := Prod.mk.inj (Option.some.inj h)
    first
      | exact .inr hm
      | exact congrArg (List.cons _) (List.length_eq_zero_iff.mp (Nat.succ.inj hl).symm)

/-- The first lexeme spells its kind. -/
theorem spells_of_first (h : first cs = some (kind, n)) (hg : kind.isGap = false) : kind.Spells (cs.take n) := by
  unfold first at h
  split at h
  · rename_i hx
    cases h
    have ht := real?_append (real?_spelled hx) ends_nil
    rwa [List.append_nil] at ht
  split at h
  · rename_i hx
    cases h
    have ht := byte?_append (byte?_spelled hx) stopsRun_nil
    rwa [List.append_nil] at ht
  split at h
  · rename_i hx
    cases h
    have ht := integer?_append (integer?_spelled hx) ends_nil
    rwa [List.append_nil] at ht
  split at h
  · rename_i hx
    cases h
    have ht := word?_append (word?_spelled hx) stopsRun_nil
    rw [List.append_nil] at ht
    exact spells_wordKind ht
  split at h
  · rename_i hx
    cases h
    obtain ⟨xs, hxs, hw⟩ := builtin?_spelled hx
    rw [hxs]
    have ht := builtin?_append hw stopsRun_nil
    rwa [List.append_nil] at ht
  split at h
  · rename_i hx
    cases h
    exact char?_spelled hx
  split at h
  · cases h
    cases hg
  split at h
  · cases h
    cases hg
  · exact spells_of_mark? (mark?_spelled h)

/-- A keyword is never taken for a name. -/
theorem not_keyword_of_first (h : first cs = some (kind, n)) :
    kind = .name → Kind.ofKeyword? (String.ofList (cs.take n)) = none := by
  rintro rfl
  unfold first at h
  split at h
  · cases h
  split at h
  · cases h
  split at h
  · cases h
  split at h
  · obtain ⟨hk, hn⟩ := Prod.mk.inj (Option.some.inj h)
    subst hn
    rename_i m _
    unfold wordKind at hk
    cases hw : Kind.ofKeyword? (String.ofList (cs.take m)) with
    | none => rfl
    | some k =>
      rw [hw] at hk
      obtain rfl : k = .name := hk
      unfold Kind.ofKeyword? at hw
      split at hw <;> cases hw
  split at h
  · cases h
  split at h
  · cases h
  split at h
  · cases h
  split at h
  · cases h
  · unfold mark? at h
    split at h <;> cases h

end Lexeme

end FlatScope
