/-
  Scanning as repeated longest match. A text is munched (`Munches`): cut from its start into pieces each of which is the longest
  match of all terminals where it stands. A scan goes on in this way as long as the values of the literals are in range
  (`Piece.InRange`), and its tokens are those of the pieces but the gaps (`Scan.tokensOf`). It ends well where the text ends, and
  otherwise where no terminal matches or where a literal is out of range (`Scan.StopsAt`). `Scan.munches_scan` says so of every source.
-/
import FlatScope.Proofs.Munching.Terminal
import FlatScope.Proofs.Printing.Basic

namespace FlatScope

open Lexeme

/-! ## Pieces -/

/-- A lexeme with its kind. -/
structure Piece where
  kind : Kind
  text : List Char

/-- The character a character literal stands for: the one between its quotes, or what this one means behind a backslash. -/
def Lexeme.character? (text : List Char) : Option Char :=
  match text.tail.dropLast with
  | [c] => some c
  | [_, c] => escapes.lookup c
  | _ => none

/-- The value of a literal is in range. A float has to be finite, a byte and the code point of a character at most 255.
-/
def Piece.InRange (p : Piece) : Prop :=
  match p.kind with
  | .real => ∃ x, Numeral.real? p.text = some x ∧ x.isFinite = true
  | .byte => Decimal.natOfDigits p.text.dropLast ≤ 255
  | .char => ∃ c, character? p.text = some c ∧ c.toNat ≤ 255
  | _ => True

/-- Pieces are munched from a text up to what is left of it. -/
inductive Munches : List Char → List Piece → List Char → Prop
  | nil {cs : List Char} : Munches cs [] cs
  | cons {kind : Kind} {text rest left : List Char} {ps : List Piece} (h : IsMunch (text ++ rest) kind text.length)
    (hrest : Munches rest ps left) : Munches (text ++ rest) (⟨kind, text⟩ :: ps) left

/-- Munching cannot go on in a text. Either no terminal matches, be it at the end, or the longest match is a literal
out of range. -/
def IsStuck (cs : List Char) : Prop :=
  (∀ (kind : Kind) (n : Nat), ¬kind.Matches cs n) ∨ ∃ kind n, IsMunch cs kind n ∧ ¬Piece.InRange ⟨kind, cs.take n⟩

/-- Pieces are all that can be munched from a text, as long as the literals are in range. -/
structure IsMunched (cs : List Char) (ps : List Piece) (left : List Char) : Prop where
  munches : Munches cs ps left
  inRange : ∀ p ∈ ps, p.InRange
  isStuck : IsStuck left

theorem IsMunch.same {cs : List Char} {kind kind' : Kind} {n n' : Nat} (h : IsMunch cs kind n) (h' : IsMunch cs kind' n') :
    kind = kind' ∧ n = n' :=
  Prod.mk.inj (Option.some.inj (h.first.symm.trans h'.first))

/-- Where a piece in range is munched, munching goes on. -/
theorem IsMunch.not_isStuck {text rest : List Char} {kind : Kind} (h : IsMunch (text ++ rest) kind text.length)
    (hin : Piece.InRange ⟨kind, text⟩) : ¬IsStuck (text ++ rest) := by
  rintro (hnone | ⟨other, n, hmunch, hout⟩)
  · exact hnone kind text.length h.isMatch
  · obtain ⟨rfl, rfl⟩ := h.same hmunch
    rw [List.take_left] at hout
    exact hout hin

/-- At the end of a text munching does not go on. -/
theorem isStuck_nil : IsStuck [] := .inl (first_eq_none_iff.mp (by rw [first]; rfl))

/-- There is one way to munch a text, and one place where it ends. -/
theorem IsMunched.unique {cs left left' : List Char} {ps qs : List Piece} (h : IsMunched cs ps left) (h' : IsMunched cs qs left') :
    ps = qs ∧ left = left' := by
  obtain ⟨hmunches, hrange, hstuck⟩ := h
  obtain ⟨hmunches', hrange', hstuck'⟩ := h'
  induction hmunches generalizing qs with
  | nil =>
    cases hmunches' with
    | nil => exact ⟨rfl, rfl⟩
    | cons hmunch _ => exact absurd hstuck (hmunch.not_isStuck (List.forall_mem_cons.mp hrange').1)
  | @cons kind text rest left ps hmunch _ ih =>
    obtain ⟨hin, hrange⟩ := List.forall_mem_cons.mp hrange
    generalize hcs : text ++ rest = cs at hmunches' hmunch
    cases hmunches' with
    | nil =>
      rw [← hcs] at hmunch hstuck'
      exact absurd hstuck' (hmunch.not_isStuck hin)
    | @cons kind' text' rest' _ qs hmunch' hrest' =>
      obtain ⟨rfl, hlength⟩ := hmunch.same hmunch'
      obtain ⟨rfl, rfl⟩ := List.append_inj hcs hlength
      obtain ⟨rfl, rfl⟩ := ih hrange hstuck hrest' (List.forall_mem_cons.mp hrange').2
      exact ⟨rfl, rfl⟩

namespace Scan

variable {file : Option String} {pos : Position} {previous : Option Nat} {text rest : List Char} {kind : Kind}

/-! ## Ranges -/

theorem kindAfter_of_isRanged (h : Grammar.isRanged kind = true) : kindAfter previous pos kind = kind := by
  unfold kindAfter
  split
  · cases kind <;> first | rfl | cases h
  · rfl

theorem isRanged_kindAfter : Grammar.isRanged (kindAfter previous pos kind) = Grammar.isRanged kind := by
  unfold kindAfter
  split
  · cases kind <;> rfl
  · rfl

theorem fault?_real {t : Token} (hk : t.kind = .real) (ht : t.lexeme.toList = text) (h : IsReal text) :
    t.fault? = none ↔ Piece.InRange ⟨.real, text⟩ := by
  obtain ⟨x, hx⟩ := Option.isSome_iff_exists.mp (Numeral.real?_isSome h)
  have hvalue : t.realValue = x := by
    rw [Token.realValue, Token.readReal, ht, hx]
    rfl
  simp [Token.fault?, Piece.InRange, hk, hvalue, hx]

theorem fault?_byte {t : Token} (hk : t.kind = .byte) (ht : t.lexeme.toList = text) (h : IsByte text) :
    t.fault? = none ↔ Piece.InRange ⟨.byte, text⟩ := by
  obtain @⟨ds, hd⟩ := h
  have hvalue : t.byteValue = Decimal.natOfDigits ds := by
    rw [Token.byteValue, Token.readByte_of_isByte ht hd, Decimal.intOfChars_of_isDigits hd]
    rfl
  simp [Token.fault?, Piece.InRange, hk, hvalue]

theorem fault?_char {t : Token} (hk : t.kind = .char) (ht : t.lexeme.toList = text) (h : char? text = some text.length) :
    t.fault? = none ↔ Piece.InRange ⟨.char, text⟩ := by
  obtain ⟨c, hc, hvalue⟩ : ∃ c, character? text = some c ∧ t.byteValue = c.toNat := by
    unfold Token.byteValue Token.readByte
    rw [ht]
    rcases char?_eq_some_iff.mp h with ⟨c, tail, rfl, hc, hl⟩ | ⟨c, tail, rfl, hc, hl⟩
    · obtain rfl : tail = [] := List.length_eq_zero_iff.mp (by simpa using hl)
      obtain ⟨d, hd⟩ := Option.isSome_iff_exists.mp hc
      exact ⟨d, hd, by simp [Token.readCharacter, hd, Token.orDefault]⟩
    · obtain rfl : tail = [] := List.length_eq_zero_iff.mp (by simpa using hl)
      rw [not_or] at hc
      exact ⟨c, rfl, by simp [Token.readCharacter, hc.1, Token.orDefault]⟩
  simp [Token.fault?, Piece.InRange, hk, hvalue, hc]

/-- A lexeme has a fault as a token exactly if its value is out of range. -/
theorem fault?_tokenAt (h : kind.Matches (text ++ rest) text.length) :
    (tokenAt file pos (kindAfter previous pos kind) text).fault? = none ↔ Piece.InRange ⟨kind, text⟩ := by
  have htext := h.text
  rw [List.take_left] at htext
  have hlexeme : (tokenAt file pos (kindAfter previous pos kind) text).lexeme.toList = text := String.toList_ofList
  cases kind
  case real => exact fault?_real (kindAfter_of_isRanged rfl) hlexeme (Terminal.mem_real.mp htext)
  case byte => exact fault?_byte (kindAfter_of_isRanged rfl) hlexeme (Terminal.mem_byte.mp htext)
  case char => exact fault?_char (kindAfter_of_isRanged rfl) hlexeme (Terminal.mem_char.mp htext)
  all_goals exact iff_of_true (Grammar.fault?_of_not_isRanged isRanged_kindAfter) trivial

/-! ## The scan -/

/-- The tokens of pieces that stand one behind the other, from a place on. A gap gives none. -/
def tokensOf (file : Option String) : Position → Option Nat → List Piece → List Token
  | _, _, [] => []
  | pos, previous, p :: ps =>
    if p.kind.isGap then tokensOf file (pos.after p.text) previous ps
    else tokenAt file pos (kindAfter previous pos p.kind) p.text
      :: tokensOf file (pos.after p.text) (some (pos.after p.text).offset) ps

/-- A scan ends as it should behind what was munched. Without a fault nothing is left, and a fault starts right there.
-/
def StopsAt (pos : Position) (left : List Char) : Option LexError → Prop
  | none => left = []
  | some e => left ≠ [] ∧ e.span.start = pos.point

/-- What is scanned from some place on is munched there. -/
theorem munches_scanFrom (file : Option String) (pos : Position) (previous : Option Nat) (cs : List Char) : ∃ ps left, IsMunched cs ps left
    ∧ (scanFrom file pos previous cs).tokens = tokensOf file pos previous ps
    ∧ StopsAt (pos.after (ps.flatMap Piece.text)) left (scanFrom file pos previous cs).error := by
  induction cs using Lexeme.induct generalizing pos previous with
  | nil =>
    rw [scanFrom_nil]
    exact ⟨[], [], ⟨.nil, nofun, isStuck_nil⟩, rfl, rfl⟩
  | fault c cs hfirst =>
    rw [scanFrom_fault hfirst]
    exact ⟨[], c :: cs, ⟨.nil, nofun, .inl (first_eq_none_iff.mp hfirst)⟩, rfl, List.cons_ne_nil _ _, rfl⟩
  | lexeme cs kind n hfirst ih =>
    obtain ⟨text, rest, rfl, rfl⟩ := append_of_first hfirst
    have hmunch := IsMunch.of_first hfirst
    rw [List.drop_left] at ih
    by_cases hg : kind.isGap = true
    · have hin : Piece.InRange ⟨kind, text⟩ := by cases kind <;> trivial
      obtain ⟨ps, left, ⟨hps, hrange, hstuck⟩, htokens, hstop⟩ := ih (pos.after text) previous
      rw [scanFrom_gap hfirst hg, List.take_left, List.drop_left]
      refine ⟨⟨kind, text⟩ :: ps, left, ⟨.cons hmunch hps, List.forall_mem_cons.mpr ⟨hin, hrange⟩, hstuck⟩, ?_, ?_⟩
      · rw [htokens, tokensOf, if_pos hg]
      · rwa [List.flatMap_cons, Position.after_append]
    · rw [Bool.not_eq_true] at hg
      have hfault : (tokenAt file pos (kindAfter previous pos kind) text).fault? = none ↔ Piece.InRange ⟨kind, text⟩ :=
        fault?_tokenAt hmunch.isMatch
      rw [scanFrom_lexeme hfirst hg, List.take_left, List.drop_left]
      cases hf : (tokenAt file pos (kindAfter previous pos kind) text).fault? with
      | some fault =>
        have hout : ¬Piece.InRange ⟨kind, (text ++ rest).take text.length⟩ := by
          rw [List.take_left, ← hfault, hf]
          exact nofun
        have hne : text ≠ [] := List.length_pos_iff.mp (first_pos hfirst)
        refine ⟨[], text ++ rest, ⟨.nil, nofun, .inr ⟨kind, text.length, hmunch, hout⟩⟩, rfl, ?_, rfl⟩
        exact List.append_ne_nil_of_left_ne_nil hne rest
      | none =>
        obtain ⟨ps, left, ⟨hps, hrange, hstuck⟩, htokens, hstop⟩ := ih (pos.after text) (some (pos.after text).offset)
        refine ⟨⟨kind, text⟩ :: ps, left, ⟨.cons hmunch hps, List.forall_mem_cons.mpr ⟨hfault.mp hf, hrange⟩, hstuck⟩, ?_, ?_⟩
        · rw [tokensOf, if_neg (by simp [hg]), ← htokens]
          rfl
        · rw [List.flatMap_cons, Position.after_append]
          exact hstop

theorem toExcept_eq_ok_iff (s : Scan) : (∃ tokens, s.toExcept = .ok tokens) ↔ s.error = none := by
  unfold toExcept
  cases s.error with
  | none => exact iff_of_true ⟨s.tokens, rfl⟩ rfl
  | some e => exact iff_of_false nofun nofun

/-- Scanning is maximal munch. At every place what is found is the longest match of all terminals, with the one kind it can
have, and nothing is found exactly if no terminal matches. A source scans well exactly if it can be munched to its end with
every literal in range. In any case the tokens are those of what is munched, and a fault starts where this ends. -/
theorem munches_scan (source : String) (file : Option String) :
    (∀ cs kind n, Lexeme.first cs = some (kind, n) ↔ IsMunch cs kind n)
    ∧ (∀ cs, Lexeme.first cs = none ↔ ∀ (kind : Kind) (n : Nat), ¬kind.Matches cs n)
    ∧ ((∃ tokens, (scan source file).toExcept = .ok tokens) ↔ ∃ ps, Munches source.toList ps [] ∧ ∀ p ∈ ps, p.InRange)
    ∧ ∃ ps left, IsMunched source.toList ps left ∧ (∀ qs left', IsMunched source.toList qs left' → qs = ps ∧ left' = left)
      ∧ (scan source file).tokens = tokensOf file {} none ps
      ∧ StopsAt (({} : Position).after (ps.flatMap Piece.text)) left (scan source file).error := by
  obtain ⟨ps, left, hmunched, htokens, hstop⟩ := munches_scanFrom file {} none source.toList
  refine ⟨fun _ _ _ => first_eq_some_iff, fun _ => first_eq_none_iff, ?_, ps, left, hmunched, ?_, htokens, hstop⟩
  · rw [toExcept_eq_ok_iff, scan]
    constructor
    · intro he
      rw [he] at hstop
      obtain rfl : left = [] := hstop
      exact ⟨ps, hmunched.munches, hmunched.inRange⟩
    · rintro ⟨qs, hqs, hin⟩
      obtain ⟨rfl, rfl⟩ := hmunched.unique ⟨hqs, hin, isStuck_nil⟩
      cases he : (scanFrom file {} none source.toList).error with
      | none => rfl
      | some e =>
        rw [he] at hstop
        exact absurd rfl hstop.1
  · intro qs left' hqs
    exact hqs.unique hmunched

end Scan

end FlatScope
