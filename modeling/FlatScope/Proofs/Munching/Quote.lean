/-
  What is said of a bad character literal. Where no terminal matches at a quote, the reason is found by looking for the next quote
  in the whole rest of the source, and without one at the rest of the line. So an escape is called unknown if it stands alone in
  front of what is found (`LexFault.ofQuote_eq_unknownEscape_iff`), and a literal is said not to have one character if there is any
  quote behind it. The reason is the real fault (`LexFault.IsReal`) but for two sorts of literals that are not closed: a known escape
  at the end of its line, and a literal with the next quote on a later line (`LexFault.isReal_ofQuote_iff`).
-/
import FlatScope.Proofs.Munching.Scan

namespace FlatScope

open Lexeme

namespace LexFault

variable {c : Char} {rest : List Char} {body : String}

/-! ## Escapes that stand alone -/

theorem takeWhile_eq_pair_iff {p : Char → Bool} {c d : Char} {cs : List Char} : cs.takeWhile p = [c, d]
    ↔ ∃ tail, cs = c :: d :: tail ∧ p c = true ∧ p d = true ∧ StopsRun p tail := by
  constructor
  · intro h
    have hsplit := List.takeWhile_append_dropWhile (p := p) (l := cs)
    have hall : ∀ x ∈ cs.takeWhile p, p x = true := fun x hx => List.mem_takeWhile_imp hx
    rw [h] at hsplit hall
    refine ⟨cs.dropWhile p, hsplit.symm, hall c List.mem_cons_self, hall d (List.mem_cons_of_mem c List.mem_cons_self), ?_⟩
    intro x hx
    have hstop := List.head?_dropWhile_not p cs
    rw [Option.mem_def.mp hx] at hstop
    exact hstop
  · rintro ⟨tail, rfl, hc, hd, hstop⟩
    rw [List.takeWhile_cons, if_pos hc, List.takeWhile_cons, if_pos hd, hstop.takeWhile]

/-- The characters of a text up to the end of its first line. -/
def firstLine (cs : List Char) : List Char := cs.takeWhile (· ≠ '\n')

/-- A text is at the end of a line. -/
def EndsLine (cs : List Char) : Prop := StopsRun (· ≠ '\n') cs

/-- A backslash with a character is all that stands behind a quote, up to the next quote. -/
def IsClosedEscape (c : Char) (rest : List Char) : Prop := c ≠ '\'' ∧ ∃ tail, rest = '\\' :: c :: '\'' :: tail

/-- A backslash with a character is all that stands behind a quote on its line, and no other quote follows. -/
def IsOpenEscape (c : Char) (rest : List Char) : Prop :=
  '\'' ∉ rest ∧ c ≠ '\n' ∧ ∃ tail, rest = '\\' :: c :: tail ∧ EndsLine tail

/-- The body of a literal as it is looked for. -/
def bodyOf (rest : List Char) : List Char := if '\'' ∈ rest then rest.takeWhile (· ≠ '\'') else firstLine rest

theorem ofQuote_eq (rest : List Char) : ofQuote rest =
    match bodyOf rest with
    | ['\\', c] => .unknownEscape (String.ofList ['\\', c])
    | _ => if '\'' ∈ rest then .notOneCharacter else .unterminatedCharacter := by
  by_cases h : '\'' ∈ rest
  · rw [bodyOf, if_pos h, if_pos h, ofQuote, List.contains_iff_mem.mpr h]
    rfl
  · rw [bodyOf, if_neg h, if_neg h, ofQuote, Bool.eq_false_iff.mpr fun hc => h (List.contains_iff_mem.mp hc)]
    rfl

theorem bodyOf_eq_escape_iff : bodyOf rest = ['\\', c] ↔ IsClosedEscape c rest ∨ IsOpenEscape c rest := by
  unfold bodyOf
  by_cases h : '\'' ∈ rest
  · rw [if_pos h, takeWhile_eq_pair_iff]
    constructor
    · rintro ⟨tail, rfl, -, hc, hstop⟩
      have hc : c ≠ '\'' := of_decide_eq_true hc
      have htail : '\'' ∈ tail := by simpa [hc.symm] using h
      obtain ⟨d, tail, rfl⟩ := List.exists_cons_of_ne_nil (List.ne_nil_of_mem htail)
      obtain rfl : d = '\'' := not_not.mp (of_decide_eq_false (hstop d rfl))
      exact .inl ⟨hc, tail, rfl⟩
    · rintro (⟨hc, tail, rfl⟩ | ⟨hopen, -⟩)
      · exact ⟨'\'' :: tail, rfl, rfl, decide_eq_true hc, .cons rfl⟩
      · exact absurd h hopen
  · rw [if_neg h, firstLine, takeWhile_eq_pair_iff]
    constructor
    · rintro ⟨tail, rfl, -, hc, hstop⟩
      exact .inr ⟨h, of_decide_eq_true hc, tail, rfl, hstop⟩
    · rintro (⟨-, tail, rfl⟩ | ⟨-, hc, tail, rfl, hend⟩)
      · simp at h
      · exact ⟨tail, rfl, rfl, decide_eq_true hc, hend⟩

/-- A backslash with a character that stands alone is called an unknown escape, whatever the character is. -/
theorem ofQuote_eq_unknownEscape_iff : ofQuote rest = .unknownEscape body
    ↔ ∃ c, (IsClosedEscape c rest ∨ IsOpenEscape c rest) ∧ body = String.ofList ['\\', c] := by
  simp only [← bodyOf_eq_escape_iff]
  rw [ofQuote_eq]
  split
  · rename_i c hbody
    rw [hbody]
    constructor
    · intro h
      exact ⟨c, rfl, (unknownEscape.inj h).symm⟩
    · rintro ⟨d, hd, rfl⟩
      rw [hd]
  · rename_i hnone
    refine iff_of_false ?_ fun ⟨c, hc, _⟩ => hnone c hc
    split <;> exact nofun

theorem IsClosedEscape.mem (h : IsClosedEscape c rest) : '\'' ∈ rest := by
  obtain ⟨-, tail, rfl⟩ := h
  simp

/-- What is no escape that stands alone is judged by whether a quote follows. -/
theorem ofQuote_of_not_escape (h : ∀ c, ¬(IsClosedEscape c rest ∨ IsOpenEscape c rest)) :
    ofQuote rest = if '\'' ∈ rest then .notOneCharacter else .unterminatedCharacter := by
  rw [ofQuote_eq]
  split
  · rename_i c hbody
    exact absurd (bodyOf_eq_escape_iff.mp hbody) (h c)
  · rfl

/-- Any quote that follows, on whatever line, is taken to close a literal. -/
theorem ofQuote_eq_notOneCharacter_iff : ofQuote rest = .notOneCharacter ↔ '\'' ∈ rest ∧ ∀ c, ¬IsClosedEscape c rest := by
  constructor
  · intro h
    have hnone : ∀ c, ¬(IsClosedEscape c rest ∨ IsOpenEscape c rest) := fun c hc =>
      nomatch h.symm.trans (ofQuote_eq_unknownEscape_iff.mpr ⟨c, hc, rfl⟩)
    rw [ofQuote_of_not_escape hnone] at h
    refine ⟨?_, fun c hc => hnone c (.inl hc)⟩
    by_contra hopen
    rw [if_neg hopen] at h
    cases h
  · rintro ⟨hquote, hnone⟩
    rw [ofQuote_of_not_escape fun c hc => hc.elim (hnone c) fun hopen => hopen.1 hquote, if_pos hquote]

theorem ofQuote_eq_unterminatedCharacter_iff :
    ofQuote rest = .unterminatedCharacter ↔ '\'' ∉ rest ∧ ∀ c, ¬IsOpenEscape c rest := by
  constructor
  · intro h
    have hnone : ∀ c, ¬(IsClosedEscape c rest ∨ IsOpenEscape c rest) := fun c hc =>
      nomatch h.symm.trans (ofQuote_eq_unknownEscape_iff.mpr ⟨c, hc, rfl⟩)
    rw [ofQuote_of_not_escape hnone] at h
    refine ⟨fun hquote => ?_, fun c hc => hnone c (.inr hc)⟩
    rw [if_pos hquote] at h
    cases h
  · rintro ⟨hopen, hnone⟩
    rw [ofQuote_of_not_escape fun c hc => hc.elim (fun hclosed => hopen hclosed.mem) (hnone c), if_neg hopen]

/-! ## Real faults -/

/-- A reason is the real fault of what stands behind a quote. An escape that is called unknown is not one of the known
ones, and a literal that is said not to have one character is closed on its line. -/
def IsReal (rest : List Char) : LexFault → Prop
  | .unknownEscape _ => ∃ c tail, rest = '\\' :: c :: tail ∧ escapes.lookup c = none
  | .notOneCharacter => '\'' ∈ firstLine rest
  | _ => True

/-- A closed escape is an unknown one where no terminal matches. -/
theorem IsClosedEscape.lookup_eq_none (h : IsClosedEscape c rest) (hnone : char? ('\'' :: rest) = none) : escapes.lookup c = none := by
  obtain ⟨-, tail, rfl⟩ := h
  by_contra hc
  have hsome : (escapes.lookup c).isSome = true := Option.isSome_iff_ne_none.mpr hc
  cases hnone.symm.trans (char?_eq_some_iff.mpr (.inl ⟨c, tail, rfl, hsome, rfl⟩))

/-- A closed escape is closed on its line, unless the character is a newline. -/
theorem IsClosedEscape.mem_firstLine (h : IsClosedEscape c rest) : '\'' ∈ firstLine rest ∨ IsClosedEscape '\n' rest := by
  by_cases hc : c = '\n'
  · exact .inr (hc ▸ h)
  · obtain ⟨-, tail, rfl⟩ := h
    exact .inl (by simp [firstLine, hc])

/-- The reason is the real fault exactly if no known escape stands open at the end of its line and no quote follows on a later line
only. A newline behind a backslash is an unknown escape. -/
theorem isReal_ofQuote_iff (hnone : char? ('\'' :: rest) = none) : (ofQuote rest).IsReal rest
    ↔ (∀ c, IsOpenEscape c rest → escapes.lookup c = none)
      ∧ ('\'' ∈ rest → '\'' ∈ firstLine rest ∨ IsClosedEscape '\n' rest) := by
  by_cases hclosed : ∃ c, IsClosedEscape c rest
  · obtain ⟨c, hc⟩ := hclosed
    rw [ofQuote_eq_unknownEscape_iff.mpr ⟨c, .inl hc, rfl⟩]
    have hreal : IsReal rest (.unknownEscape (String.ofList ['\\', c])) := by
      obtain ⟨-, tail, hrest⟩ := id hc
      exact ⟨c, '\'' :: tail, hrest, hc.lookup_eq_none hnone⟩
    exact iff_of_true hreal ⟨fun d hd => absurd hc.mem hd.1, fun _ => hc.mem_firstLine⟩
  rw [not_exists] at hclosed
  by_cases hopen : ∃ c, IsOpenEscape c rest
  · obtain ⟨c, hc⟩ := hopen
    rw [ofQuote_eq_unknownEscape_iff.mpr ⟨c, .inr hc, rfl⟩]
    obtain ⟨hquote, -, tail, hrest, -⟩ := id hc
    constructor
    · rintro ⟨d, tail', hrest', hd⟩
      refine ⟨?_, fun hmem => absurd hmem hquote⟩
      rintro e ⟨-, -, tail'', hrest'', -⟩
      obtain rfl : d = e := (List.cons.inj (List.cons.inj (hrest'.symm.trans hrest'')).2).1
      exact hd
    · exact fun h => ⟨c, tail, hrest, h.1 c hc⟩
  rw [not_exists] at hopen
  rw [ofQuote_of_not_escape fun c hc => hc.elim (hclosed c) (hopen c)]
  by_cases hquote : '\'' ∈ rest
  · rw [if_pos hquote]
    exact ⟨fun h => ⟨fun c hc => absurd hc (hopen c), fun _ => .inl h⟩, fun h => (h.2 hquote).resolve_right (hclosed '\n')⟩
  · rw [if_neg hquote]
    exact iff_of_true trivial ⟨fun c hc => absurd hc (hopen c), fun h => absurd h hquote⟩

/-- A fault is what is said where no terminal matches at a quote, with some text behind it. An unknown escape is
reported where an escape stands alone, be it closed by the next quote or open at the end of its line; otherwise all
depends on whether a quote follows. -/
structure IsSaidOf (f : LexFault) (rest : List Char) : Prop where
  unknownEscape : ∀ body, f = .unknownEscape body ↔ ∃ c, (IsClosedEscape c rest ∨ IsOpenEscape c rest) ∧ body = String.ofList ['\\', c]
  notOneCharacter : f = .notOneCharacter ↔ '\'' ∈ rest ∧ ∀ c, ¬IsClosedEscape c rest
  unterminated : f = .unterminatedCharacter ↔ '\'' ∉ rest ∧ ∀ c, ¬IsOpenEscape c rest
  isReal : f.IsReal rest ↔ (∀ c, IsOpenEscape c rest → escapes.lookup c = none)
    ∧ ('\'' ∈ rest → '\'' ∈ firstLine rest ∨ IsClosedEscape '\n' rest)

theorem isSaidOf_ofQuote (hnone : char? ('\'' :: rest) = none) : (ofQuote rest).IsSaidOf rest where
  unknownEscape _ := ofQuote_eq_unknownEscape_iff
  notOneCharacter := ofQuote_eq_notOneCharacter_iff
  unterminated := ofQuote_eq_unterminatedCharacter_iff
  isReal := isReal_ofQuote_iff hnone

/-- A fault that is found where no terminal matches at a quote. -/
def IsOfQuote : LexFault → Prop
  | .unknownEscape _ | .notOneCharacter | .unterminatedCharacter => True
  | _ => False

theorem isOfQuote_ofQuote (rest : List Char) : (ofQuote rest).IsOfQuote := by
  rw [ofQuote_eq]
  split
  · trivial
  · split <;> trivial

theorem isOfQuote_ofCharacter_iff {rest : List Char} : (ofCharacter c rest).IsOfQuote ↔ c = '\'' := by
  unfold ofCharacter
  by_cases hc : c = '\''
  · rw [if_pos hc]
    exact iff_of_true (isOfQuote_ofQuote rest) hc
  · rw [if_neg hc]
    refine iff_of_false ?_ hc
    split
    · exact id
    · split <;> exact id

end LexFault

namespace Scan

variable {file : Option String}

variable (file) in
/-- A scan that has munched what stands in front fails as one of what is left fails there. -/
theorem error_of_munches {cs left : List Char} {ps : List Piece} (h : Munches cs ps left) (hin : ∀ p ∈ ps, p.InRange)
    (pos : Position) (previous : Option Nat) : ∃ previous', (scanFrom file pos previous cs).error
      = (scanFrom file (pos.after (ps.flatMap Piece.text)) previous' left).error := by
  induction h generalizing pos previous with
  | nil => exact ⟨previous, rfl⟩
  | @cons kind text rest left ps hmunch _ ih =>
    obtain ⟨hp, hps⟩ := List.forall_mem_cons.mp hin
    have hfirst := hmunch.first
    by_cases hg : kind.isGap = true
    · obtain ⟨previous', he⟩ := ih hps (pos.after text) previous
      refine ⟨previous', ?_⟩
      rw [scanFrom_gap hfirst hg, List.take_left, List.drop_left, he, List.flatMap_cons, Position.after_append]
    · rw [Bool.not_eq_true] at hg
      obtain ⟨previous', he⟩ := ih hps (pos.after text) (some (pos.after text).offset)
      refine ⟨previous', ?_⟩
      have hfault : (tokenAt file pos (kindAfter previous pos kind) text).fault? = none := (fault?_tokenAt hmunch.isMatch).mpr hp
      rw [scanFrom_token hfirst hg hfault, List.flatMap_cons, Position.after_append]
      exact he

theorem not_isOfQuote_of_fault? {t : Token} {f : LexFault} (h : t.fault? = some f) : ¬f.IsOfQuote := by
  unfold Token.fault? at h
  split at h
  · split at h
    · cases h
    · obtain rfl := Option.some.inj h
      exact id
  · split at h
    · cases h
    · obtain rfl := Option.some.inj h
      exact id
  · split at h
    · cases h
    · obtain rfl := Option.some.inj h
      exact id
  · cases h

/-- Where a literal out of range is munched, the scan fails with a fault that is not found at a quote. -/
theorem not_isOfQuote_of_munch {cs : List Char} {kind : Kind} {n : Nat} (h : IsMunch cs kind n) (hout : ¬Piece.InRange ⟨kind, cs.take n⟩)
    {pos : Position} {previous : Option Nat} {e : LexError} (he : (scanFrom file pos previous cs).error = some e) :
    ¬e.fault.IsOfQuote := by
  obtain ⟨text, rest, rfl, rfl⟩ := append_of_first h.first
  rw [List.take_left] at hout
  have hg : kind.isGap = false := by
    rw [← Bool.not_eq_true]
    intro hg
    cases kind <;> first | exact hout trivial | cases hg
  rw [scanFrom_lexeme h.first hg, List.take_left] at he
  split at he
  · rename_i hfault
    obtain rfl := Option.some.inj he
    exact not_isOfQuote_of_fault? hfault
  · rename_i hfault
    exact absurd ((fault?_tokenAt h.isMatch).mp hfault) hout

/-- What is said of bad character literals. Where munching is stuck since no terminal matches at a quote, the scan fails there, with
a reason that is settled by what stands behind the quote. It is the real fault unless the literal is not closed and a known escape
stands at the end of its line, or the next quote stands on a later line. These reasons are given nowhere else. -/
theorem faults_at_quotes (source : String) (file : Option String) :
    (∀ ps rest, Munches source.toList ps ('\'' :: rest) → (∀ p ∈ ps, p.InRange) →
      (∀ (kind : Kind) (n : Nat), ¬kind.Matches ('\'' :: rest) n) → ∃ e, (scan source file).error = some e
        ∧ e.span.start = (({} : Position).after (ps.flatMap Piece.text)).point ∧ e.fault.IsSaidOf rest)
    ∧ ∀ e, (scan source file).error = some e → e.fault.IsOfQuote → ∃ ps rest, Munches source.toList ps ('\'' :: rest)
      ∧ (∀ p ∈ ps, p.InRange) ∧ ∀ (kind : Kind) (n : Nat), ¬kind.Matches ('\'' :: rest) n := by
  constructor
  · intro ps rest hps hin hnone
    have hfirst := first_eq_none_iff.mpr hnone
    have hchar : char? ('\'' :: rest) = none := Option.map_eq_none_iff.mp ((first_quote rest).symm.trans hfirst)
    obtain ⟨previous, he⟩ := error_of_munches file hps hin {} none
    rw [scanFrom_fault hfirst] at he
    exact ⟨_, he, rfl, LexFault.isSaidOf_ofQuote hchar⟩
  · intro e he hquote
    obtain ⟨ps, left, ⟨hps, hin, hstuck⟩, -, hstop⟩ := munches_scanFrom file {} none source.toList
    obtain ⟨previous, hleft⟩ := error_of_munches file hps hin {} none
    rw [show (scanFrom file {} none source.toList).error = some e from he] at hstop hleft
    obtain hnone | ⟨kind, n, hmunch, hout⟩ := hstuck
    · obtain ⟨c, rest, rfl⟩ := List.exists_cons_of_ne_nil hstop.1
      rw [scanFrom_fault (first_eq_none_iff.mpr hnone)] at hleft
      obtain rfl := Option.some.inj hleft
      obtain rfl := LexFault.isOfQuote_ofCharacter_iff.mp hquote
      exact ⟨ps, rest, hps, hin, hnone⟩
    · exact absurd hquote (not_isOfQuote_of_munch hmunch hout hleft.symm)

/-- A literal of two characters is closed on its line, so the reason is the real fault. -/
theorem faults_at_quotes_pair : ∃ ps rest e, Munches "c 'ab' d".toList ps ('\'' :: rest) ∧ (∀ p ∈ ps, p.InRange)
    ∧ (∀ (kind : Kind) (n : Nat), ¬kind.Matches ('\'' :: rest) n) ∧ (scan "c 'ab' d").error = some e ∧ e.fault = .notOneCharacter
    ∧ e.fault.IsSaidOf rest := by
  have hfault : (scan "c 'ab' d").error.map LexError.fault = some .notOneCharacter := by decide +kernel
  obtain ⟨e, he, hfault⟩ := Option.map_eq_some_iff.mp hfault
  obtain ⟨ps, rest, hps, hin, hnone⟩ := (faults_at_quotes "c 'ab' d" none).2 e he (by rw [hfault]; trivial)
  obtain ⟨e', he', -, hsaid⟩ := (faults_at_quotes "c 'ab' d" none).1 ps rest hps hin hnone
  obtain rfl := Option.some.inj (he.symm.trans he')
  exact ⟨ps, rest, e, hps, hin, hnone, he, hfault, hsaid⟩

/-- Two literals that are not closed: an escape that is a known one is called unknown where its line ends, and a character in front of
the end of its line is said not to be one because a quote follows on the next line. -/
theorem faults_at_open_quotes :
    (scan "'\\n").error = some ⟨.unknownEscape "\\n", { start := ⟨some 1, some 1, some 0⟩ }⟩
    ∧ Lexeme.first "'\\n".toList = none ∧ ¬(LexFault.unknownEscape "\\n").IsReal ['\\', 'n']
    ∧ (scan "'a\n'").error = some ⟨.notOneCharacter, { start := ⟨some 1, some 1, some 0⟩ }⟩
    ∧ Lexeme.first "'a\n'".toList = none ∧ ¬LexFault.notOneCharacter.IsReal ['a', '\n', '\''] := by
  have hopen : '\'' ∉ LexFault.firstLine ['a', '\n', '\''] := by decide
  refine ⟨by decide +kernel, by decide, ?_, by decide +kernel, by decide, hopen⟩
  rintro ⟨c, tail, htext, hc⟩
  obtain rfl := (List.cons.inj (List.cons.inj htext).2).1
  exact absurd hc (by decide)

end Scan

end FlatScope
