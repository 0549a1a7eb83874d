/-
  Tokens and gaps tile a source. Between the end of one token and the start of the next there is nothing but a gap: white
  space, and comments each of which runs to the end of its line (`IsTrivia`). `Tiled` goes along the tokens of a scan and says
  so of every stretch between them, and of each token that its text and its two places are those of the source
  (`Token.IsIn`) and that its kind says truly whether it touches the token before it (`Token.IsMarked`). Every scan is
  tiled, whether it ends with the source or at a fault (`Scan.tiled_scan`).
-/
import FlatScope.Proofs.Token.Scan
import Mathlib.Data.List.Induction

namespace FlatScope

/-! ## Places -/

/-- A place is that of its offset in a text. Lines are counted by the newlines in front, and columns from the place
just behind the last of these. -/
structure Position.IsIn (text : List Char) (p : Position) : Prop where
  offset : p.offset ≤ text.length
  line : p.line = 1 + (text.take p.offset).count '\n'
  column : ∃ lines rest, text.take p.offset = lines ++ rest ∧ (lines = [] ∨ lines.getLast? = some '\n') ∧ '\n' ∉ rest
    ∧ p.column = p.offset - lines.length + 1

theorem Position.offset_after (text : List Char) : (({} : Position).after text).offset = text.length := by
  rw [after_offset]
  exact Nat.zero_add _

/-- The place behind all of a text. -/
theorem Position.isIn_after_self (text : List Char) : (({} : Position).after text).IsIn text := by
  induction text using List.reverseRecOn with
  | nil => exact ⟨Nat.le_refl 0, rfl, [], [], rfl, .inl rfl, List.not_mem_nil, rfl⟩
  | append_singleton text c ih =>
    obtain ⟨-, hline, lines, rest, htext, hlast, hrest, hcolumn⟩ := ih
    rw [offset_after, List.take_length] at hline htext
    rw [offset_after] at hcolumn
    have hlength : text.length = lines.length + rest.length := by rw [htext, List.length_append]
    have hstep : ({} : Position).after (text ++ [c]) = (({} : Position).after text).step c := after_append _ text [c]
    refine ⟨(offset_after _).le, ?_, ?_⟩
    · rw [offset_after, List.take_length, List.count_append, hstep, step]
      by_cases hc : c = '\n'
      · rw [if_pos hc, hc]
        show (({} : Position).after text).line + 1 = 1 + (text.count '\n' + 1)
        omega
      · rw [if_neg hc, List.count_singleton, if_neg (by simpa using hc)]
        exact hline
    · rw [offset_after, List.take_length, hstep, step]
      by_cases hc : c = '\n'
      · rw [if_pos hc, hc]
        refine ⟨text ++ ['\n'], [], (List.append_nil _).symm, .inr List.getLast?_concat, List.not_mem_nil, ?_⟩
        rw [Nat.sub_self]
      · rw [if_neg hc]
        refine ⟨lines, rest ++ [c], by rw [htext, List.append_assoc], hlast, ?_, ?_⟩
        · rw [List.mem_append, List.mem_singleton, not_or]
          exact ⟨hrest, fun h => hc h.symm⟩
        · show (({} : Position).after text).column + 1 = _
          rw [hcolumn, List.length_append, List.length_singleton]
          omega

/-- The place behind the beginning of a text. -/
theorem Position.isIn_after (before rest : List Char) : (({} : Position).after before).IsIn (before ++ rest) := by
  have hself := isIn_after_self before
  have htake : (before ++ rest).take (({} : Position).after before).offset = before.take (({} : Position).after before).offset := by
    rw [offset_after, List.take_left, List.take_length]
  refine ⟨hself.offset.trans ?_, ?_, ?_⟩
  · rw [List.length_append]
    exact Nat.le_add_right _ _
  · rw [htake]
    exact hself.line
  · rw [htake]
    exact hself.column

/-- The characters of a text from one offset to another. -/
def slice (text : List Char) (start stop : Nat) : List Char := (text.take stop).drop start

theorem slice_append (before middle rest : List Char) :
    slice (before ++ (middle ++ rest)) before.length (before.length + middle.length) = middle := by
  rw [slice, List.take_length_add_append, List.drop_left, List.take_left]

theorem slice_left (before rest : List Char) (start : Nat) :
    slice (before ++ rest) start before.length = before.drop start := by
  rw [slice, List.take_left]

/-! ## Trivia -/

/-- White space and comments, in front of what is left of a text. Each comment runs to the end of its line. -/
inductive IsTrivia (rest : List Char) : List Char → Prop
  | nil : IsTrivia rest []
  | space {c : Char} {cs : List Char} (hc : Lexeme.isSpace c = true) (h : IsTrivia rest cs) : IsTrivia rest (c :: cs)
  | comment {body cs : List Char} (hbody : ∀ c ∈ body, c ≠ '\n') (hend : ∀ c ∈ (cs ++ rest).head?, c = '\n')
    (h : IsTrivia rest cs) : IsTrivia rest ('/' :: '/' :: (body ++ cs))

namespace IsTrivia

variable {rest gap cs : List Char}

theorem append (hgap : IsTrivia (cs ++ rest) gap) (h : IsTrivia rest cs) : IsTrivia rest (gap ++ cs) := by
  induction hgap with
  | nil => exact h
  | space hc _ ih => exact .space hc ih
  | @comment body ds hbody hend _ ih =>
    rw [List.cons_append, List.cons_append, List.append_assoc]
    exact .comment hbody (by rwa [List.append_assoc]) ih

theorem of_spaces (h : ∀ c ∈ cs, Lexeme.isSpace c = true) : IsTrivia rest cs := by
  induction cs with
  | nil => exact .nil
  | cons c cs ih =>
    obtain ⟨hc, hcs⟩ := List.forall_mem_cons.mp h
    exact .space hc (ih hcs)

theorem of_comment {body : List Char} (hbody : ∀ c ∈ body, c ≠ '\n') (hend : ∀ c ∈ rest.head?, c = '\n') :
    IsTrivia rest ('/' :: '/' :: body) := by
  rw [← List.append_nil body]
  exact .comment hbody hend .nil

end IsTrivia

namespace Lexeme

variable {cs : List Char} {kind : Kind} {n : Nat}

theorem drop_run {p : Char → Bool} : cs.drop (run p cs) = cs.dropWhile p := by
  have hcut := List.takeWhile_append_dropWhile (p := p) (l := cs)
  calc cs.drop (run p cs) = (cs.takeWhile p ++ cs.dropWhile p).drop (run p cs) := by rw [hcut]
    _ = cs.dropWhile p := List.drop_left

theorem isGap_wordKind (cs : List Char) : (wordKind cs).isGap = false := by
  unfold wordKind
  cases hk : Kind.ofKeyword? (String.ofList cs) with
  | none => rfl
  | some kind =>
    unfold Kind.ofKeyword? at hk
    split at hk <;> cases hk <;> rfl

theorem gap_of_first (h : first cs = some (kind, n)) (hg : kind.isGap = true) :
    comment? cs = some n ∨ space? cs = some n := by
  unfold first at h
  split at h
  · cases h; cases hg
  split at h
  · cases h; cases hg
  split at h
  · cases h; cases hg
  split at h
  · cases h
    rw [isGap_wordKind] at hg
    cases hg
  split at h
  · cases h; cases hg
  split at h
  · cases h; cases hg
  split at h
  · cases h
    exact .inl ‹_›
  split at h
  · cases h
    exact .inr ‹_›
  · unfold mark? at h
    split at h <;> cases h <;> cases hg

/-- A lexeme that is no token is a gap. -/
theorem isTrivia_of_first (h : first cs = some (kind, n)) (hg : kind.isGap = true) : IsTrivia (cs.drop n) (cs.take n) := by
  rcases gap_of_first h hg with hc | hs
  · unfold comment? at hc
    split at hc
    · rename_i rest
      obtain rfl := Option.some.inj hc
      rw [Nat.add_comm, List.take_succ_cons, List.take_succ_cons, List.drop_succ_cons, List.drop_succ_cons, take_run,
        drop_run]
      apply IsTrivia.of_comment
      · intro c hc
        simpa using List.mem_takeWhile_imp hc
      · intro c hc
        have hstop := List.head?_dropWhile_not (fun c : Char => decide (c ≠ '\n')) rest
        rw [Option.mem_def.mp hc] at hstop
        simpa using hstop
    · cases hc
  · exact .of_spaces (run?_spelled hs).2

end Lexeme

/-! ## Tokens -/

/-- The texts that come in two kinds, with the kind of those that stand apart from the token before them. -/
def openers : List (String × Kind) := [("[", .spacedBracket), ("(", .spacedParen), ("*", .spacedStar)]

namespace Token

/-- The text of a token and its places are those of a text. -/
structure IsIn (text : List Char) (t : Token) : Prop where
  nonempty : t.lexeme ≠ ""
  lexeme : t.lexeme.toList = slice text t.start.offset t.stop.offset
  offsets : t.start.offset < t.stop.offset
  start : t.start.IsIn text
  stop : t.stop.IsIn text

/-- The kind of a token says truly whether it touches the token before it. -/
structure IsMarked (t : Token) (touches : Prop) : Prop where
  touching : t.kind.touches = true ↔ (∃ kind, (t.lexeme, kind) ∈ openers) ∧ touches
  opener : ∀ kind, (t.lexeme, kind) ∈ openers → t.kind = kind ∨ t.kind = kind.touching

end Token

/-- A scan tiles a text from the end of the token before it on: in front of each token, and of the end of the text, there is
a gap, and each token is one of the text and marked as it stands. Behind a fault nothing is said. -/
inductive Tiled (text : List Char) : Option Nat → Scan → Prop
  | fault (previous : Option Nat) (e : LexError) : Tiled text previous ⟨[], some e⟩
  | done {previous : Option Nat} (h : IsTrivia [] (text.drop (previous.getD 0))) : Tiled text previous ⟨[], none⟩
  | token {previous : Option Nat} {t : Token} {s : Scan} (hle : previous.getD 0 ≤ t.start.offset)
    (hgap : IsTrivia (text.drop t.start.offset) (slice text (previous.getD 0) t.start.offset)) (hin : t.IsIn text)
    (hmark : t.IsMarked (previous = some t.start.offset)) (h : Tiled text (some t.stop.offset) s) :
    Tiled text previous (s.cons t)

/-- The tokens of a scan that tiles a text are tokens of the text. -/
theorem Tiled.isIn {text : List Char} {previous : Option Nat} {s : Scan} (h : Tiled text previous s) : ∀ t ∈ s.tokens, t.IsIn text := by
  induction h with
  | fault | done => exact nofun
  | token _ _ hin _ _ ih => exact List.forall_mem_cons.mpr ⟨hin, ih⟩

namespace Scan

variable {file : Option String} {pos : Position} {previous : Option Nat} {cs : List Char} {kind : Kind} {n : Nat}

/-- An opener is found as what it is when it stands apart. -/
theorem eq_of_first_opener (h : Lexeme.first cs = some (kind, n)) {lexeme : String} {opener : Kind}
    (ho : (lexeme, opener) ∈ openers) (hl : cs.take n = lexeme.toList) : kind = opener := by
  have hmark : ∀ c : Char, Lexeme.isPlain c = true → Lexeme.isSpace c = false → cs.take n = [c] →
      Lexeme.mark? (c :: cs.drop n) = some (kind, n) := by
    intro c hp hs hc
    have hcs : cs = c :: cs.drop n := by
      rw [← List.singleton_append, ← hc, List.take_append_drop]
    rw [← Lexeme.first_mark hp hs, ← hcs]
    exact h
  simp only [openers, List.mem_cons, Prod.mk.injEq, List.not_mem_nil, or_false] at ho
  rcases ho with ⟨rfl, rfl⟩ | ⟨rfl, rfl⟩ | ⟨rfl, rfl⟩
  · have hfound := hmark '[' rfl rfl hl
    cases hfound
    rfl
  · have hfound := hmark '(' rfl rfl hl
    cases hfound
    rfl
  · have hfound := hmark '*' rfl rfl hl
    cases hfound
    rfl

/-- What spells a touching kind is an opener. -/
theorem exists_opener (h : kind.Spells cs) (hk : kind.touches = true) :
    ∃ opener, (String.ofList cs, opener) ∈ openers := by
  cases kind
  case bracket =>
    obtain rfl : cs = ['['] := h
    exact ⟨.spacedBracket, by decide⟩
  case paren =>
    obtain rfl : cs = ['('] := h
    exact ⟨.spacedParen, by decide⟩
  case star =>
    obtain rfl : cs = ['*'] := h
    exact ⟨.spacedStar, by decide⟩
  all_goals cases hk

theorem isMarked_tokenAt (h : Lexeme.first cs = some (kind, n)) (hg : kind.isGap = false) :
    (tokenAt file pos (kindAfter previous pos kind) (cs.take n)).IsMarked (previous = some pos.offset) := by
  have hopener : ∀ opener, (String.ofList (cs.take n), opener) ∈ openers → kind = opener :=
    fun opener ho => eq_of_first_opener h ho String.toList_ofList.symm
  have htouches : ∀ opener : Kind, ∀ lexeme : String, (lexeme, opener) ∈ openers →
      opener.touches = false ∧ opener.touching.touches = true := by
    intro opener lexeme ho
    simp only [openers, List.mem_cons, Prod.mk.injEq, List.not_mem_nil, or_false] at ho
    rcases ho with ⟨-, rfl⟩ | ⟨-, rfl⟩ | ⟨-, rfl⟩ <;> exact ⟨rfl, rfl⟩
  have hspells : (kindAfter previous pos kind).Spells (cs.take n) := by
    unfold kindAfter
    split
    · exact (Lexeme.spells_of_first h hg).touching
    · exact Lexeme.spells_of_first h hg
  constructor
  · show (kindAfter previous pos kind).touches = true ↔ _
    constructor
    · intro ht
      obtain ⟨opener, ho⟩ := exists_opener hspells ht
      refine ⟨⟨opener, ho⟩, ?_⟩
      by_contra hne
      rw [kindAfter, if_neg hne, hopener opener ho, (htouches opener _ ho).1] at ht
      cases ht
    · rintro ⟨⟨opener, ho⟩, heq⟩
      rw [kindAfter, if_pos heq, hopener opener ho]
      exact (htouches opener _ ho).2
  · intro opener ho
    show kindAfter previous pos kind = opener ∨ kindAfter previous pos kind = opener.touching
    rw [kindAfter, hopener opener ho]
    split
    · exact .inr rfl
    · exact .inl rfl

/-- A lexeme behind the beginning of a text is a token of the text. -/
theorem isIn_tokenAt {before : List Char} (h : Lexeme.first cs = some (kind, n)) (k : Kind) :
    (tokenAt file (({} : Position).after before) k (cs.take n)).IsIn (before ++ cs) := by
  have hpos := Lexeme.first_pos h
  have hne : cs ≠ [] := by
    rintro rfl
    cases h
  have hlength : 0 < (cs.take n).length := by
    have hcs := List.length_pos_iff.mpr hne
    rw [List.length_take]
    omega
  have hcut : before ++ cs = before ++ (cs.take n ++ cs.drop n) := by rw [List.take_append_drop]
  have hstop : (({} : Position).after before).after (cs.take n) = ({} : Position).after (before ++ cs.take n) :=
    (Position.after_append _ before _).symm
  refine ⟨?_, ?_, ?_, Position.isIn_after before cs, ?_⟩
  · intro he
    have hlist := congrArg String.toList he
    rw [tokenAt, String.toList_ofList] at hlist
    rw [hlist] at hlength
    exact absurd hlength (Nat.lt_irrefl 0)
  · show (String.ofList (cs.take n)).toList
      = slice _ (({} : Position).after before).offset ((({} : Position).after before).after (cs.take n)).offset
    rw [hstop, Position.offset_after, Position.offset_after, String.toList_ofList, hcut, List.length_append, slice_append]
  · show (({} : Position).after before).offset < ((({} : Position).after before).after (cs.take n)).offset
    rw [hstop, Position.offset_after, Position.offset_after, List.length_append]
    exact Nat.lt_add_of_pos_right hlength
  · show ((({} : Position).after before).after (cs.take n)).IsIn _
    rw [hstop, hcut, ← List.append_assoc]
    exact Position.isIn_after _ _

/-! ## Runs -/

/-- What is scanned behind the beginning of a text is tiled, if behind the token before there is a gap up to there. -/
theorem tiled_scanFrom {before : List Char} (hle : previous.getD 0 ≤ before.length)
    (hgap : IsTrivia cs (before.drop (previous.getD 0))) :
    Tiled (before ++ cs) previous (scanFrom file (({} : Position).after before) previous cs) := by
  induction h : cs.length using Nat.strongRecOn generalizing before previous cs with
  | ind m ih =>
    subst h
    cases hfirst : Lexeme.first cs with
    | none =>
      cases cs with
      | nil =>
        rw [scanFrom_nil, List.append_nil]
        exact .done hgap
      | cons c rest =>
        rw [scanFrom_fault hfirst]
        exact .fault previous _
    | some found =>
      obtain ⟨kind, n⟩ := found
      have hpos := Lexeme.first_pos hfirst
      have hne : cs ≠ [] := by
        rintro rfl
        cases hfirst
      have hlt : (cs.drop n).length < cs.length := by
        have hcs := List.length_pos_iff.mpr hne
        rw [List.length_drop]
        omega
      have hcut : before ++ cs = (before ++ cs.take n) ++ cs.drop n := by rw [List.append_assoc, List.take_append_drop]
      have hafter : (({} : Position).after before).after (cs.take n) = ({} : Position).after (before ++ cs.take n) :=
        (Position.after_append _ before _).symm
      by_cases hg : kind.isGap = true
      · -- the gap behind the token before goes on
        rw [scanFrom_gap hfirst hg, hafter, hcut]
        apply ih _ hlt _ _ rfl
        · rw [List.length_append]
          exact Nat.le_add_right_of_le hle
        · rw [List.drop_append_of_le_length hle]
          apply IsTrivia.append _ (Lexeme.isTrivia_of_first hfirst hg)
          rwa [List.take_append_drop]
      · rw [Bool.not_eq_true] at hg
        rw [scanFrom_lexeme hfirst hg]
        split
        · exact .fault previous _
        · have hstart : (({} : Position).after before).offset = before.length := Position.offset_after before
          apply Tiled.token
          · exact hle.trans hstart.ge
          · show IsTrivia (List.drop (({} : Position).after before).offset _) (slice _ _ (({} : Position).after before).offset)
            rw [hstart, List.drop_left, slice_left]
            exact hgap
          · exact isIn_tokenAt hfirst _
          · exact isMarked_tokenAt hfirst hg
          · -- behind the token there is nothing yet
            rw [hafter, hcut]
            show Tiled _ (some ((({} : Position).after before).after (cs.take n)).offset) _
            rw [hafter]
            apply ih _ hlt _ _ rfl
            · exact (Position.offset_after _).le
            · rw [Option.getD_some, Position.offset_after, List.drop_length]
              exact .nil

/-- The tokens of a source are where they say they are. -/
theorem isIn_of_mem_scan (source : String) (file : Option String) : ∀ t ∈ (scan source file).tokens, t.IsIn source.toList := by
  have htiled : Tiled source.toList none (scan source file) := @tiled_scanFrom _ _ _ [] (Nat.le_refl 0) .nil
  exact htiled.isIn

/-- Every scan tiles its source, up to its end or to a fault. -/
theorem tiled_scan (source : String) (file : Option String) : Tiled source.toList none (scan source file) :=
  @tiled_scanFrom _ _ _ [] (Nat.le_refl 0) .nil

end Scan

end FlatScope
