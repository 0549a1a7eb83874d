/-
  Scanning one text behind another. With a newline between them two texts are scanned one by one: the tokens of the first,
  if it has no fault, and then what the second gives, so many lines and characters further on (`Scan.scan_append`).
  Nothing at the end of the first text goes on behind the newline (`Scan.scanFrom_newline`), a token behind it touches no
  token in front (`Scan.scanFrom_apart`), and a text is scanned alike wherever it stands (`Scan.scanFrom_shift`).
-/
import FlatScope.Proofs.Concatenation.Lexeme
import FlatScope.Proofs.Token.Scan

namespace FlatScope

/-! ## Places further on -/

/-- A place so many lines and characters further on. -/
def Position.shift (lines chars : Nat) (p : Position) : Position := ⟨p.line + lines, p.column, p.offset + chars⟩

def Point.shift (lines chars : Nat) (p : Point) : Point :=
  ⟨p.line.map (· + (lines : Int)), p.column, p.offset.map (· + (chars : Int))⟩

def Span.shift (lines chars : Nat) (s : Span) : Span := ⟨s.file, s.start.shift lines chars, s.stop.shift lines chars⟩

def Token.shift (lines chars : Nat) (t : Token) : Token :=
  { t with start := t.start.shift lines chars, stop := t.stop.shift lines chars }

def LexError.shift (lines chars : Nat) (e : LexError) : LexError := ⟨e.fault, e.span.shift lines chars⟩

/-- A scan of the same text so many lines and characters further on. -/
def Scan.shift (lines chars : Nat) (s : Scan) : Scan := ⟨s.tokens.map (Token.shift lines chars), s.error.map (LexError.shift lines chars)⟩

variable {lines chars : Nat}

theorem Position.point_shift (p : Position) : (p.shift lines chars).point = p.point.shift lines chars := by
  simp [shift, point, Point.shift]

theorem Token.span_shift (t : Token) : (t.shift lines chars).span = t.span.shift lines chars := by
  simp only [span, shift, Position.point_shift, Span.shift]

theorem Span.shift_join (a b : Span) : (a.join b).shift lines chars = (a.shift lines chars).join (b.shift lines chars) := rfl

namespace Position

theorem step_shift (p : Position) (c : Char) : (p.shift lines chars).step c = (p.step c).shift lines chars := by
  unfold step
  split
  · simp only [shift, Nat.add_right_comm]
  · simp only [shift, Nat.add_right_comm]

theorem after_shift (p : Position) (cs : List Char) : (p.shift lines chars).after cs = (p.after cs).shift lines chars := by
  induction cs generalizing p with
  | nil => rfl
  | cons c cs ih => rw [after_cons, after_cons, step_shift, ih]

theorem line_after (p : Position) (cs : List Char) : (p.after cs).line = p.line + cs.count '\n' := by
  induction cs generalizing p with
  | nil => rfl
  | cons c cs ih =>
    rw [after_cons, ih, step]
    by_cases hc : c = '\n'
    · subst hc
      rw [if_pos rfl, List.count_cons_self, Nat.add_right_comm, Nat.add_assoc]
    · rw [if_neg hc, List.count_cons_of_ne (by simpa using hc)]

/-- Behind a text and a newline a line begins. -/
theorem after_newline (cs : List Char) :
    (({} : Position).after cs).step '\n' = ({} : Position).shift (cs.count '\n' + 1) (cs.length + 1) := by
  rw [step, if_pos rfl, line_after, after_offset, shift, Nat.add_assoc, Nat.add_assoc]

end Position

namespace Scan

variable {file : Option String} {pos : Position} {previous : Option Nat} {cs : List Char}

/-! ## A scan at another place -/

/-- The token in front only matters to a token that starts where it ends. -/
theorem scanFrom_apart (h : ∀ n ∈ previous, n < pos.offset) : scanFrom file pos previous cs = scanFrom file pos none cs := by
  induction cs using Lexeme.induct generalizing pos previous with
  | nil => rw [scanFrom_nil, scanFrom_nil]
  | fault c cs hfirst => rw [scanFrom_fault hfirst, scanFrom_fault hfirst]
  | lexeme cs kind n hfirst ih =>
    by_cases hg : kind.isGap = true
    · rw [scanFrom_gap hfirst hg, scanFrom_gap hfirst hg]
      refine ih fun m hm => ?_
      rw [Position.after_offset]
      exact Nat.lt_add_right _ (h m hm)
    · rw [Bool.not_eq_true] at hg
      have hkind : kindAfter previous pos kind = kindAfter none pos kind := by
        have hne : previous ≠ some pos.offset := fun hp => Nat.lt_irrefl _ (h _ hp)
        rw [kindAfter, kindAfter, if_neg hne, if_neg (Option.some_ne_none _).symm]
      rw [scanFrom_lexeme hfirst hg, scanFrom_lexeme hfirst hg, hkind]

theorem kindAfter_shift (kind : Kind) :
    kindAfter (previous.map (· + chars)) (pos.shift lines chars) kind = kindAfter previous pos kind := by
  have hiff : previous.map (· + chars) = some (pos.shift lines chars).offset ↔ previous = some pos.offset := by
    cases previous with
    | none => exact iff_of_false nofun nofun
    | some n =>
      rw [Option.map_some, Option.some.injEq, Option.some.injEq, Position.shift]
      exact Nat.add_right_cancel_iff
  simp only [kindAfter, hiff]

theorem tokenAt_shift (kind : Kind) (lexeme : List Char) :
    tokenAt file (pos.shift lines chars) kind lexeme = (tokenAt file pos kind lexeme).shift lines chars := by
  rw [tokenAt, Position.after_shift]
  rfl

/-- A text is scanned alike wherever it stands. -/
theorem scanFrom_shift : scanFrom file (pos.shift lines chars) (previous.map (· + chars)) cs
    = (scanFrom file pos previous cs).shift lines chars := by
  induction cs using Lexeme.induct generalizing pos previous with
  | nil =>
    rw [scanFrom_nil, scanFrom_nil]
    rfl
  | fault c cs hfirst =>
    rw [scanFrom_fault hfirst, scanFrom_fault hfirst, Position.point_shift]
    rfl
  | lexeme cs kind n hfirst ih =>
    by_cases hg : kind.isGap = true
    · rw [scanFrom_gap hfirst hg, scanFrom_gap hfirst hg, Position.after_shift, ih]
    · rw [Bool.not_eq_true] at hg
      rw [scanFrom_lexeme hfirst hg, scanFrom_lexeme hfirst hg, kindAfter_shift, tokenAt_shift, Position.after_shift]
      have hfault (t : Token) : (t.shift lines chars).fault? = t.fault? := rfl
      rw [hfault]
      cases (tokenAt file pos (kindAfter previous pos kind) (cs.take n)).fault? with
      | some fault =>
        dsimp only
        rw [Token.span_shift]
        rfl
      | none =>
        have hrest : scanFrom file ((pos.after (cs.take n)).shift lines chars) ((some (pos.after (cs.take n)).offset).map (· + chars))
            (cs.drop n) = _ := ih
        dsimp only
        rw [Option.map_some] at hrest
        rw [show ((pos.after (cs.take n)).shift lines chars).offset = (pos.after (cs.take n)).offset + chars from rfl, hrest]
        rfl

/-! ## A newline between -/

theorem scanFrom_spaces {xs ys : List Char} (h : ∀ c ∈ xs, Lexeme.isSpace c = true) :
    scanFrom file pos previous (xs ++ ys) = scanFrom file (pos.after xs) previous ys := by
  induction xs generalizing pos with
  | nil => rfl
  | cons c xs ih =>
    obtain ⟨hc, hxs⟩ := List.forall_mem_cons.mp h
    rw [List.cons_append, scanFrom_space hc, ih hxs, Position.after_cons]

/-- What is scanned in front of a newline is scanned, if it has no fault, and then what is behind the newline. -/
theorem scanFrom_newline (rest : List Char) (hprevious : ∀ n ∈ previous, n ≤ pos.offset)
    (h : (scanFrom file pos previous cs).error = none) : scanFrom file pos previous (cs ++ '\n' :: rest)
      = (scanFrom file ((pos.after cs).step '\n') none rest).prepend (scanFrom file pos previous cs).tokens := by
  induction cs using Lexeme.induct generalizing pos previous with
  | nil =>
    have hfar : ∀ n ∈ previous, n < (pos.step '\n').offset := fun n hn => by
      rw [Position.step_offset]
      exact Nat.lt_succ_of_le (hprevious n hn)
    rw [List.nil_append, scanFrom_space rfl, scanFrom_apart hfar, scanFrom_nil]
    rfl
  | fault c cs hfirst =>
    rw [scanFrom_fault hfirst] at h
    cases h
  | lexeme cs kind n hfirst ih =>
    have hn := Lexeme.first_le hfirst
    have hrest : (cs ++ '\n' :: rest).drop n = cs.drop n ++ '\n' :: rest := List.drop_append_of_le_length hn
    have hafter : (pos.after (cs.take n)).after (cs.drop n) = pos.after cs := by
      rw [← Position.after_append, List.take_append_drop]
    have hfar (m : Nat) (hm : m ∈ previous) : m ≤ (pos.after (cs.take n)).offset := by
      rw [Position.after_offset]
      exact Nat.le_add_right_of_le (hprevious m hm)
    obtain _ | ⟨c, cs⟩ := cs
    · cases hfirst
    · cases hc : Lexeme.isSpace c with
      | true =>
        -- white space goes on with the newline, so it is passed a character at a time
        have hspaces : ∀ d ∈ (c :: cs).take n, Lexeme.isSpace d = true := by
          rw [Lexeme.first_space hc] at hfirst
          obtain ⟨-, rfl⟩ := Prod.mk.inj (Option.some.inj hfirst)
          rw [List.take_succ_cons, Lexeme.take_run]
          exact List.forall_mem_cons.mpr ⟨hc, fun d hd => List.mem_takeWhile_imp hd⟩
        have hfront : scanFrom file pos previous (c :: cs) = scanFrom file (pos.after ((c :: cs).take n)) previous ((c :: cs).drop n) := by
          rw [← scanFrom_spaces hspaces, List.take_append_drop]
        have hboth : scanFrom file pos previous (c :: cs ++ '\n' :: rest)
            = scanFrom file (pos.after ((c :: cs).take n)) previous ((c :: cs).drop n ++ '\n' :: rest) := by
          rw [← scanFrom_spaces hspaces, ← List.append_assoc, List.take_append_drop]
        rw [hfront] at h ⊢
        rw [hboth, ih hfar h, hafter]
      | false =>
        have hfirst' := hfirst
        rw [← Lexeme.first_newline cs rest hc] at hfirst'
        have htake : (c :: cs ++ '\n' :: rest).take n = (c :: cs).take n := List.take_append_of_le_length hn
        by_cases hg : kind.isGap = true
        · rw [scanFrom_gap hfirst hg] at h ⊢
          rw [scanFrom_gap hfirst' hg, htake, hrest, ih hfar h, hafter]
        · rw [Bool.not_eq_true] at hg
          rw [scanFrom_lexeme hfirst hg] at h ⊢
          rw [scanFrom_lexeme hfirst' hg, htake, hrest]
          cases hfault : (tokenAt file pos (kindAfter previous pos kind) ((c :: cs).take n)).fault? with
          | some fault =>
            rw [hfault] at h
            cases h
          | none =>
            rw [hfault] at h
            have hself (m : Nat) (hm : m ∈ some (pos.after ((c :: cs).take n)).offset) :
                m ≤ (pos.after ((c :: cs).take n)).offset := (Option.some.inj hm).ge
            dsimp only at h ⊢
            rw [ih hself h, hafter]
            rfl

/-- Two texts with a newline between them are scanned one by one, if the first has no fault: the tokens of the first come first,
and then what the second gives, so many lines and characters further on. -/
theorem scan_append {s₁ : String} (h : (scan s₁ file).error = none) (s₂ : String) : scan (s₁ ++ "\n" ++ s₂) file
    = ((scan s₂ file).shift (s₁.toList.count '\n' + 1) (s₁.length + 1)).prepend (scan s₁ file).tokens := by
  have htext : (s₁ ++ "\n" ++ s₂).toList = s₁.toList ++ '\n' :: s₂.toList := by
    rw [String.toList_append, String.toList_append, List.append_assoc]
    rfl
  have hshift : scanFrom file (({} : Position).shift (s₁.toList.count '\n' + 1) (s₁.length + 1))
      ((none : Option Nat).map (· + (s₁.length + 1))) s₂.toList = _ := scanFrom_shift
  have hnone : ∀ n ∈ (none : Option Nat), n ≤ ({} : Position).offset := fun _ hn => (nomatch hn)
  rw [scan, htext, scanFrom_newline _ hnone h, Position.after_newline, String.length_toList]
  exact congrArg (prepend _) hshift

end Scan

end FlatScope
