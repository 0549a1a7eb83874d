/-
  The scanner, lexeme by lexeme. `scanFrom_token` and `scanFrom_space` are its two steps that matter for a text
  without comments; a gap can be skipped a character at a time. What a whole scan gives are tokens that spell
  their kinds, whose values are in range, and among which no name is a keyword (`isScanned_of_mem_scan`).
-/
import FlatScope.Proofs.Token.Value
import FlatScope.Token.Scan

namespace FlatScope

/-- What is known of a token that was scanned. -/
structure Token.IsScanned (t : Token) : Prop where
  spelled : t.IsSpelled
  inRange : t.fault? = none
  keyword : t.kind = .name → Kind.ofKeyword? t.lexeme = none

namespace Scan

variable {file : Option String} {pos : Position} {previous : Option Nat} {cs rest : List Char} {kind : Kind} {n : Nat}

/-- A scan with more tokens in front. -/
def prepend (ts : List Token) (s : Scan) : Scan := { s with tokens := ts ++ s.tokens }

theorem prepend_nil (s : Scan) : s.prepend [] = s := rfl

theorem prepend_prepend (ts us : List Token) (s : Scan) : (s.prepend us).prepend ts = s.prepend (ts ++ us) := by
  rw [prepend, prepend, prepend, List.append_assoc]

/-! ## Steps -/

theorem scanFrom_nil : scanFrom file pos previous [] = ⟨[], none⟩ := by rw [scanFrom]

theorem scanFrom_fault {c : Char} (h : Lexeme.first (c :: rest) = none) : scanFrom file pos previous (c :: rest)
    = ⟨[], some ⟨LexFault.ofCharacter c rest, { file, start := pos.point }⟩⟩ := by
  rw [scanFrom]
  split
  · rfl
  · rename_i h'
    rw [h] at h'
    cases h'

theorem scanFrom_gap (h : Lexeme.first cs = some (kind, n)) (hg : kind.isGap = true) :
    scanFrom file pos previous cs = scanFrom file (pos.after (cs.take n)) previous (cs.drop n) := by
  cases cs with
  | nil => rw [Lexeme.first] at h; cases h
  | cons c cs =>
    rw [scanFrom]
    split
    · rename_i h'
      rw [h] at h'
      cases h'
    · rename_i h'
      rw [h] at h'
      cases h'
      rw [if_pos hg]

/-- The kind of a token that starts where the last one ended, or does not. -/
def kindAfter (previous : Option Nat) (pos : Position) (kind : Kind) : Kind :=
  if previous = some pos.offset then kind.touching else kind

/-- The token for a lexeme. -/
def tokenAt (file : Option String) (pos : Position) (kind : Kind) (lexeme : List Char) : Token :=
  { kind, lexeme := String.ofList lexeme, file, start := pos, stop := pos.after lexeme }

theorem scanFrom_lexeme (h : Lexeme.first cs = some (kind, n)) (hg : kind.isGap = false) :
    scanFrom file pos previous cs =
      match (tokenAt file pos (kindAfter previous pos kind) (cs.take n)).fault? with
      | some fault => ⟨[], some ⟨fault, (tokenAt file pos (kindAfter previous pos kind) (cs.take n)).span⟩⟩
      | none => cons (tokenAt file pos (kindAfter previous pos kind) (cs.take n))
          (scanFrom file (pos.after (cs.take n)) (some (pos.after (cs.take n)).offset) (cs.drop n)) := by
  cases cs with
  | nil => rw [Lexeme.first] at h; cases h
  | cons c cs =>
    rw [scanFrom]
    split
    · rename_i h'
      rw [h] at h'
      cases h'
    · rename_i h'
      rw [h] at h'
      cases h'
      rw [if_neg (by rw [hg]; exact Bool.false_ne_true)]
      rfl

/-- A lexeme that is found at the start of a text is the first token. -/
theorem scanFrom_token (h : Lexeme.first (cs ++ rest) = some (kind, cs.length)) (hg : kind.isGap = false)
    (hf : (tokenAt file pos (kindAfter previous pos kind) cs).fault? = none) :
    scanFrom file pos previous (cs ++ rest) =
      (scanFrom file (pos.after cs) (some (pos.after cs).offset) rest).prepend
        [tokenAt file pos (kindAfter previous pos kind) cs] := by
  rw [scanFrom_lexeme h hg, List.take_left, List.drop_left, hf]
  rfl

/-- A gap is skipped a character at a time. -/
theorem scanFrom_space {c : Char} (hs : Lexeme.isSpace c = true) :
    scanFrom file pos previous (c :: rest) = scanFrom file (pos.step c) previous rest := by
  rw [scanFrom_gap (Lexeme.first_space hs) rfl, List.take_succ_cons, List.drop_succ_cons, Position.after_cons,
    Lexeme.take_run]
  cases rest with
  | nil => rfl
  | cons d rest =>
    by_cases hd : Lexeme.isSpace d = true
    · have hrun : Lexeme.run Lexeme.isSpace (d :: rest) = Lexeme.run Lexeme.isSpace rest + 1 := by
        rw [Lexeme.run, List.takeWhile_cons, if_pos hd]
        rfl
      rw [scanFrom_gap (Lexeme.first_space hd) rfl, ← hrun, Lexeme.take_run]
    · have ht : (d :: rest).takeWhile Lexeme.isSpace = [] := by rw [List.takeWhile_cons, if_neg hd]
      rw [Lexeme.run, ht]
      rfl

/-! ## What a scan gives -/

theorem isSpelled_tokenAt (h : Lexeme.first cs = some (kind, n)) (hg : kind.isGap = false) :
    (tokenAt file pos (kindAfter previous pos kind) (cs.take n)).IsSpelled := by
  have hs := Lexeme.spells_of_first h hg
  unfold Token.IsSpelled tokenAt kindAfter
  rw [String.toList_ofList]
  split
  · exact hs.touching
  · exact hs

theorem isScanned_tokenAt (h : Lexeme.first cs = some (kind, n)) (hg : kind.isGap = false)
    (hf : (tokenAt file pos (kindAfter previous pos kind) (cs.take n)).fault? = none) :
    (tokenAt file pos (kindAfter previous pos kind) (cs.take n)).IsScanned := by
  have hk := Lexeme.not_keyword_of_first h
  refine ⟨isSpelled_tokenAt h hg, hf, ?_⟩
  intro hn
  refine hk ?_
  unfold tokenAt kindAfter at hn
  revert hn
  dsimp only
  split
  · cases kind <;> simp [Kind.touching]
  · exact id

theorem isScanned_of_mem_scanFrom (file : Option String) (pos : Position) (previous : Option Nat) (cs : List Char) :
    ∀ t ∈ (scanFrom file pos previous cs).tokens, t.IsScanned := by
  induction h : cs.length using Nat.strongRecOn generalizing pos previous cs with
  | ind m ih =>
    subst h
    cases hfirst : Lexeme.first cs with
    | none =>
      intro t ht
      cases cs with
      | nil => rw [scanFrom_nil] at ht; cases ht
      | cons c cs =>
        rw [scanFrom_fault hfirst] at ht
        cases ht
    | some found =>
      obtain ⟨kind, n⟩ := found
      have hn := Lexeme.first_pos hfirst
      have hlt : cs ≠ [] → (cs.drop n).length < cs.length := by
        intro hne
        have := List.length_pos_iff.mpr hne
        rw [List.length_drop]
        omega
      have hne : cs ≠ [] := by
        rintro rfl
        rw [Lexeme.first] at hfirst
        cases hfirst
      by_cases hg : kind.isGap = true
      · rw [scanFrom_gap hfirst hg]
        exact ih _ (hlt hne) _ _ _ rfl
      · rw [Bool.not_eq_true] at hg
        rw [scanFrom_lexeme hfirst hg]
        split
        · exact nofun
        · rename_i hf
          intro t ht
          obtain rfl | ht := List.mem_cons.mp ht
          · exact isScanned_tokenAt hfirst hg hf
          · exact ih _ (hlt hne) _ _ _ rfl t ht

/-- The tokens of a source are all as scanned tokens are. -/
theorem isScanned_of_mem_scan {source : String} {tokens : List Token} (h : (scan source file).toExcept = .ok tokens) :
    ∀ t ∈ tokens, t.IsScanned := by
  unfold toExcept at h
  split at h
  · cases h
  · obtain rfl := Except.ok.inj h
    exact isScanned_of_mem_scanFrom file {} none source.toList

end Scan

end FlatScope
