/-
  Scanning a text again with other gaps. A scan cuts its text into lexemes with gaps in front of them (`Scan.Cut`). A layout of
  some tokens (`Scan.IsLaid`) has their texts in order, with gaps between them exactly where the tokens stand apart.
  The gaps may be any others: between two tokens something that closes a lexeme takes the place of something that did, and
  tokens that touch are found again because what follows them is the same up to there (`Scan.Cut.exists_common`). So every
  layout of scanned tokens is scanned as the same tokens (`Scan.Cut.relaid`, `Scan.same_of_isLayout`). Tokens that are the same
  but for their places are derived alike, and what is read of them is the same but for places
  (`Grammar.Derivation.exists_same`).
-/
import FlatScope.Proofs.Concatenation.Scan
import FlatScope.Proofs.Grammar.Proper
import FlatScope.Proofs.Layout.Lexeme
import FlatScope.Proofs.Token.Tiling
import Mathlib.Data.List.Basic
import Mathlib.Data.List.Forall2

namespace FlatScope

/-- Two tokens are the same but for their places. -/
structure Token.IsSame (t t' : Token) : Prop where
  kind : t'.kind = t.kind
  lexeme : t'.lexeme = t.lexeme

theorem Token.IsSame.fault? {t t' : Token} (h : t.IsSame t') : t'.fault? = t.fault? := by
  have hreal : t'.realValue = t.realValue := by rw [realValue, realValue, readReal, readReal, shown, shown, h.kind, h.lexeme]
  have hbyte : t'.byteValue = t.byteValue := by rw [byteValue, byteValue, readByte, readByte, h.lexeme]
  rw [Token.fault?, Token.fault?, h.kind, hreal, hbyte, h.lexeme]

theorem Token.IsSame.map_eq {ts ts' : List Token} (h : List.Forall₂ Token.IsSame ts ts') :
    ts'.map (fun t => (t.kind, t.lexeme)) = ts.map (fun t => (t.kind, t.lexeme)) := by
  induction h with
  | nil => rfl
  | cons hsame _ ih => rw [List.map_cons, List.map_cons, hsame.kind, hsame.lexeme, ih]

theorem Token.IsSame.faultless {ts ts' : List Token} (h : List.Forall₂ Token.IsSame ts ts') (hts : ∀ t ∈ ts, t.fault? = none) :
    ∀ t ∈ ts', t.fault? = none := by
  induction h with
  | nil => exact nofun
  | cons hsame _ ih =>
    obtain ⟨hfault, hfaults⟩ := List.forall_mem_cons.mp hts
    exact List.forall_mem_cons.mpr ⟨hsame.fault?.trans hfault, ih hfaults⟩

/-! ## Gaps -/

namespace IsTrivia

variable {rest gap : List Char}

/-- Of what stands behind a gap only the first character matters, if there is one. -/
theorem of_mem_head? {rest' : List Char} (h : IsTrivia rest gap) (hhead : ∀ c ∈ rest'.head?, c ∈ rest.head?) : IsTrivia rest' gap := by
  induction h with
  | nil => exact .nil
  | space hc _ ih => exact .space hc ih
  | @comment body cs hbody hend _ ih =>
    refine .comment hbody (fun c hc => hend c ?_) ih
    cases cs with
    | nil => exact hhead c hc
    | cons d cs => exact hc

theorem of_head? {rest' : List Char} (h : IsTrivia rest gap) (hhead : rest'.head? = rest.head?) : IsTrivia rest' gap :=
  h.of_mem_head? fun _ hc => hhead ▸ hc

/-- A gap closes the lexeme in front of it. -/
theorem closes (h : IsTrivia rest gap) (hne : gap ≠ []) (more : List Char) : Lexeme.Closes (gap ++ more) := by
  cases h with
  | nil => exact absurd rfl hne
  | space hc _ => exact Lexeme.closes_cons (Lexeme.isCloser_iff.mpr (.inl hc)) _
  | comment _ _ _ => exact Lexeme.closes_cons rfl _

theorem first_comment {body cs : List Char} (hbody : ∀ c ∈ body, c ≠ '\n') (hend : ∀ c ∈ cs.head?, c = '\n') :
    Lexeme.first ('/' :: '/' :: (body ++ cs)) = some (.comment, body.length + 2) := by
  have hrun : Lexeme.run (· ≠ '\n') (body ++ cs) = body.length :=
    Lexeme.run_append (fun c hc => decide_eq_true (hbody c hc)) fun c hc => by rw [hend c hc]; rfl
  rw [Lexeme.first_slash, Lexeme.comment?, hrun, Nat.add_comm]
  rfl

/-- A comment up to the end of its line is skipped. -/
theorem scanFrom_comment {file : Option String} {pos : Position} {previous : Option Nat} {body cs : List Char}
    (hbody : ∀ c ∈ body, c ≠ '\n') (hend : ∀ c ∈ cs.head?, c = '\n') :
    Scan.scanFrom file pos previous ('/' :: '/' :: body ++ cs) = Scan.scanFrom file (pos.after ('/' :: '/' :: body)) previous cs := by
  have hfirst : Lexeme.first ('/' :: '/' :: body ++ cs) = some (.comment, ('/' :: '/' :: body).length) := first_comment hbody hend
  rw [Scan.scanFrom_gap hfirst rfl, List.take_left, List.drop_left]

/-- A gap is skipped. -/
theorem scanFrom {file : Option String} {pos : Position} {previous : Option Nat} (h : IsTrivia rest gap) :
    Scan.scanFrom file pos previous (gap ++ rest) = Scan.scanFrom file (pos.after gap) previous rest := by
  induction h generalizing pos with
  | nil => rfl
  | space hc _ ih => rw [List.cons_append, Scan.scanFrom_space hc, ih, Position.after_cons]
  | @comment body cs hbody hend _ ih =>
    have hcut : '/' :: '/' :: (body ++ cs) = '/' :: '/' :: body ++ cs := rfl
    rw [hcut, List.append_assoc, scanFrom_comment hbody hend, ih, Position.after_append]

end IsTrivia

namespace Scan

/-! ## Cutting a text -/

/-- A text is cut, in front of some more text, into the lexemes of tokens with gaps in front of them. -/
inductive Cut (file : Option String) (rest : List Char) : Position → Option Nat → List Char → List Token → Prop
  | nil {pos : Position} {previous : Option Nat} : Cut file rest pos previous [] []
  | token {pos : Position} {previous : Option Nat} {gap lexeme cs : List Char} {kind : Kind} {ts : List Token}
    (hgap : IsTrivia lexeme gap) (hfirst : Lexeme.first (lexeme ++ (cs ++ rest)) = some (kind, lexeme.length))
    (hg : kind.isGap = false) (h : Cut file rest ((pos.after gap).after lexeme) (some ((pos.after gap).after lexeme).offset) cs ts) :
    Cut file rest pos previous (gap ++ (lexeme ++ cs)) (tokenAt file (pos.after gap) (kindAfter previous (pos.after gap) kind) lexeme :: ts)

/-- Where the last token in front of a place ends. -/
def behind (previous : Option Nat) (ts : List Token) : Option Nat := ts.foldl (fun _ t => some t.stop.offset) previous

namespace Cut

variable {file : Option String} {rest cs : List Char} {pos : Position} {previous : Option Nat} {ts us : List Token}

/-- More of a gap in front of the first token. -/
theorem widen {gap : List Char} (h : Cut file rest (pos.after gap) previous cs ts) (hne : ts ≠ []) (hgap : IsTrivia (cs ++ rest) gap) :
    Cut file rest pos previous (gap ++ cs) ts := by
  cases h with
  | nil => exact absurd rfl hne
  | @token _ _ inner lexeme cs kind ts hinner hfirst hg h =>
    have hlexeme : lexeme ≠ [] := List.length_pos_iff.mp (Lexeme.first_pos hfirst)
    have hhead : (inner ++ lexeme).head? = (inner ++ (lexeme ++ cs) ++ rest).head? := by
      rw [← List.append_assoc, List.append_assoc, List.head?_append_of_ne_nil _ (List.append_ne_nil_of_right_ne_nil _ hlexeme)]
    rw [← Position.after_append pos gap inner] at h ⊢
    rw [← List.append_assoc]
    exact .token ((hgap.of_head? hhead).append hinner) hfirst hg h

/-- The beginning of a text is cut into what is scanned, with a gap behind it. There the text ends or the scan fails. -/
theorem of_scan (file : Option String) (pos : Position) (previous : Option Nat) (cs : List Char) : ∃ body gap rest,
    cs = body ++ (gap ++ rest) ∧ IsTrivia rest gap ∧ Cut file (gap ++ rest) pos previous body (scanFrom file pos previous cs).tokens
    ∧ ((scanFrom file pos previous cs).error = none → rest = [])
    ∧ ∀ e, (scanFrom file pos previous cs).error = some e → e.span.start = (pos.after (body ++ gap)).point := by
  induction cs using Lexeme.induct generalizing pos previous with
  | nil =>
    rw [scanFrom_nil]
    exact ⟨[], [], [], rfl, .nil, .nil, fun _ => rfl, fun e he => absurd he.symm (Option.some_ne_none e)⟩
  | fault c cs hfirst =>
    rw [scanFrom_fault hfirst]
    refine ⟨[], [], c :: cs, rfl, .nil, .nil, fun he => absurd he (Option.some_ne_none _), fun e he => ?_⟩
    rw [← Option.some.inj he]
    rfl
  | lexeme cs kind n hfirst ih =>
    obtain ⟨lexeme, rest, rfl, rfl⟩ := Lexeme.append_of_first hfirst
    rw [List.drop_left] at ih
    by_cases hg : kind.isGap = true
    · have hgap := Lexeme.isTrivia_of_first hfirst hg
      rw [scanFrom_gap hfirst hg]
      rw [List.take_left, List.drop_left] at hgap ⊢
      obtain ⟨body, gap, left, rfl, htrivia, hcut, hend, hfault⟩ := ih (pos.after lexeme) previous
      by_cases hne : (scanFrom file (pos.after lexeme) previous (body ++ (gap ++ left))).tokens = []
      · -- the gap goes on in front of what is left
        rw [hne] at hcut ⊢
        cases hcut
        rw [List.nil_append] at hgap
        refine ⟨[], lexeme ++ gap, left, by simp, hgap.append htrivia, .nil, hend, fun e he => ?_⟩
        rw [hfault e he, List.nil_append, List.nil_append, Position.after_append pos lexeme]
      · refine ⟨lexeme ++ body, gap, left, by simp, htrivia, hcut.widen hne hgap, hend, fun e he => ?_⟩
        rw [hfault e he, List.append_assoc, Position.after_append pos lexeme]
    · rw [Bool.not_eq_true] at hg
      rw [scanFrom_lexeme hfirst hg, List.take_left, List.drop_left]
      split
      · refine ⟨[], [], lexeme ++ rest, rfl, .nil, .nil, fun he => absurd he (Option.some_ne_none _), fun e he => ?_⟩
        rw [← Option.some.inj he]
        rfl
      · obtain ⟨body, gap, left, rfl, htrivia, hcut, hend, hfault⟩ := ih (pos.after lexeme) (some (pos.after lexeme).offset)
        refine ⟨lexeme ++ body, gap, left, by simp, htrivia, .token .nil hfirst hg hcut, hend, fun e he => ?_⟩
        rw [hfault e he, List.append_assoc, Position.after_append pos lexeme]

/-- What is scanned without a fault is cut, but for a gap at the end. -/
theorem of_scanFrom (h : (scanFrom file pos previous cs).error = none) :
    ∃ body gap, cs = body ++ gap ∧ IsTrivia [] gap ∧ Cut file gap pos previous body (scanFrom file pos previous cs).tokens := by
  obtain ⟨body, gap, rest, htext, hgap, hcut, hend, -⟩ := of_scan file pos previous cs
  obtain rfl := hend h
  rw [List.append_nil] at htext hcut
  exact ⟨body, gap, htext, hgap, hcut⟩

/-- What is cut is scanned, if no token has a fault. -/
theorem scanFrom_append (h : Cut file rest pos previous cs ts) (hf : ∀ t ∈ ts, t.fault? = none) :
    scanFrom file pos previous (cs ++ rest) = (scanFrom file (pos.after cs) (behind previous ts) rest).prepend ts := by
  induction h with
  | nil => rfl
  | @token pos previous gap lexeme cs kind ts hgap hfirst hg h ih =>
    obtain ⟨hfault, hfs⟩ := List.forall_mem_cons.mp hf
    have hlexeme : lexeme ≠ [] := List.length_pos_iff.mp (Lexeme.first_pos hfirst)
    have hgap' : IsTrivia (lexeme ++ (cs ++ rest)) gap := hgap.of_head? (List.head?_append_of_ne_nil _ hlexeme)
    rw [List.append_assoc, List.append_assoc, hgap'.scanFrom, scanFrom_token hfirst hg hfault, ih hfs, prepend_prepend,
      Position.after_append, Position.after_append]
    rfl

/-- A cut falls into two, one behind the other. -/
theorem split (h : Cut file rest pos previous cs (ts ++ us)) : ∃ cs₁ cs₂, cs = cs₁ ++ cs₂
    ∧ Cut file (cs₂ ++ rest) pos previous cs₁ ts ∧ Cut file rest (pos.after cs₁) (behind previous ts) cs₂ us := by
  induction ts generalizing pos previous cs with
  | nil => exact ⟨[], cs, rfl, .nil, h⟩
  | cons t ts ih =>
    cases h with
    | @token _ _ gap lexeme cs kind _ hgap hfirst hg h =>
      obtain ⟨cs₁, cs₂, rfl, h₁, h₂⟩ := ih h
      refine ⟨gap ++ (lexeme ++ cs₁), cs₂, ?_, .token hgap (by rwa [← List.append_assoc cs₁]) hg h₁, ?_⟩
      · simp only [List.append_assoc]
      · rw [Position.after_append, Position.after_append]
        exact h₂

end Cut

/-! ## Layouts -/

/-- The texts of tokens are laid out in a text, with gaps between them just where the tokens stand apart. Whether the
first one stands apart only matters if a token is in front of it. -/
inductive IsLaid : Option Nat → List Token → List Char → Prop
  | nil {previous : Option Nat} : IsLaid previous [] []
  | token {previous : Option Nat} {t : Token} {ts : List Token} {gap text : List Char} (hgap : IsTrivia t.lexeme.toList gap)
    (hapart : ∀ stop ∈ previous, gap = [] ↔ stop = t.start.offset) (h : IsLaid (some t.stop.offset) ts text) :
    IsLaid previous (t :: ts) (gap ++ (t.lexeme.toList ++ text))

/-- A text is a layout of tokens. Behind the last one, and in front of the first one, there may be any gap. -/
def IsLayout (tokens : List Token) (text : List Char) : Prop :=
  ∃ body gap, text = body ++ gap ∧ IsLaid none tokens body ∧ IsTrivia [] gap

namespace Cut

variable {file file' : Option String} {rest cs body tail : List Char} {pos pos' : Position} {previous previous' : Option Nat}
  {t : Token} {ts : List Token}

/-- What is cut is laid out as it stands. -/
theorem isLaid (h : Cut file rest pos previous cs ts) (hprevious : ∀ stop ∈ previous, stop = pos.offset) : IsLaid previous ts cs := by
  induction h with
  | nil => exact .nil
  | @token pos previous gap lexeme cs kind ts hgap hfirst hg h ih =>
    have hself : ∀ stop ∈ some ((pos.after gap).after lexeme).offset, stop = ((pos.after gap).after lexeme).offset :=
      fun stop hs => (Option.some.inj hs).symm
    have hlexeme : (tokenAt file (pos.after gap) (kindAfter previous (pos.after gap) kind) lexeme).lexeme.toList = lexeme :=
      String.toList_ofList
    have hapart (stop : Nat) (hs : stop ∈ previous) : gap = [] ↔ stop = (pos.after gap).offset := by
      rw [hprevious stop hs, Position.after_offset, Nat.left_eq_add, List.length_eq_zero_iff]
    have hlaid := IsLaid.token (by rwa [hlexeme]) hapart (ih hself)
    rwa [hlexeme] at hlaid

/-- What is cut behind a token and a layout of it begin alike. Where they part there is something in the layout that closes a lexeme,
and the first lexeme of the cut, if anything is common, does not go beyond. -/
theorem exists_common (h : Cut file rest pos previous cs ts) (hlaid : IsLaid previous ts body) (hprevious : previous = some pos.offset)
    (hclose : Lexeme.Closes tail) : ∃ more left left', cs ++ rest = more ++ left ∧ body ++ tail = more ++ left' ∧ Lexeme.Closes left'
      ∧ (more = [] ∨ ∃ kind n, Lexeme.first (more ++ left) = some (kind, n) ∧ n ≤ more.length) := by
  induction h generalizing body with
  | nil =>
    cases hlaid
    exact ⟨[], rest, tail, rfl, rfl, hclose, .inl rfl⟩
  | @token pos previous gap lexeme cs kind ts hgap hfirst hg h ih =>
    cases hlaid with
    | @token _ _ _ gap' text hgap' hapart hlaid =>
      have hlexeme : (tokenAt file (pos.after gap) (kindAfter previous (pos.after gap) kind) lexeme).lexeme.toList = lexeme :=
        String.toList_ofList
      by_cases hnil : gap' = []
      · have hplace : pos.offset = (pos.after gap).offset := (hapart _ hprevious).mp hnil
        rw [Position.after_offset, Nat.left_eq_add, List.length_eq_zero_iff] at hplace
        subst hnil hplace
        obtain ⟨more, left, left', hcs, hbody, hleft, -⟩ := ih hlaid rfl
        refine ⟨lexeme ++ more, left, left', ?_, ?_, hleft, .inr ⟨kind, lexeme.length, ?_, ?_⟩⟩
        · rw [List.nil_append, List.append_assoc, hcs, List.append_assoc]
        · rw [hlexeme, List.nil_append, List.append_assoc, hbody, List.append_assoc]
        · rwa [List.append_assoc, ← hcs]
        · rw [List.length_append]
          exact Nat.le_add_right _ _
      · have hleft : Lexeme.Closes (gap' ++ (lexeme ++ text) ++ tail) := by
          rw [List.append_assoc]
          exact hgap'.closes hnil _
        rw [hlexeme]
        exact ⟨[], _, _, rfl, rfl, hleft, .inl rfl⟩

/-- The lexeme in front of a cut is found in front of any layout of its tokens. -/
theorem first_relaid {lexeme : List Char} {kind : Kind} (h : Cut file rest pos (some pos.offset) cs ts)
    (hfirst : Lexeme.first (lexeme ++ (cs ++ rest)) = some (kind, lexeme.length)) (hg : kind.isGap = false)
    (hlaid : IsLaid (some pos.offset) ts body) (hclose : Lexeme.Closes tail) :
    Lexeme.first (lexeme ++ (body ++ tail)) = some (kind, lexeme.length) := by
  obtain ⟨more, left, left', hcs, hbody, hleft, hmore⟩ := h.exists_common hlaid rfl hclose
  rw [hcs] at hfirst
  rw [hbody]
  exact Lexeme.first_replaced hfirst hg hmore hleft

/-- A layout of the tokens of a cut is cut into the same tokens, if in front of both there is a token or in front of none. -/
theorem relaid (h : Cut file rest pos previous cs ts) (hlaid : IsLaid previous ts body) (hclose : Lexeme.Closes tail)
    (hprevious : previous = none ∧ previous' = none ∨ previous = some pos.offset ∧ previous' = some pos'.offset) :
    ∃ ts', Cut file' tail pos' previous' body ts' ∧ List.Forall₂ Token.IsSame ts ts' := by
  induction h generalizing body pos' previous' with
  | nil =>
    cases hlaid
    exact ⟨[], .nil, .nil⟩
  | @token pos previous gap lexeme cs kind ts hgap hfirst hg h ih =>
    cases hlaid with
    | @token _ _ _ gap' text hgap' hapart hlaid =>
      have hlexeme : (tokenAt file (pos.after gap) (kindAfter previous (pos.after gap) kind) lexeme).lexeme.toList = lexeme :=
        String.toList_ofList
      rw [hlexeme] at hgap' ⊢
      obtain ⟨ts', hcut, hsame⟩ := @ih text ((pos'.after gap').after lexeme) _ hlaid (.inr ⟨rfl, rfl⟩)
      refine ⟨_, .token hgap' (h.first_relaid hfirst hg hlaid hclose) hg hcut, .cons ⟨?_, rfl⟩ hsame⟩
      show kindAfter previous' (pos'.after gap') kind = kindAfter previous (pos.after gap) kind
      obtain ⟨rfl, rfl⟩ | ⟨rfl, rfl⟩ := hprevious
      · rfl
      · have hiff : some pos'.offset = some (pos'.after gap').offset ↔ some pos.offset = some (pos.after gap).offset := by
          have hplace : gap' = [] ↔ pos.offset = (pos.after gap).offset := hapart _ rfl
          rw [Option.some.injEq, Option.some.injEq, ← hplace, Position.after_offset, Nat.left_eq_add, List.length_eq_zero_iff]
        simp only [kindAfter, hiff]

end Cut

/-- A layout of the tokens of a source is scanned as the same tokens. -/
theorem same_of_isLayout {source text : String} {file : Option String} (h : (scan source file).error = none)
    (hlayout : IsLayout (scan source file).tokens text.toList) (file' : Option String) :
    (scan text file').error = none ∧ List.Forall₂ Token.IsSame (scan source file).tokens (scan text file').tokens := by
  obtain ⟨_, _, _, _, hcut⟩ := Cut.of_scanFrom h
  obtain ⟨body, gap, htext, hlaid, hgap⟩ := hlayout
  have hclose : Lexeme.Closes gap := by
    by_cases hnil : gap = []
    · rw [hnil]
      exact Lexeme.closes_nil
    · rw [← List.append_nil gap]
      exact hgap.closes hnil []
  obtain ⟨ts', hcut', hsame⟩ : ∃ ts', Cut file' gap {} none body ts' ∧ List.Forall₂ Token.IsSame (scan source file).tokens ts' :=
    hcut.relaid hlaid hclose (.inl ⟨rfl, rfl⟩)
  have hfaults := Token.IsSame.faultless hsame fun t ht => (isScanned_of_mem_scanFrom file {} none source.toList t ht).inRange
  have hend : scanFrom file' (({} : Position).after body) (behind none ts') gap = ⟨[], none⟩ := by
    rw [← List.append_nil gap, hgap.scanFrom, scanFrom_nil]
  rw [scan, htext, hcut'.scanFrom_append hfaults, hend]
  refine ⟨rfl, ?_⟩
  show List.Forall₂ Token.IsSame _ (ts' ++ [])
  rwa [List.append_nil]

end Scan

variable {t t' : Token}

theorem Token.IsSame.isSpelled (h : t.IsSame t') (ht : t.IsSpelled) : t'.IsSpelled := by
  rw [IsSpelled, h.kind, h.lexeme]
  exact ht

theorem Token.IsSame.allSpelled {ts ts' : List Token} (h : List.Forall₂ Token.IsSame ts ts') (hts : ∀ t ∈ ts, t.IsSpelled) :
    ∀ t ∈ ts', t.IsSpelled := by
  induction h with
  | nil => exact nofun
  | cons hsame _ ih =>
    obtain ⟨ht, hts⟩ := List.forall_mem_cons.mp hts
    exact List.forall_mem_cons.mpr ⟨hsame.isSpelled ht, ih hts⟩

namespace Grammar

/-- A token as a derivation of its kind, which is read as the token. -/
theorem exists_proper_leaf {kind : Kind} (t : Token) (h : t.kind = kind) :
    ∃ d : Derivation (.t kind), d.tokens = [t] ∧ d.value = t ∧ d.IsProper := by
  subst h
  exact ⟨.leaf t, rfl, rfl, trivial⟩

mutual

/-- A derivation with tokens in place of its own that are the same but for their places. -/
theorem Derivation.exists_same : {s : Sym} → (d : Derivation s) → {ts : List Token} → List.Forall₂ Token.IsSame d.tokens ts →
    (∀ t ∈ d.tokens, t.IsSpelled) →
    ∃ d' : Derivation s, d'.tokens = ts ∧ s.Alike d'.value d.value ∧ (d.IsProper → d'.IsProper)
  | _, .leaf token, ts, h, _ => by
    obtain ⟨t, _, hsame, hnil, rfl⟩ := List.forall₂_cons_left_iff.mp h
    obtain rfl := List.forall₂_nil_left_iff.mp hnil
    obtain ⟨d', htokens, hvalue, hproper⟩ := exists_proper_leaf t hsame.kind
    refine ⟨d', htokens, ?_, fun _ => hproper⟩
    show d'.value.unplaced = token.unplaced
    rw [hvalue, Token.unplaced, Token.unplaced, hsame.kind, hsame.lexeme]
  | _, .node p f, ts, h, hspelled => by
    obtain ⟨f', htokens, halike, hproper⟩ := f.exists_same h hspelled
    refine ⟨.node p f', htokens, p.alike_read halike, fun hd => ⟨?_, hproper hd.2⟩⟩
    exact p.allows_alike hspelled (htokens ▸ Token.IsSame.allSpelled h hspelled) halike hd.1

theorem Forest.exists_same : {ss : List Sym} → (f : Forest ss) → {ts : List Token} → List.Forall₂ Token.IsSame f.tokens ts →
    (∀ t ∈ f.tokens, t.IsSpelled) →
    ∃ f' : Forest ss, f'.tokens = ts ∧ f'.values.Alike f.values ∧ (f.IsProper → f'.IsProper)
  | _, .nil, ts, h, _ => by
    obtain rfl := List.forall₂_nil_left_iff.mp h
    exact ⟨.nil, rfl, trivial, id⟩
  | _, .cons d f, ts, h, hspelled => by
    have hspelled : ∀ t ∈ d.tokens ++ f.tokens, t.IsSpelled := hspelled
    obtain ⟨hd, hf⟩ := List.forall_mem_append.mp hspelled
    have h : List.Forall₂ Token.IsSame (d.tokens ++ f.tokens) ts := h
    have hcut := List.take_append_drop d.tokens.length ts
    obtain ⟨d', htokens, halike, hproper⟩ := d.exists_same (List.forall₂_take_append ts d.tokens f.tokens h.flip).flip hd
    obtain ⟨f', htokens', halike', hproper'⟩ := f.exists_same (List.forall₂_drop_append ts d.tokens f.tokens h.flip).flip hf
    refine ⟨.cons d' f', ?_, ⟨halike, halike'⟩, fun h => ⟨hproper h.1, hproper' h.2⟩⟩
    rw [Forest.tokens, htokens, htokens', hcut]

end

end Grammar

end FlatScope
