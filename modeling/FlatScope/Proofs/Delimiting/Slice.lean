/-
  Slices of a source. What stands in a source from the start of one token to the end of another is cut into the same tokens
  wherever something that closes a lexeme stands behind it (`Scan.exists_slice`); only the first of them may touch the token
  before it or not. Nothing but a bracket that opens a composite is another token then, and it opens one all the same
  (`Grammar.Derivation.reopens`). So the slice that a node is read off prints the node (`Grammar.Reads.prints`).
-/
import FlatScope.Proofs.Delimiting.Span
import FlatScope.Proofs.Layout.Scan
import FlatScope.Proofs.Printing.Basic

namespace FlatScope

/-! ## The first token of a slice -/

/-- Two tokens are the same but for their places and for what touches them. -/
structure Token.IsNearly (t t' : Token) : Prop where
  kind : t'.kind.touching = t.kind.touching
  lexeme : t'.lexeme = t.lexeme

theorem Kind.eq_of_touching {k k' : Kind} (h : k'.touching = k.touching) : k' = k ∨ k.touching.touches = true := by
  cases k <;> cases k' <;> simp_all [Kind.touching, Kind.touches]

open Grammar in
/-- The value of a token does not depend on what it touches. -/
theorem Token.IsNearly.fault? {t t' : Token} (h : t.IsNearly t') : t'.fault? = t.fault? := by
  obtain hkind | htouches := Kind.eq_of_touching h.kind
  · exact Token.IsSame.fault? ⟨hkind, h.lexeme⟩
  · have hranged {k : Kind} (hk : k.touching.touches = true) : isRanged k = false := by
      revert hk
      cases k <;> decide
    rw [fault?_of_not_isRanged (hranged (h.kind ▸ htouches)), fault?_of_not_isRanged (hranged htouches)]

namespace Scan

variable {file : Option String} {rest cs : List Char} {pos : Position} {previous : Option Nat} {t last : Token} {ts : List Token}

theorem touching_kindAfter (kind : Kind) : (kindAfter previous pos kind).touching = kind.touching := by
  unfold kindAfter
  split
  · cases kind <;> rfl
  · rfl

/-- The last token that is cut ends where the text ends. -/
theorem Cut.stop_eq (h : Cut file rest pos previous cs ts) (hlast : ts.getLast? = some last) : last.stop = pos.after cs := by
  induction h with
  | nil => cases hlast
  | @token pos previous gap lexeme cs kind ts hgap hfirst hg h ih =>
    rw [Position.after_append, Position.after_append]
    cases h with
    | nil =>
      obtain rfl := Option.some.inj hlast
      rfl
    | token _ _ _ _ =>
      rw [List.getLast?_cons_cons] at hlast
      exact ih hlast

theorem Cut.behind_eq (h : Cut file rest pos previous cs ts) (hne : ts ≠ []) : behind previous ts = some (pos.after cs).offset := by
  induction h with
  | nil => exact absurd rfl hne
  | @token pos previous gap lexeme cs kind ts hgap hfirst hg h ih =>
    rw [Position.after_append, Position.after_append]
    cases h with
    | nil => rfl
    | token _ _ _ _ => exact ih (List.cons_ne_nil _ _)

theorem Cut.isSpelled (h : Cut file rest pos previous cs ts) : ∀ t ∈ ts, t.IsSpelled := by
  induction h with
  | nil => exact nofun
  | @token pos previous gap lexeme cs kind ts hgap hfirst hg _ ih =>
    have hspelled : (tokenAt file (pos.after gap) (kindAfter previous (pos.after gap) kind) _).IsSpelled := isSpelled_tokenAt hfirst hg
    rw [List.take_left] at hspelled
    exact List.forall_mem_cons.mpr ⟨hspelled, ih⟩

/-- Behind the gap in front of it, what is cut is cut into the same tokens anywhere, but that the first may touch another token
there or not. -/
theorem Cut.exists_text (h : Cut file rest pos previous cs (t :: ts)) : ∃ gap text, cs = gap ++ text ∧ t.start = pos.after gap
    ∧ ∀ (file' : Option String) (tail : List Char) (pos' : Position) (previous' : Option Nat), Lexeme.Closes tail →
      ∃ t' ts', Cut file' tail pos' previous' text (t' :: ts') ∧ t.IsNearly t' ∧ List.Forall₂ Token.IsSame ts ts' := by
  cases h with
  | @token _ _ gap lexeme cs kind _ hgap hfirst hg h =>
    refine ⟨gap, lexeme ++ cs, rfl, rfl, fun file' tail pos' previous' hclose => ?_⟩
    have hlaid := h.isLaid fun stop hs => (Option.some.inj hs).symm
    obtain ⟨ts', hcut, hsame⟩ : ∃ ts', Cut file' tail (pos'.after lexeme) (some (pos'.after lexeme).offset) cs ts'
        ∧ List.Forall₂ Token.IsSame ts ts' := h.relaid hlaid hclose (.inr ⟨rfl, rfl⟩)
    refine ⟨_, ts', .token .nil (h.first_relaid hfirst hg hlaid hclose) hg hcut, ⟨?_, rfl⟩, hsame⟩
    exact (touching_kindAfter kind).trans (touching_kindAfter kind).symm

/-- What stands in a source from the start of a token to the end of one is cut into the same tokens anywhere, but that the first
may touch another token there or not. -/
theorem exists_slice {source : String} {file : Option String} {front back : List Token} (h : (scan source file).error = none)
    (htokens : (scan source file).tokens = front ++ (t :: ts ++ back)) (hlast : (t :: ts).getLast? = some last)
    (file' : Option String) {tail : List Char} (pos' : Position) (previous' : Option Nat) (hclose : Lexeme.Closes tail) :
    ∃ t' ts', Cut file' tail pos' previous' (slice source.toList t.start.offset last.stop.offset) (t' :: ts')
      ∧ t.IsNearly t' ∧ List.Forall₂ Token.IsSame ts ts' := by
  obtain ⟨body, gap, htext, -, hcut⟩ := Cut.of_scanFrom h
  rw [show (scanFrom file {} none source.toList).tokens = _ from htokens] at hcut
  obtain ⟨before, cs, rfl, -, hcut⟩ := hcut.split
  obtain ⟨cs, behind, rfl, hcut, -⟩ := hcut.split
  have hstop := hcut.stop_eq hlast
  obtain ⟨inner, text, rfl, hstart, htext'⟩ := hcut.exists_text
  have hslice : slice source.toList t.start.offset last.stop.offset = text := by
    have hstart : t.start.offset = (before ++ inner).length := by
      rw [hstart, ← Position.after_append, Position.offset_after]
    have hstop : last.stop.offset = (before ++ inner).length + text.length := by
      rw [hstop, ← Position.after_append, Position.offset_after, ← List.append_assoc, List.length_append]
    rw [hstart, hstop, htext]
    simp only [List.append_assoc]
    rw [← List.append_assoc before inner]
    exact slice_append _ _ _
  rw [hslice]
  exact htext' file' tail pos' previous' hclose

end Scan

namespace Grammar

/-! ## Composites that open otherwise -/

/-- An opening bracket opens a composite whether or not it touches something. -/
theorem exists_opener {t : Token} (h : t.kind.touching = .bracket) : ∃ o : Derivation (.n .opener), o.tokens = [t] := by
  have hkind : t.kind = .spacedBracket ∨ t.kind = .bracket := by
    revert h
    cases t.kind <;> decide
  obtain hkind | hkind := hkind
  · obtain ⟨d, htokens, -⟩ := exists_proper_leaf t hkind
    exact ⟨.node .openSpaced (.cons d .nil), (List.append_nil _).trans htokens⟩
  · obtain ⟨d, htokens, -⟩ := exists_proper_leaf t hkind
    exact ⟨.node .openAdjacent (.cons d .nil), (List.append_nil _).trans htokens⟩

/-- An opener is a single token. -/
def Derivation.IsSingle : {s : Sym} → Derivation s → Prop
  | .t _, d => ∃ t, d.tokens = [t]
  | .n .opener, d => ∃ t, d.tokens = [t]
  | _, _ => True

theorem Derivation.isSingle : {s : Sym} → (d : Derivation s) → d.IsSingle := by
  refine Derivation.induct (fun t => ⟨t, rfl⟩) fun p f h => ?_
  cases p
  case openSpaced | openAdjacent =>
    obtain _ | ⟨d, _ | _⟩ := f
    obtain ⟨⟨t, ht⟩, -⟩ := h
    exact ⟨t, (List.append_nil _).trans ht⟩
  all_goals trivial

/-- What begins with an opener may begin with another one. -/
theorem Forest.exists_reopened {ss : List Sym} {f : Forest (.n .opener :: ss)} {t t' : Token} {ts ts' : List Token}
    (htokens : f.tokens = t :: ts) (ht' : t'.kind.touching = .bracket) (hsame : List.Forall₂ Token.IsSame ts ts')
    (hspelled : ∀ u ∈ f.tokens, u.IsSpelled) :
    ∃ f' : Forest (.n .opener :: ss), f'.tokens = t' :: ts' ∧ f'.values.Alike f.values := by
  obtain _ | ⟨o, rest⟩ := f
  obtain ⟨u, hu⟩ := o.isSingle
  have hcut : o.tokens ++ rest.tokens = t :: ts := htokens
  rw [hu] at hcut
  obtain ⟨rfl, rfl⟩ := List.cons.inj hcut
  obtain ⟨o', ho'⟩ := exists_opener ht'
  obtain ⟨rest', htokens', halike, -⟩ := rest.exists_same hsame fun w hw => hspelled w (List.mem_append_right _ hw)
  refine ⟨.cons o' rest', ?_, rfl, halike⟩
  rw [Forest.tokens, ho', htokens']
  rfl

/-- Where a phrase may begin with an opening bracket that opens a composite, it may begin with one that touches
something and with one that does not, and it is read alike. -/
def Derivation.Reopens {s : Sym} (d : Derivation s) : Prop :=
  s ∈ [Sym.n .arg, .n .expr, .n .composite] → ∀ {t t' : Token} {ts ts' : List Token}, d.tokens = t :: ts →
    t.kind.touching = .bracket → t'.kind.touching = .bracket → List.Forall₂ Token.IsSame ts ts' → (∀ u ∈ d.tokens, u.IsSpelled) →
    ∃ d' : Derivation s, d'.tokens = t' :: ts' ∧ s.Alike d'.value d.value

theorem Derivation.reopens : {s : Sym} → (d : Derivation s) → d.Reopens := by
  refine Derivation.induct (fun _ hs => by simp at hs) fun p f h hs => ?_
  intro t t' ts ts' htokens ht ht' hsame hspelled
  cases p
  case argExpr =>
    obtain _ | ⟨e, _ | _⟩ := f
    rw [Derivation.tokens, Forest.tokens, Forest.tokens, List.append_nil] at htokens hspelled
    obtain ⟨e', htokens', halike⟩ := h.1 (by decide) htokens ht ht' hsame hspelled
    exact ⟨.node .argExpr (.cons e' .nil), (List.append_nil _).trans htokens', halike⟩
  case exprComposite =>
    obtain _ | ⟨e, _ | _⟩ := f
    rw [Derivation.tokens, Forest.tokens, Forest.tokens, List.append_nil] at htokens hspelled
    obtain ⟨e', htokens', halike⟩ := h.1 (by decide) htokens ht ht' hsame hspelled
    exact ⟨.node .exprComposite (.cons e' .nil), (List.append_nil _).trans htokens', halike⟩
  case argType | exprChain | exprLiteral =>
    obtain _ | ⟨e, _ | _⟩ := f
    obtain ⟨u, us, hhead, hstarts⟩ := e.head_mem_starts (by decide)
    rw [Derivation.tokens, Forest.tokens, Forest.tokens, List.append_nil, hhead] at htokens
    obtain rfl := (List.cons.inj htokens).1
    exfalso
    revert hstarts ht
    cases u.kind <;> decide
  case compositeMany =>
    obtain ⟨f', htokens', halike⟩ := Forest.exists_reopened htokens ht' hsame hspelled
    exact ⟨.node .compositeMany f', htokens', Production.alike_read .compositeMany halike⟩
  case compositeOne =>
    obtain ⟨f', htokens', halike⟩ := Forest.exists_reopened htokens ht' hsame hspelled
    exact ⟨.node .compositeOne f', htokens', Production.alike_read .compositeOne halike⟩
  case compositeNone =>
    obtain ⟨f', htokens', halike⟩ := Forest.exists_reopened htokens ht' hsame hspelled
    exact ⟨.node .compositeNone f', htokens', Production.alike_read .compositeNone halike⟩
  all_goals exact absurd hs (by decide)

/-! ## Slices of phrases -/

/-- Among arguments whatever is no type is an expression, and among statements whatever is a variable is declared as one. -/
def Derivation.IsPassedOn : {s : Sym} → Derivation s → Prop
  | .n .arg, d => isTypeArg d.value = false → ∃ e : Derivation (.n .expr), e.tokens = d.tokens ∧ e.value = d.value
  | .n .stmt, d => ∀ v, d.value = .var v → ∃ d' : Derivation (.n .varDecl), d'.tokens = d.tokens ∧ d'.value = v
  | .n .assignStmt, d => ∀ v, d.value ≠ .var v
  | .n .callStmt, d => ∀ v, d.value ≠ .var v
  | .n .ifStmt, d => ∀ v, d.value ≠ .var v
  | .n .whileStmt, d => ∀ v, d.value ≠ .var v
  | .n .breakStmt, d => ∀ v, d.value ≠ .var v
  | .n .continueStmt, d => ∀ v, d.value ≠ .var v
  | .n .labelStmt, d => ∀ v, d.value ≠ .var v
  | .n .gotoStmt, d => ∀ v, d.value ≠ .var v
  | _, _ => True

theorem Derivation.isPassedOn : {s : Sym} → (d : Derivation s) → d.IsPassedOn := by
  refine Derivation.induct (fun _ => trivial) fun p f h => ?_
  cases p
  case argExpr =>
    obtain _ | ⟨e, _ | _⟩ := f
    exact fun _ => ⟨e, (List.append_nil _).symm, rfl⟩
  case argType => exact fun hv => nomatch hv
  case stmtVar =>
    obtain _ | ⟨d, _ | _⟩ := f
    exact fun v hv => ⟨d, (List.append_nil _).symm, Stmt.var.inj hv⟩
  case stmtAssign | stmtCall | stmtIf | stmtWhile | stmtBreak | stmtContinue | stmtLabel | stmtGoto =>
    obtain _ | ⟨d, _ | _⟩ := f
    exact fun v hv => absurd hv (h.1 v)
  case stmtBlock | assignTo | callChain | ifElseIf | ifElse | ifOnly | whileLoop | breakWord | continueWord | labelNamed | gotoLabel =>
    exact fun v hv => nomatch hv
  all_goals trivial

theorem Reads.expr {ts : List Token} {e : Expr} (h : Reads .arg ts e) (he : isTypeArg e = false) : Reads .expr ts e := by
  obtain ⟨d, rfl, rfl, -⟩ := h
  obtain ⟨e, htokens, hvalue⟩ := d.isPassedOn he
  exact ⟨e, htokens, hvalue, e.isProper_of_isPure rfl⟩

theorem Reads.varDecl {ts : List Token} {v : VarDecl} (h : Reads .stmt ts (.var v)) : Reads .varDecl ts v := by
  obtain ⟨d, rfl, hvalue, -⟩ := h
  obtain ⟨d', htokens, hvalue'⟩ := d.isPassedOn v hvalue
  exact ⟨d', htokens, hvalue', d'.isProper_of_isPure rfl⟩

/-- The classes of phrases that nodes are read off. -/
def Nonterminal.ofNodes : List Nonterminal := [.type, .arg, .expr, .stmt, .varDecl, .constDecl, .structDecl, .funDecl, .param]

/-- Tokens of a phrase of such a class are a phrase read alike if they are the same but for their places and for what the first
one touches. -/
theorem Derivation.exists_near {x : Nonterminal} (hx : x ∈ Nonterminal.ofNodes) (d : Derivation (.n x)) {t t' : Token}
    {ts ts' : List Token} (htokens : d.tokens = t :: ts) (hnear : t.IsNearly t') (hsame : List.Forall₂ Token.IsSame ts ts')
    (hspelled : ∀ u ∈ d.tokens, u.IsSpelled) (hd : d.IsProper) :
    ∃ d' : Derivation (.n x), d'.tokens = t' :: ts' ∧ (Sym.n x).Alike d'.value d.value ∧ d'.IsProper := by
  obtain hkind | htouches := Kind.eq_of_touching hnear.kind
  · have hall : List.Forall₂ Token.IsSame d.tokens (t' :: ts') := htokens ▸ .cons ⟨hkind, hnear.lexeme⟩ hsame
    obtain ⟨d', htokens', halike, hproper⟩ := d.exists_same hall hspelled
    exact ⟨d', htokens', halike, hproper hd⟩
  · obtain ⟨u, us, hhead, hstarts⟩ := d.head_mem_starts (by rintro ⟨⟩; revert hx; decide)
    obtain rfl := (List.cons.inj (hhead.symm.trans htokens)).1
    have hopens : Sym.n x ∈ [Sym.n .arg, .n .expr, .n .composite] ∧ (Sym.n x).isPure = true ∧ u.kind.touching = .bracket := by
      revert hstarts htouches
      simp only [Nonterminal.ofNodes, List.mem_cons, List.not_mem_nil, or_false] at hx
      obtain rfl | rfl | rfl | rfl | rfl | rfl | rfl | rfl | rfl := hx <;> cases u.kind <;> decide
    obtain ⟨hclass, hpure, hbracket⟩ := hopens
    obtain ⟨d', htokens', halike⟩ := d.reopens hclass htokens hbracket (hnear.kind.trans hbracket) hsame hspelled
    exact ⟨d', htokens', halike, d'.isProper_of_isPure hpure⟩

/-- The slice of a source that a phrase is read off prints the phrase wherever something that closes a lexeme stands behind it. -/
theorem Reads.prints {x : Nonterminal} (hx : x ∈ Nonterminal.ofNodes) {v : x.Value} {t last : Token} {ts : List Token}
    (hread : Reads x (t :: ts) v) {source : String} {file : Option String} {front back : List Token}
    (h : (scan source file).error = none) (htokens : (scan source file).tokens = front ++ (t :: ts ++ back))
    (hlast : (t :: ts).getLast? = some last) {rest : List Char} (hclose : Lexeme.Closes rest) :
    Prints (.n x) false (slice source.toList t.start.offset last.stop.offset) true rest v := by
  intro file' pos previous _
  obtain ⟨t', ts', hcut, hnear, hsame⟩ := Scan.exists_slice h htokens hlast file' pos previous hclose
  obtain ⟨d, hd, rfl, hproper⟩ := hread
  have hscanned : ∀ u ∈ t :: ts, u.IsScanned := fun u hu =>
    Scan.isScanned_of_mem_scanFrom file {} none source.toList u
      (htokens ▸ List.mem_append_right _ (List.mem_append_left _ hu))
  have hspelled : ∀ u ∈ d.tokens, u.IsSpelled := hd ▸ fun u hu => (hscanned u hu).spelled
  obtain ⟨d', hd', halike, hproper'⟩ := d.exists_near hx hd hnear hsame hspelled hproper
  have hfault : d'.fault? = none := (d'.fault?_eq_none_iff (hd' ▸ hcut.isSpelled)).mpr hproper'
  have hfaults : ∀ u ∈ t' :: ts', u.fault? = none := by
    obtain ⟨ht, hts⟩ := List.forall_mem_cons.mp hscanned
    exact List.forall_mem_cons.mpr ⟨hnear.fault?.trans ht.inRange, Token.IsSame.faultless hsame fun u hu => (hts u hu).inRange⟩
  have hscan := hcut.scanFrom_append hfaults
  rw [hcut.behind_eq (List.cons_ne_nil _ _), ← hd'] at hscan
  exact ⟨d', _, _, hfault, halike, fun _ => rfl, hscan⟩

end Grammar

end FlatScope
