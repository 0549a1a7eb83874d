/-
  Places in sources. Tokens of a source stand in order, by line and column (`Scan.pairwise_isAhead`), and where nodes are read off
  tokens, what is in them starts where a token starts (`Node.AreReadOff.exists_start`, `Node.AreInOrder.startsAhead`). The faults
  that keep a source from having a tree point into it as well: a lexical fault at its character or literal
  (`Scan.pointsInto_scanFrom`), a syntactic one at a token (`Program.pointsInto_ofTokens`).
-/
import FlatScope.Proofs.Delimiting.Unit
import FlatScope.Proofs.Pointing.Body
import FlatScope.Proofs.Rejection

namespace FlatScope

/-! ## The order of places -/

/-- A place is on an earlier line than another one, or in an earlier column of the same line. -/
def Position.IsAhead (p p' : Position) : Prop := p.line < p'.line ∨ p.line = p'.line ∧ p.column < p'.column

namespace Position

theorem IsAhead.trans {p p' p'' : Position} (h : p.IsAhead p') (h' : p'.IsAhead p'') : p.IsAhead p'' := by
  unfold IsAhead at *
  omega

theorem isAhead_step (p : Position) (c : Char) : p.IsAhead (p.step c) := by
  unfold step
  split
  · exact .inl (Nat.lt_succ_self p.line)
  · exact .inr ⟨rfl, Nat.lt_succ_self p.column⟩

theorem isAhead_after (p : Position) (c : Char) (cs : List Char) : p.IsAhead (p.after (c :: cs)) := by
  induction cs generalizing p c with
  | nil => exact p.isAhead_step c
  | cons c' cs ih => exact (p.isAhead_step c).trans (ih (p.step c) c')

end Position

/-- Two spans start where tokens start, the first ahead of the second. -/
def Span.StartsAhead (ts : List Token) (a b : Span) : Prop :=
  ∃ t ∈ ts, ∃ t' ∈ ts, a.start = t.start.point ∧ b.start = t'.start.point ∧ t.start.IsAhead t'.start

namespace Scan

variable {file : Option String} {rest cs : List Char} {pos : Position} {previous : Option Nat} {ts : List Token}

theorem Cut.exists_start (h : Cut file rest pos previous cs ts) : ∀ t ∈ ts, ∃ front, t.start = pos.after front := by
  induction h with
  | nil => exact List.forall_mem_nil _
  | @token pos previous gap lexeme cs kind ts hgap hfirst hg h ih =>
    refine List.forall_mem_cons.mpr ⟨⟨gap, rfl⟩, fun t ht => ?_⟩
    obtain ⟨front, hfront⟩ := ih t ht
    refine ⟨gap ++ (lexeme ++ front), ?_⟩
    rw [hfront, Position.after_append, Position.after_append]

/-- Tokens that are cut out of a text start one ahead of the other. -/
theorem Cut.pairwise_isAhead (h : Cut file rest pos previous cs ts) : ts.Pairwise fun t t' => t.start.IsAhead t'.start := by
  induction h with
  | nil => exact .nil
  | @token pos previous gap lexeme cs kind ts hgap hfirst hg h ih =>
    refine .cons (fun t ht => ?_) ih
    obtain ⟨front, hfront⟩ := h.exists_start t ht
    rw [hfront, ← Position.after_append]
    obtain ⟨c, lexeme, rfl⟩ := List.exists_cons_of_length_pos (Lexeme.first_pos hfirst)
    exact Position.isAhead_after _ c _

theorem pairwise_isAhead {source : String} (h : (scan source file).error = none) :
    (scan source file).tokens.Pairwise fun t t' => t.start.IsAhead t'.start := by
  obtain ⟨body, gap, -, -, hcut⟩ := Cut.of_scanFrom h
  exact hcut.pairwise_isAhead

end Scan

/-! ## Places of nodes -/

namespace Node

variable {ts us front back : List Token} {n : Node} {ns : List Node} {a b span : Span}

theorem AreReadOff.within (h : AreReadOff us ns) (front back : List Token) : AreReadOff (front ++ (us ++ back)) ns := by
  rw [← List.append_nil ns]
  exact (h.append .nil).behind front

/-- What is a node or in it starts where one of its tokens starts. -/
theorem Spans.exists_start (h : n.Spans span) (hread : n.IsReadOff ts) (hspelled : ∀ t ∈ ts, t.IsSpelled) :
    ∃ t ∈ ts, span.start = t.start.point := by
  induction h generalizing ts with
  | own h =>
    obtain ⟨first, last, hfirst, -, hspan, -⟩ := hread.stands hspelled
    obtain rfl := Option.some.inj (h.symm.trans hspan)
    exact ⟨first, List.mem_of_head? hfirst, rfl⟩
  | inner hc _ ih =>
    obtain ⟨front, us, back, rfl, hreadc⟩ := hread.children.exists_of_mem hc
    have hmem {t : Token} (ht : t ∈ us) : t ∈ front ++ (us ++ back) := List.mem_append_right _ (List.mem_append_left _ ht)
    obtain ⟨t, ht, hstart⟩ := ih hreadc fun t ht => hspelled t (hmem ht)
    exact ⟨t, hmem ht, hstart⟩

theorem AreReadOff.exists_start (hread : AreReadOff ts ns) (hspelled : ∀ t ∈ ts, t.IsSpelled) (h : ∃ n ∈ ns, n.Spans span) :
    ∃ t ∈ ts, span.start = t.start.point := by
  obtain ⟨n, hn, hspan⟩ := h
  obtain ⟨front, us, back, rfl, hreadn⟩ := hread.exists_of_mem hn
  have hmem {t : Token} (ht : t ∈ us) : t ∈ front ++ (us ++ back) := List.mem_append_right _ (List.mem_append_left _ ht)
  obtain ⟨t, ht, hstart⟩ := hspan.exists_start hreadn fun t ht => hspelled t (hmem ht)
  exact ⟨t, hmem ht, hstart⟩

/-- What stands in order in the nodes stands in order in the source. -/
theorem AreInOrder.startsAhead (h : AreInOrder ns a b) (hread : AreReadOff ts ns) (hspelled : ∀ t ∈ ts, t.IsSpelled)
    (hordered : ts.Pairwise fun t t' => t.start.IsAhead t'.start) : a.StartsAhead ts b := by
  obtain ⟨front, back, rfl, ha, hb⟩ := h
  obtain ⟨us, vs, rfl, hreada, hreadb⟩ := hread.exists_of_append
  obtain ⟨hus, hvs⟩ := List.forall_mem_append.mp hspelled
  obtain ⟨t, ht, hstart⟩ := hreada.exists_start hus ha
  obtain ⟨t', ht', hstart'⟩ := hreadb.exists_start hvs hb
  exact ⟨t, List.mem_append_left _ ht, t', List.mem_append_right _ ht', hstart, hstart',
    (List.pairwise_append.mp hordered).2.2 t ht t' ht'⟩

end Node

/-! ## Lexical faults -/

/-- A lexical fault is where it says in a text that starts at some place: at a character with which no lexeme begins,
or at a literal whose value is out of range. -/
inductive LexError.PointsInto (pos : Position) (text : List Char) (e : LexError) : Prop
  | character {front rest : List Char} {c : Char} (htext : text = front ++ c :: rest) (hfirst : Lexeme.first (c :: rest) = none)
    (hfault : e.fault = .ofCharacter c rest) (hstart : e.diagnostic.span.start = (pos.after front).point)
  | literal {front lexeme rest : List Char} {kind : Kind} {t : Token} (htext : text = front ++ (lexeme ++ rest))
    (hfirst : Lexeme.first (lexeme ++ rest) = some (kind, lexeme.length)) (hlexeme : t.lexeme = String.ofList lexeme)
    (hfault : t.fault? = some e.fault) (hstart : t.start = pos.after front) (hspan : e.diagnostic.span = t.span)

theorem LexError.PointsInto.behind {pos : Position} {text : List Char} {e : LexError} (front : List Char)
    (h : e.PointsInto (pos.after front) text) : e.PointsInto pos (front ++ text) := by
  cases h with
  | character htext hfirst hfault hstart =>
    rw [← Position.after_append] at hstart
    exact .character (by rw [htext, List.append_assoc]) hfirst hfault hstart
  | literal htext hfirst hlexeme hfault hstart hspan =>
    rw [← Position.after_append] at hstart
    exact .literal (by rw [htext, List.append_assoc]) hfirst hlexeme hfault hstart hspan

/-- A scan that ends at a fault ends where the fault is. -/
theorem Scan.pointsInto_scanFrom (file : Option String) (pos : Position) (previous : Option Nat) (cs : List Char) {e : LexError}
    (he : (scanFrom file pos previous cs).error = some e) : e.PointsInto pos cs := by
  induction cs using Lexeme.induct generalizing pos previous with
  | nil =>
    rw [scanFrom_nil] at he
    cases he
  | fault c cs hfirst =>
    rw [scanFrom_fault hfirst] at he
    obtain rfl := Option.some.inj he
    have htext : c :: cs = [] ++ c :: cs := rfl
    exact .character htext hfirst rfl rfl
  | lexeme cs kind n hfirst ih =>
    obtain ⟨lexeme, rest, rfl, rfl⟩ := Lexeme.append_of_first hfirst
    rw [List.drop_left] at ih
    by_cases hg : kind.isGap = true
    · rw [scanFrom_gap hfirst hg, List.take_left, List.drop_left] at he
      exact (ih _ _ he).behind lexeme
    · rw [Bool.not_eq_true] at hg
      rw [scanFrom_lexeme hfirst hg, List.take_left, List.drop_left] at he
      split at he
      · rename_i hfault
        obtain rfl := Option.some.inj he
        have htext : lexeme ++ rest = [] ++ (lexeme ++ rest) := rfl
        exact .literal htext hfirst rfl hfault rfl rfl
      · exact (ih _ _ he).behind lexeme

/-! ## Syntactic faults -/

/-- A syntactic fault is at the start of a token, and if it is about the end of the input, at the last token. -/
structure SyntaxError.PointsInto (ts : List Token) (e : SyntaxError) : Prop where
  start : ∃ t ∈ ts, e.diagnostic.span.start = t.start.point
  last : e.fault.found? = some .endOfInput → ∃ t, ts.getLast? = some t ∧ e.diagnostic.span = t.span

namespace Grammar

mutual

/-- A fault that is found in reading is at an expression. -/
theorem Derivation.exists_start_of_fault? : {s : Sym} → (d : Derivation s) → (∀ t ∈ d.tokens, t.IsSpelled) → {e : SyntaxError} →
    d.fault? = some (.syntactic e) → ∃ t ∈ d.tokens, e.span.start = t.start.point
  | _, .leaf t, _, e, he => by
    obtain ⟨f, -, hf⟩ := Option.map_eq_some_iff.mp (show literalFault? t = some (.syntactic e) from he)
    cases hf
  | _, .node p f, h, e, he => by
    obtain hf | ⟨e', hs, -, chain, hchain, hspan⟩ := p.mem_or_syntactic f he
    · exact f.exists_start_of_faults h hf
    · obtain rfl := SourceError.syntactic.inj hs
      have hread : Node.IsReadOff chain.tokens (.expr chain.value) :=
        Nonterminal.isReadOff chain (by decide) (chain.isProper_of_isPure rfl) rfl
      have hown : (Node.expr chain.value).Spans e.span := .own (congrArg some hspan.symm)
      obtain ⟨t, ht, hstart⟩ := hown.exists_start hread fun t ht => h t (hchain ht)
      exact ⟨t, hchain ht, hstart⟩

theorem Forest.exists_start_of_faults : {ss : List Sym} → (f : Forest ss) → (∀ t ∈ f.tokens, t.IsSpelled) → {e : SyntaxError} →
    some (.syntactic e) ∈ f.faults → ∃ t ∈ f.tokens, e.span.start = t.start.point
  | _, .nil, _, e, he => by
    rw [Forest.faults] at he
    cases he
  | _, .cons d f, h, e, he => by
    have h : ∀ t ∈ d.tokens ++ f.tokens, t.IsSpelled := h
    obtain ⟨hd, hf⟩ := List.forall_mem_append.mp h
    rw [Forest.faults] at he
    obtain he | he := List.mem_cons.mp he
    · obtain ⟨t, ht, hstart⟩ := d.exists_start_of_fault? hd he.symm
      exact ⟨t, List.mem_append_left _ ht, hstart⟩
    · obtain ⟨t, ht, hstart⟩ := f.exists_start_of_faults hf he
      exact ⟨t, List.mem_append_right _ ht, hstart⟩

end

end Grammar

open Grammar in
/-- What keeps tokens of a source from having a tree is at a token. -/
theorem Program.pointsInto_ofTokens {file : Option String} {tokens : List Token} {e : SourceError}
    (hspelled : ∀ t ∈ tokens, t.IsSpelled) (h : ofTokens file tokens = .error e) :
    ∃ e', e = .syntactic e' ∧ e'.PointsInto tokens := by
  unfold ofTokens at h
  split at h
  · rename_i unit hparse
    obtain rfl := tokens_of_parseTokens hparse
    split at h
    · rename_i e₀ hfault
      obtain rfl := Except.error.inj h
      obtain ⟨e', rfl⟩ := unit.fault?_syntactic hspelled hfault
      refine ⟨e', rfl, unit.exists_start_of_fault? hspelled hfault, fun hfound => ?_⟩
      cases (unit.found?_of_fault? hfault).symm.trans hfound
    · cases h
  · rename_i token expected hparse
    obtain rfl := Except.error.inj h
    refine ⟨_, rfl, ?_⟩
    obtain ⟨i, hi⟩ := exists_rejection?_iff.mpr ⟨token, expected, hparse⟩
    obtain ⟨expected', hrun⟩ := parseOn_of_rejection? hi
    have hall := hrun (tokens.drop (i + 1)) fun hlength => List.drop_eq_nil_of_le (hlength ▸ Nat.le_succ i)
    rw [List.take_append_drop] at hall
    obtain ⟨rfl, -⟩ := Outcome.rejected.inj (hparse.symm.trans hall)
    cases htoken : tokens[i]? with
    | some t =>
      have ht : t ∈ tokens := List.mem_of_getElem? htoken
      refine ⟨⟨t, ht, rfl⟩, fun hfound => ?_⟩
      -- no token spells the end of the input
      rw [SyntaxError.found?_ofRejection] at hfound
      have hkind : t.kind = .endOfInput := Option.some.inj hfound
      have hspells : t.kind.Spells t.lexeme.toList := hspelled t ht
      rw [hkind] at hspells
      exact hspells.elim
    | none =>
      obtain ⟨t, ht⟩ := Option.ne_none_iff_exists'.mp (mt List.getLast?_eq_none_iff.mp (ne_nil_of_rejection? hi))
      have hspan : (SyntaxError.ofRejection file tokens none expected).span = t.span := by
        rw [SyntaxError.ofRejection, ht]
        rfl
      exact ⟨⟨t, List.mem_of_getLast? ht, congrArg Span.start hspan⟩, fun _ => ⟨t, ht, hspan⟩⟩
  · rename_i hstuck
    exact absurd hstuck (parseTokens_ne_stuck table_isCoherent tokens)

end FlatScope
