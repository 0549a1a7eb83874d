/-
  Statements in the place of others, in derivations. A `continue` is read as a statement wherever it stands, so the tokens of
  any statement can take its place: the derivation that comes of this reads as what was there, with the statement put in
  (`Derivation.exists_put`).
-/
import FlatScope.Proofs.Allocation.Put
import FlatScope.Proofs.Grammar.Suffix
import FlatScope.Proofs.Printing.Basic

namespace FlatScope

/-- The second declarations are the first ones, with `new` in the place of the statement `old` with number `k` of the
function with number `i`. -/
def Decl.AllPut (old new : Stmt) (i k : Nat) (ds ds' : List Decl) : Prop :=
  ∃ d body, ds[i]? = some (.func d) ∧ Stmt.AllPut old new k d.body body ∧ ds' = ds.set i (.func { d with body })

theorem Decl.AllPut.append_right {old new : Stmt} {i k : Nat} {ds ds' : List Decl} (h : AllPut old new i k ds ds')
    (rest : List Decl) : AllPut old new i k (ds ++ rest) (ds' ++ rest) := by
  obtain ⟨d, body, hd, hbody, rfl⟩ := h
  have hi := (List.getElem?_eq_some_iff.mp hd).1
  exact ⟨d, body, (List.getElem?_append_left hi).trans hd, hbody, (List.set_append_left i _ hi).symm⟩

theorem Decl.AllPut.append_left {old new : Stmt} {i k : Nat} {ds ds' : List Decl} (h : AllPut old new i k ds ds')
    (before : List Decl) : AllPut old new (before.length + i) k (before ++ ds) (before ++ ds') := by
  obtain ⟨d, body, hd, hbody, rfl⟩ := h
  have hle : before.length ≤ before.length + i := Nat.le_add_right _ _
  refine ⟨d, body, ?_, hbody, ?_⟩
  · rw [List.getElem?_append_right hle, Nat.add_sub_cancel_left]
    exact hd
  · rw [List.set_append_right _ _ hle, Nat.add_sub_cancel_left]

namespace Grammar

/-! ## What is read -/

/-- What a class of phrases is read as is the same, but for a statement in the place of another. -/
def Nonterminal.Puts (old new : Stmt) : (x : Nonterminal) → x.Value → x.Value → Prop
  | .unit, ds, ds' | .decls, ds, ds' => ∃ i k, Decl.AllPut old new i k ds ds'
  | .decl, d, d' => ∃ k, Decl.AllPut old new 0 k [d] [d']
  | .funDecl, d, d' => ∃ k body, Stmt.AllPut old new k d.body body ∧ d' = { d with body }
  | .block, b, b' => ∃ k, Stmt.AllPut old new k b.statements b'.statements ∧ b.braces = b'.braces
  | .stmts, ss, ss' => ∃ k, Stmt.AllPut old new k ss ss'
  | .stmt, s, s' | .whileStmt, s, s' => ∃ k, Stmt.Puts old new k s s'
  | .ifStmt, s, s' => ∃ k, Stmt.Puts old new k s s' ∧ s.isIf = true ∧ s'.isIf = true ∧ s.span = s'.span
  | _, _, _ => False

def Sym.Puts (old new : Stmt) : (s : Sym) → s.Value → s.Value → Prop
  | .t _, _, _ => False
  | .n x, v, w => x.Puts old new v w

/-- One of the values is the same but for a statement in the place of another, and the rest are the same. -/
def Values.Put (old new : Stmt) : {ss : List Sym} → Values ss → Values ss → Prop
  | [], _, _ => False
  | s :: _, vs, ws => s.Puts old new vs.1 ws.1 ∧ vs.2 = ws.2 ∨ vs.1 = ws.1 ∧ Values.Put old new vs.2 ws.2

variable {old new : Stmt}

/-- What a rule makes of values with a statement put in is what it makes of the values, with the statement put in. -/
theorem Production.puts_read (p : Production) {vs ws : Values p.rhs} (h : vs.Put old new ws) :
    Nonterminal.Puts old new p.lhs (p.read vs) (p.read ws) := by
  cases p <;>
    simp only [Values.Put, Sym.Puts, Nonterminal.Puts, false_and, and_false, false_or, or_false] at h
  case unitDecls => exact h.1
  case declsOne =>
    obtain ⟨⟨k, h⟩, -⟩ := h
    exact ⟨0, k, h⟩
  case declsMore =>
    obtain ⟨ds, d, _⟩ := vs
    obtain ⟨ds', d', _⟩ := ws
    obtain ⟨⟨i, k, h⟩, hd⟩ | ⟨rfl, ⟨k, h⟩, -⟩ := h
    · obtain rfl := (Prod.mk.inj hd).1
      exact ⟨i, k, h.append_right [d]⟩
    · exact ⟨_, k, h.append_left ds⟩
  case declFun =>
    obtain ⟨⟨k, body, hbody, hd⟩, -⟩ := h
    exact ⟨k, vs.1, body, rfl, hbody, congrArg (fun d => [Decl.func d]) hd⟩
  case funMany =>
    obtain ⟨start, name, t, _, p, ps, _, ⟨body, braces⟩, _⟩ := vs
    obtain ⟨start', name', t', _, p', ps', _, ⟨body', braces'⟩, _⟩ := ws
    obtain ⟨rfl, rfl, rfl, -, rfl, rfl, -, ⟨k, h, rfl⟩, -⟩ := h
    exact ⟨k, body', h, rfl⟩
  case funOne =>
    obtain ⟨start, name, t, _, p, _, ⟨body, braces⟩, _⟩ := vs
    obtain ⟨start', name', t', _, p', _, ⟨body', braces'⟩, _⟩ := ws
    obtain ⟨rfl, rfl, rfl, -, rfl, -, ⟨k, h, rfl⟩, -⟩ := h
    exact ⟨k, body', h, rfl⟩
  case funNone =>
    obtain ⟨start, name, t, _, _, ⟨body, braces⟩, _⟩ := vs
    obtain ⟨start', name', t', _, _, ⟨body', braces'⟩, _⟩ := ws
    obtain ⟨rfl, rfl, rfl, -, -, ⟨k, h, rfl⟩, -⟩ := h
    exact ⟨k, body', h, rfl⟩
  case blockStmts =>
    obtain ⟨o, ss, c, _⟩ := vs
    obtain ⟨o', ss', c', _⟩ := ws
    obtain ⟨rfl, ⟨k, h⟩, hc⟩ := h
    exact ⟨k, h, congrArg (fun c => Span.join o.span (Token.span c)) (Prod.mk.inj hc).1⟩
  case stmtsOneSemi | stmtsOne =>
    obtain ⟨⟨k, h⟩, -⟩ := h
    exact ⟨k, .head h⟩
  case stmtsMoreSemi | stmtsMore =>
    obtain ⟨ss, s, _⟩ := vs
    obtain ⟨ss', s', _⟩ := ws
    obtain ⟨⟨k, h⟩, hs⟩ | ⟨rfl, ⟨k, h⟩, -⟩ := h
    · obtain rfl := (Prod.mk.inj hs).1
      exact ⟨k, h.append_right [s]⟩
    · exact ⟨_, (Stmt.AllPut.head h).append_left ss⟩
  case stmtIf =>
    obtain ⟨⟨k, h, -⟩, -⟩ := h
    exact ⟨k, h⟩
  case stmtWhile => exact h.1
  case stmtBlock =>
    obtain ⟨⟨body, braces⟩, _⟩ := vs
    obtain ⟨⟨body', braces'⟩, _⟩ := ws
    obtain ⟨⟨k, h, rfl⟩, -⟩ := h
    exact ⟨k + 1, .inBlock h⟩
  case ifElseIf =>
    obtain ⟨start, c, ⟨body, braces⟩, _, s, _⟩ := vs
    obtain ⟨start', c', ⟨body', braces'⟩, _, s', _⟩ := ws
    obtain ⟨rfl, rfl, ⟨⟨k, h, rfl⟩, hs⟩ | ⟨hb, -, ⟨k, h, hs, hs', hspan⟩, -⟩⟩ := h
    · obtain rfl := (Prod.mk.inj (Prod.mk.inj hs).2).1
      exact ⟨k + 1, .inIf h, rfl, rfl, rfl⟩
    · obtain ⟨rfl, rfl⟩ := Body.mk.inj hb
      have hspan : Span.join (Token.span start) (Stmt.span s) = Span.join (Token.span start) (Stmt.span s') := congrArg _ hspan
      refine ⟨Stmt.sizes body + k + 1, ?_, rfl, rfl, hspan⟩
      dsimp only [read]
      rw [hspan]
      exact .inElse (.elseIf hs hs' h)
  case ifElse =>
    obtain ⟨start, c, ⟨body, braces⟩, _, ⟨other, otherBraces⟩, _⟩ := vs
    obtain ⟨start', c', ⟨body', braces'⟩, _, ⟨other', otherBraces'⟩, _⟩ := ws
    obtain ⟨rfl, rfl, ⟨⟨k, h, rfl⟩, hb⟩ | ⟨hb, -, ⟨k, h, rfl⟩, -⟩⟩ := h
    · obtain ⟨rfl, rfl⟩ := Body.mk.inj (Prod.mk.inj (Prod.mk.inj hb).2).1
      exact ⟨k + 1, .inIf h, rfl, rfl, rfl⟩
    · obtain ⟨rfl, rfl⟩ := Body.mk.inj hb
      exact ⟨Stmt.sizes body + k + 1, .inElse (.block h), rfl, rfl, rfl⟩
  case ifOnly =>
    obtain ⟨start, c, ⟨body, braces⟩, _⟩ := vs
    obtain ⟨start', c', ⟨body', braces'⟩, _⟩ := ws
    obtain ⟨rfl, rfl, ⟨k, h, rfl⟩, -⟩ := h
    exact ⟨k + 1, .inIf h, rfl, rfl, rfl⟩
  case whileLoop =>
    obtain ⟨start, c, ⟨body, braces⟩, _⟩ := vs
    obtain ⟨start', c', ⟨body', braces'⟩, _⟩ := ws
    obtain ⟨rfl, rfl, ⟨k, h, rfl⟩, -⟩ := h
    exact ⟨k + 1, .inWhile h⟩

/-- No statement stands in a part that a rule has a complaint about. -/
theorem Values.Put.isQuiet {p : Production} {vs ws : Values p.rhs} (h : vs.Put old new ws) : p.isQuiet = true := by
  cases p
  case assignTo | callChain => simp only [Values.Put, Sym.Puts, Nonterminal.Puts, false_and, and_false, or_self] at h
  all_goals rfl

/-! ## Derivations -/

/-- The rules with a `continue`, as a word and as a statement. -/
theorem Production.eq_continueWord {p : Production} (h : Sym.t .continueKw ∈ p.rhs) : p = .continueWord := by
  revert h
  cases p <;> decide

theorem Production.eq_stmtContinue {p : Production} (h : Sym.n .continueStmt ∈ p.rhs) : p = .stmtContinue := by
  revert h
  cases p <;> decide

/-- What a `continue` is read as. -/
def Derivation.IsContinue : {s : Sym} → Derivation s → Prop
  | .n .continueStmt, d => ∃ t : Token, d.tokens = [t] ∧ d.value = .continueLoop t.span
  | _, _ => True

theorem Derivation.isContinue {s : Sym} (d : Derivation s) : d.IsContinue := by
  cases d with
  | leaf t => trivial
  | node p f =>
    cases p
    case continueWord =>
      match f with
      | .cons word .nil =>
        obtain ⟨t, -, ht, hv⟩ := word.isFolded
        exact ⟨t, (List.append_nil _).trans ht, congrArg (fun t : Token => Stmt.continueLoop t.span) hv⟩
    all_goals trivial

/-- A member of two lists in a row is in the second one or in the first one. -/
theorem append_eq_append_cons {α : Type} {xs ys front back : List α} {x : α} (h : xs ++ ys = front ++ x :: back) :
    (∃ before, front = xs ++ before ∧ ys = before ++ x :: back) ∨ ∃ rest, xs = front ++ x :: rest ∧ back = rest ++ ys := by
  obtain ⟨before, hfront, hys⟩ | ⟨rest, hxs, hrest⟩ := List.append_eq_append_iff.mp h
  · exact .inl ⟨before, hfront, hys⟩
  · obtain ⟨rfl, hys⟩ | ⟨rest', rfl, hback⟩ := List.cons_eq_append_iff.mp hrest
    · exact .inl ⟨[], by rw [hxs, List.append_nil, List.append_nil], hys⟩
    · exact .inr ⟨rest', hxs, hback⟩

variable {t : Token}

mutual

/-- The tokens of a statement in the place of a `continue`: unless the phrase is this `continue` itself, they make a phrase that
reads as it did, with the statement put in, and has no fault that it did not have. -/
theorem Derivation.exists_put (ht : t.kind = .continueKw) (s : Derivation (.n .stmt)) (hs : s.fault? = none) : {x : Sym} →
    (d : Derivation x) → (front back : List Token) → d.tokens = front ++ t :: back →
    x = .t .continueKw ∨ x = .n .continueStmt ∨ ∃ d' : Derivation x, d'.tokens = front ++ s.tokens ++ back
      ∧ (d.fault? = none → d'.fault? = none) ∧ x.Puts (.continueLoop t.span) s.value d.value d'.value
  | _, .leaf t', front, back, h => by
    obtain ⟨-, h⟩ | ⟨rest, -, h⟩ := List.append_eq_cons_iff.mp h.symm
    · obtain rfl := (List.cons.inj h).1
      exact .inl (congrArg Sym.t ht)
    · exact absurd h.symm (by simp)
  | _, .node p f, front, back, h => by
    by_cases hword : .t .continueKw ∈ p.rhs
    · obtain rfl := Production.eq_continueWord hword
      exact .inr (.inl rfl)
    by_cases hstmt : .n .continueStmt ∈ p.rhs
    · obtain rfl := Production.eq_stmtContinue hstmt
      match f with
      | .cons d .nil =>
        obtain ⟨t', htokens, hvalue⟩ := d.isContinue
        have h : d.tokens ++ [] = front ++ t :: back := h
        rw [List.append_nil, htokens] at h
        obtain ⟨rfl, h⟩ | ⟨rest, -, h⟩ := List.append_eq_cons_iff.mp h.symm
        · obtain ⟨heq, rfl⟩ := List.cons.inj h
          refine .inr (.inr ⟨s, (List.append_nil _).symm, fun _ => hs, 0, ?_⟩)
          show Stmt.Puts (.continueLoop t.span) s.value 0 d.value s.value
          rw [hvalue, ← heq]
          exact .here
        · exact absurd h.symm (by simp)
    obtain ⟨f', htokens, hfaults, hput⟩ := f.exists_put ht s hs hword hstmt front back h
    refine .inr (.inr ⟨.node p f', htokens, fun hf => ?_, p.puts_read hput⟩)
    rw [Derivation.fault?_node p f' hput.isQuiet]
    exact hfaults ((Derivation.fault?_node p f hput.isQuiet).mp hf)

theorem Forest.exists_put (ht : t.kind = .continueKw) (s : Derivation (.n .stmt)) (hs : s.fault? = none) : {ss : List Sym} →
    (f : Forest ss) → .t .continueKw ∉ ss → .n .continueStmt ∉ ss → (front back : List Token) →
    f.tokens = front ++ t :: back → ∃ f' : Forest ss, f'.tokens = front ++ s.tokens ++ back
      ∧ ((∀ fault ∈ f.faults, fault = none) → ∀ fault ∈ f'.faults, fault = none)
      ∧ f.values.Put (.continueLoop t.span) s.value f'.values
  | _, .nil, _, _, front, back, h => absurd h.symm (by simp [Forest.tokens])
  | _, .cons d f, hword, hstmt, front, back, h => by
    obtain ⟨before, rfl, hf⟩ | ⟨rest, hd, rfl⟩ := append_eq_append_cons (show d.tokens ++ f.tokens = _ from h)
    · obtain ⟨f', htokens, hfaults, hput⟩ := f.exists_put ht s hs (fun h => hword (List.mem_cons_of_mem _ h))
        (fun h => hstmt (List.mem_cons_of_mem _ h)) before back hf
      refine ⟨.cons d f', ?_, fun hnone => ?_, .inr ⟨rfl, hput⟩⟩
      · rw [Forest.tokens, htokens, List.append_assoc, List.append_assoc, List.append_assoc]
      · rw [Forest.faults_cons, List.forall_mem_cons] at hnone ⊢
        exact ⟨hnone.1, hfaults hnone.2⟩
    · obtain rfl | rfl | ⟨d', htokens, hfault, hput⟩ := Derivation.exists_put ht s hs d front rest hd
      · exact absurd List.mem_cons_self hword
      · exact absurd List.mem_cons_self hstmt
      · refine ⟨.cons d' f, ?_, fun hnone => ?_, .inl ⟨hput, rfl⟩⟩
        · rw [Forest.tokens, htokens, List.append_assoc]
        · rw [Forest.faults_cons, List.forall_mem_cons] at hnone ⊢
          exact ⟨hfault hnone.1, hnone.2⟩

end

end Grammar

end FlatScope
