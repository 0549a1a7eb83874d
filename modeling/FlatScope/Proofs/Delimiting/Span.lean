/-
  Where nodes are. The span of a node goes from the start of the first to the end of the last of the tokens that it is read off
  (`Node.IsReadOff.stands`): a rule takes it over from its only part, or puts together those of its first and its last
  one. Tokens of a source stand one behind the other (`Scan.Cut.pairwise`), and so do the nodes in a node, inside of it
  (`Node.IsReadOff.isInside`, `Node.AreReadOff.pairwise`).
-/
import FlatScope.Proofs.Delimiting.Node
import FlatScope.Proofs.Layout.Scan
import FlatScope.Proofs.Totality.Decl

namespace FlatScope

/-! ## Spans of phrases -/

/-- A span goes from the first of some tokens to the last. -/
def Span.Covers (span : Span) (ts : List Token) : Prop :=
  ∃ first last, ts.head? = some first ∧ ts.getLast? = some last ∧ span = first.span.join last.span

theorem Span.Covers.append {a b : Span} {ts us : List Token} (ha : a.Covers ts) (hb : b.Covers us) : (a.join b).Covers (ts ++ us) := by
  obtain ⟨first, _, hfirst, _, rfl⟩ := ha
  obtain ⟨_, last, _, hlast, rfl⟩ := hb
  refine ⟨first, last, ?_, ?_, rfl⟩
  · rw [List.head?_append, hfirst, Option.some_or]
  · rw [List.getLast?_append, hlast, Option.some_or]

namespace Grammar

theorem Production.rhs_ne_nil (p : Production) (h : Sym.n p.lhs ≠ .n .unit) : p.rhs ≠ [] := by
  revert h
  cases p <;> decide

mutual

/-- A phrase covers its tokens. -/
theorem Derivation.span_covers : {s : Sym} → (d : Derivation s) → s ≠ .n .unit → d.span.Covers d.tokens
  | _, .leaf t, _ => ⟨t, t, rfl, rfl, rfl⟩
  | _, .node p f, h => f.span_covers (p.rhs_ne_nil h) p.unit_not_mem_rhs

theorem Forest.span_covers : {ss : List Sym} → (f : Forest ss) → ss ≠ [] → Sym.n .unit ∉ ss → f.span.Covers f.tokens
  | _, .nil, h, _ => absurd rfl h
  | _, .cons d .nil, _, hu => by
    rw [Forest.tokens, Forest.tokens, List.append_nil]
    exact d.span_covers fun hs => hu (hs ▸ List.mem_cons_self)
  | _, .cons d (.cons e f), _, hu => by
    have hd := d.span_covers fun hs => hu (hs ▸ List.mem_cons_self)
    exact hd.append ((Forest.cons e f).span_covers (List.cons_ne_nil _ _) fun hm => hu (List.mem_cons_of_mem _ hm))

end

/-- If a phrase is a node, this is where the phrase is. -/
def Derivation.IsPlaced : {s : Sym} → Derivation s → Prop
  | .n x, d => (∀ t ∈ d.tokens, t.IsSpelled) → ∀ n, x.node? d.value = some n → n.span? = some d.span
  | .t _, _ => True

theorem Derivation.isPlaced : {s : Sym} → (d : Derivation s) → d.IsPlaced := by
  refine Derivation.induct (fun _ => trivial) fun p f h => ?_
  have hbuilt := Derivation.isBuilt (.node p f)
  cases p
  -- rules that pass on a node
  case declConst | declVar | declStruct | declFun | argExpr | stmtVar | stmtAssign | stmtCall | stmtIf | stmtWhile | stmtBreak
    | stmtContinue | stmtLabel | stmtGoto | stmtBlock =>
    match f, h with
    | .cons d .nil, ⟨ih, _⟩ =>
      intro hspelled n hn
      exact ih (fun t ht => hspelled t (List.mem_append_left _ ht)) n hn
  -- rules for lists and suffixes
  case unitEmpty | unitDecls | declsOne | declsMore | fieldsOne | fieldsMore | paramsOne | paramsMore | typesOne | typesMore
    | sizeInteger | sizeName | stmtsOneSemi | stmtsOne | stmtsMoreSemi | stmtsMore | suffixesOne | suffixesMore | suffixIndex
    | suffixCall | indexExpr | callMany | callOne | callNone | argsOne | argsMore | exprsOne | exprsMore | openSpaced | openAdjacent =>
    exact fun _ _ hn => nomatch hn
  all_goals
    intro hspelled n hn
    obtain rfl := Option.some.inj hn
    have hparts := f.areBuilt hspelled
  case typeBase | typePointer | typeArray | typeFunMany | typeFunOne | typeFunNone | basePrimitive | baseNamed | primitiveInt
    | primitiveFloat | primitiveByte | primitiveVoid | typeArgPrimitive | typeArgNamedPointer | typeArgPointer | typeArgArray
    | typeArgFunMany | typeArgFunOne | typeArgFunNone | exprChain | exprLiteral | exprComposite | constRefName | chainName
    | chainNameSuffixes | chainBuiltin | chainBuiltinSuffixes | compositeMany | compositeOne | compositeNone | literalInt
    | literalReal | literalByte | literalChar | varTyped | blockStmts | blockEmpty | ifElseIf | ifElse | ifOnly =>
    exact congrArg some (hbuilt hspelled).1
  -- rules that put the places of their first and their last part together
  case constLiteral | constAlias | paramTyped =>
    match f, hparts with
    | .cons start (.cons name (.cons e .nil)), ⟨hstart, _, ⟨he, _⟩, _⟩ =>
      have hstop := congrArg Span.stop he
      exact congrArg some (join_congr hstart.span_eq.symm hstop)
  case argType =>
    match f, hparts with
    | .cons t .nil, ⟨⟨ht, _⟩, _⟩ => exact congrArg some ht
  case assignTo =>
    match f, hparts with
    | .cons target (.cons mark (.cons value .nil)), ⟨⟨htarget, _⟩, _, ⟨hvalue, _⟩, _⟩ =>
      have hstop := congrArg Span.stop hvalue
      exact congrArg some (join_congr htarget hstop)
  case callChain =>
    match f, hparts with
    | .cons e .nil, ⟨⟨he, _⟩, _⟩ => exact congrArg some he
  case whileLoop =>
    match f, hparts with
    | .cons start (.cons c (.cons b .nil)), ⟨hstart, _, ⟨hbraces, _⟩, _⟩ =>
      have hstop := congrArg Span.stop hbraces
      exact congrArg some (join_congr hstart.span_eq.symm hstop)
  case breakWord | continueWord =>
    match f, hparts with
    | .cons word .nil, ⟨hword, _⟩ => exact congrArg some hword.span_eq.symm
  case labelNamed =>
    match f, hparts with
    | .cons start (.cons name .nil), ⟨hstart, hname, _⟩ =>
      have hstop := congrArg Span.stop hname.span_eq.symm
      exact congrArg some (join_congr hstart.span_eq.symm hstop)
  case gotoLabel =>
    match f, hparts with
    | .cons start (.cons word (.cons name .nil)), ⟨hstart, _, hname, _⟩ =>
      have hstop := congrArg Span.stop hname.span_eq.symm
      exact congrArg some (join_congr hstart.span_eq.symm hstop)
  case structMany =>
    match f, hparts with
    | .cons start (.cons name (.cons o (.cons d (.cons ds (.cons close .nil))))), ⟨hstart, _, _, _, _, hclose, _⟩ =>
      have hstop := congrArg Span.stop hclose.span_eq.symm
      exact congrArg some (join_congr hstart.span_eq.symm hstop)
  case structOne =>
    match f, hparts with
    | .cons start (.cons name (.cons o (.cons d (.cons close .nil)))), ⟨hstart, _, _, _, hclose, _⟩ =>
      have hstop := congrArg Span.stop hclose.span_eq.symm
      exact congrArg some (join_congr hstart.span_eq.symm hstop)
  case funMany =>
    match f, hparts with
    | .cons start (.cons name (.cons t (.cons o (.cons d (.cons ds (.cons c (.cons b .nil))))))),
      ⟨hstart, _, _, _, _, _, _, ⟨hb, _⟩, _⟩ =>
      have hstop := congrArg Span.stop hb
      exact congrArg some (join_congr hstart.span_eq.symm hstop)
  case funOne =>
    match f, hparts with
    | .cons start (.cons name (.cons t (.cons o (.cons d (.cons c (.cons b .nil)))))), ⟨hstart, _, _, _, _, _, ⟨hb, _⟩, _⟩ =>
      have hstop := congrArg Span.stop hb
      exact congrArg some (join_congr hstart.span_eq.symm hstop)
  case funNone =>
    match f, hparts with
    | .cons start (.cons name (.cons t (.cons o (.cons c (.cons b .nil))))), ⟨hstart, _, _, _, _, ⟨hb, _⟩, _⟩ =>
      have hstop := congrArg Span.stop hb
      exact congrArg some (join_congr hstart.span_eq.symm hstop)

end Grammar

/-- A node is where its tokens are. -/
theorem Node.IsReadOff.covers {ts : List Token} {n : Node} (h : n.IsReadOff ts) (hspelled : ∀ t ∈ ts, t.IsSpelled) :
    ∃ span : Span, n.span? = some span ∧ span.Covers ts := by
  have hphrase {x : Grammar.Nonterminal} {v : x.Value} (hx : x ≠ .unit) (hn : x.node? v = some n) (hread : Grammar.Reads x ts v) :
      ∃ span : Span, n.span? = some span ∧ span.Covers ts := by
    obtain ⟨d, rfl, rfl, -⟩ := hread
    exact ⟨d.span, d.isPlaced hspelled n hn, d.span_covers fun he => hx (Grammar.Sym.n.inj he)⟩
  cases n
  case program | absent => exact h.elim
  all_goals exact hphrase (by decide) rfl h

/-! ## The order of tokens -/

namespace Scan

namespace Cut

variable {file : Option String} {rest cs : List Char} {pos : Position} {previous : Option Nat} {ts : List Token}

theorem le_start (h : Cut file rest pos previous cs ts) :
    ∀ t ∈ ts, pos.offset ≤ t.start.offset ∧ t.start.offset < t.stop.offset := by
  induction h with
  | nil => exact nofun
  | @token pos previous gap lexeme cs kind ts hgap hfirst hg h ih =>
    have hlexeme : 0 < lexeme.length := Lexeme.first_pos hfirst
    refine List.forall_mem_cons.mpr ⟨⟨?_, ?_⟩, fun t ht => ⟨?_, (ih t ht).2⟩⟩
    · show pos.offset ≤ (pos.after gap).offset
      rw [Position.after_offset]
      exact Nat.le_add_right _ _
    · show (pos.after gap).offset < ((pos.after gap).after lexeme).offset
      rw [Position.after_offset _ lexeme]
      exact Nat.lt_add_of_pos_right hlexeme
    · refine Nat.le_trans ?_ (ih t ht).1
      rw [Position.after_offset, Position.after_offset, Nat.add_assoc]
      exact Nat.le_add_right _ _

theorem file_eq (h : Cut file rest pos previous cs ts) : ∀ t ∈ ts, t.file = file := by
  induction h with
  | nil => exact nofun
  | token _ _ _ _ ih => exact List.forall_mem_cons.mpr ⟨rfl, ih⟩

/-- Tokens that are cut out of a text stand one behind the other. -/
theorem pairwise (h : Cut file rest pos previous cs ts) : ts.Pairwise fun t t' => t.stop.offset ≤ t'.start.offset := by
  induction h with
  | nil => exact .nil
  | token _ _ _ h ih => exact .cons (fun t ht => (h.le_start t ht).1) ih

end Cut

end Scan

/-! ## Nodes in nodes -/

namespace Node

/-- A node stands from one place to another, these included. -/
def Stands (n : Node) (start stop : Position) : Prop := ∃ file, n.span? = some ⟨file, start.point, stop.point⟩

/-- A node is inside another one. -/
def IsInside (n c : Node) : Prop := ∃ start stop start' stop' : Position, n.Stands start stop ∧ c.Stands start' stop'
  ∧ start.offset ≤ start'.offset ∧ start'.offset < stop'.offset ∧ stop'.offset ≤ stop.offset

/-- The end of a node is in front of the start of another one, or where this starts. -/
def IsBefore (n m : Node) : Prop := ∃ start stop start' stop' : Position, n.Stands start stop ∧ m.Stands start' stop'
  ∧ stop.offset ≤ start'.offset

variable {ts : List Token} {n : Node} {ns : List Node}

/-- A node stands from the start of its first token to the end of its last one. -/
theorem IsReadOff.stands (h : n.IsReadOff ts) (hspelled : ∀ t ∈ ts, t.IsSpelled) :
    ∃ first last : Token, ts.head? = some first ∧ ts.getLast? = some last ∧ n.span? = some (first.span.join last.span)
      ∧ n.Stands first.start last.stop := by
  obtain ⟨span, hspan, first, last, hfirst, hlast, rfl⟩ := h.covers hspelled
  exact ⟨first, last, hfirst, hlast, hspan, first.file, hspan⟩

end Node

/-- Tokens are in order, and none of them is empty. -/
structure AreOrdered (ts : List Token) : Prop where
  pairwise : ts.Pairwise fun t t' => t.stop.offset ≤ t'.start.offset
  nonempty : ∀ t ∈ ts, t.start.offset < t.stop.offset

namespace AreOrdered

variable {ts us : List Token}

theorem left (h : AreOrdered (ts ++ us)) : AreOrdered ts :=
  ⟨(List.pairwise_append.mp h.pairwise).1, fun t ht => h.nonempty t (List.mem_append_left _ ht)⟩

theorem right (h : AreOrdered (ts ++ us)) : AreOrdered us :=
  ⟨(List.pairwise_append.mp h.pairwise).2.1, fun t ht => h.nonempty t (List.mem_append_right _ ht)⟩

theorem between (h : AreOrdered (ts ++ us)) {t u : Token} (ht : t ∈ ts) (hu : u ∈ us) : t.stop.offset ≤ u.start.offset :=
  (List.pairwise_append.mp h.pairwise).2.2 t ht u hu

/-- The first token starts first. -/
theorem start_le (h : AreOrdered ts) {first t : Token} (hfirst : ts.head? = some first) (ht : t ∈ ts) :
    first.start.offset ≤ t.start.offset := by
  obtain ⟨ts, rfl⟩ := List.head?_eq_some_iff.mp hfirst
  obtain rfl | ht := List.mem_cons.mp ht
  · exact Nat.le_refl _
  · exact (h.nonempty first List.mem_cons_self).le.trans (List.rel_of_pairwise_cons h.pairwise ht)

/-- The last token ends last. -/
theorem le_stop (h : AreOrdered ts) {last t : Token} (hlast : ts.getLast? = some last) (ht : t ∈ ts) :
    t.stop.offset ≤ last.stop.offset := by
  obtain ⟨ts, rfl⟩ := List.getLast?_eq_some_iff.mp hlast
  obtain ht | ht := List.mem_append.mp ht
  · exact (h.between ht List.mem_cons_self).trans (h.nonempty last (List.mem_append_right _ List.mem_cons_self)).le
  · obtain rfl := List.mem_singleton.mp ht
    exact Nat.le_refl _

end AreOrdered

namespace Node

variable {ts : List Token} {n c : Node} {ns : List Node}

/-- The nodes in a node are inside of it. -/
theorem IsReadOff.isInside (h : n.IsReadOff ts) (hspelled : ∀ t ∈ ts, t.IsSpelled) (hordered : AreOrdered ts) (hc : c ∈ n.children) :
    n.IsInside c := by
  obtain ⟨front, us, back, rfl, hread⟩ := h.children.exists_of_mem hc
  have hmem {t : Token} (ht : t ∈ us) : t ∈ front ++ (us ++ back) := List.mem_append_right _ (List.mem_append_left _ ht)
  obtain ⟨first, last, hfirst, hlast, -, hstands⟩ := h.stands hspelled
  obtain ⟨first', last', hfirst', hlast', -, hstands'⟩ := hread.stands fun t ht => hspelled t (hmem ht)
  have hus := hordered.right.left
  refine ⟨_, _, _, _, hstands, hstands', ?_, ?_, ?_⟩
  · exact hordered.start_le hfirst (hmem (List.mem_of_head? hfirst'))
  · exact (hus.nonempty first' (List.mem_of_head? hfirst')).trans_le (hus.le_stop hlast' (List.mem_of_head? hfirst'))
  · exact hordered.le_stop hlast (hmem (List.mem_of_getLast? hlast'))

/-- Nodes that are read off tokens one behind the other stand one behind the other. -/
theorem AreReadOff.pairwise (h : AreReadOff ts ns) (hspelled : ∀ t ∈ ts, t.IsSpelled) (hordered : AreOrdered ts) :
    ns.Pairwise IsBefore := by
  induction h with
  | nil => exact .nil
  | @cons front us back m ms hm hs ih =>
    have hback {t : Token} (ht : t ∈ back) : t ∈ front ++ (us ++ back) := List.mem_append_right _ (List.mem_append_right _ ht)
    refine .cons (fun c hc => ?_) (ih (fun t ht => hspelled t (hback ht)) hordered.right.right)
    obtain ⟨front', us', back', rfl, hread⟩ := hs.exists_of_mem hc
    have hmem {t : Token} (ht : t ∈ us') : t ∈ front' ++ (us' ++ back') := List.mem_append_right _ (List.mem_append_left _ ht)
    obtain ⟨first, last, -, hlast, -, hstands⟩ :=
      hm.stands fun t ht => hspelled t (List.mem_append_right _ (List.mem_append_left _ ht))
    obtain ⟨first', last', hfirst', -, -, hstands'⟩ := hread.stands fun t ht => hspelled t (hback (hmem ht))
    exact ⟨_, _, _, _, hstands, hstands',
      hordered.right.between (List.mem_of_getLast? hlast) (hmem (List.mem_of_head? hfirst'))⟩

end Node

end FlatScope
