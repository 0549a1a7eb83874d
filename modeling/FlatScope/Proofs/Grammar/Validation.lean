/-
  The table of the grammar is complete and coherent. `items` says of each state within which rules it is. Both properties
  speak of all states, and a state without a row does nothing; so they are decided row by row
  (`Table.checkComplete`, `Table.checkCoherent`), and the kernel runs the two checks on the table.
-/
import FlatScope.Grammar.Rows
import FlatScope.Proofs.Grammar.Soundness

namespace FlatScope.Grammar

/-! ## Checks, row by row -/

namespace Table

/-- The test whether the table is complete. -/
def checkComplete (table : Table) : Bool :=
  ((List.range table.rows.size).all fun q => (table.row q).moves.all fun m =>
    match m.1 with
    | .t _ => true
    | .n x => x.rules.all fun p => table.leads (table.follows q x) q p.rhs)
    && Nonterminal.unit.rules.all fun p =>
      table.leads (· = .endOfInput) 0 p.rhs && table.reducesBy 0 .endOfInput p

/-- A step over a symbol reads what the new state says, and leads on and not behind the input. -/
def checkStep (table : Table) (items : Items) (q : Nat) (m : Sym × Nat) : Bool :=
  m.2 ≠ 0 && m.1 ≠ .t .endOfInput && (items m.2).all fun i =>
    match i.2 with
    | 0 => false
    | d + 1 => i.1.rhs[d]? = some m.1 && table.isWithin items q i.1 d

/-- The test whether the table is coherent. -/
def checkCoherent (table : Table) (items : Items) : Bool :=
  (items 0).isEmpty && (List.range table.rows.size).all fun q =>
    (table.row q).moves.all (table.checkStep items q)
      && (table.row q).reductions.all fun r => table.isWithin items q r.1 r.1.rhs.length

variable {table : Table} {items : Items}

theorem row_eq_empty {q : Nat} (h : table.rows.size ≤ q) : table.row q = ⟨[], []⟩ := by
  unfold row
  rw [Array.getD_eq_getD_getElem?, Array.getElem?_eq_none h]
  rfl

theorem mem_moves {q q' : Nat} {s : Sym} (h : table.next? q s = some q') : (s, q') ∈ (table.row q).moves := by
  obtain ⟨l, r, hl, -⟩ := List.lookup_eq_some_iff.mp h
  exact hl ▸ List.mem_append_right _ List.mem_cons_self

theorem lt_size_of_move {q : Nat} {m : Sym × Nat} (h : m ∈ (table.row q).moves) : q < table.rows.size := by
  refine Nat.lt_of_not_le fun hq => ?_
  rw [row_eq_empty hq] at h
  cases h

theorem lt_size_of_reduction {q : Nat} {r : Production × List Kind} (h : r ∈ (table.row q).reductions) :
    q < table.rows.size := by
  refine Nat.lt_of_not_le fun hq => ?_
  rw [row_eq_empty hq] at h
  cases h

theorem mem_reductions {q : Nat} {kind : Kind} {p : Production} (h : table.action q kind = .reduce p) :
    ∃ r ∈ (table.row q).reductions, r.1 = p ∧ kind ∈ r.2 := by
  unfold action at h
  split at h
  · cases h
  · split at h
    · rename_i p' hp
      obtain rfl := Action.reduce.inj h
      obtain ⟨r, hr, rfl⟩ := Option.map_eq_some_iff.mp hp
      have hkind : r.2.contains kind = true := by simpa using List.find?_some hr
      exact ⟨r, List.mem_of_find?_eq_some hr, rfl, List.contains_iff_mem.mp hkind⟩
    · cases h

theorem isComplete_of_check (h : table.checkComplete = true) : table.IsComplete := by
  simp only [checkComplete, Bool.and_eq_true, List.all_eq_true] at h
  refine ⟨fun q p hq => ?_, h.2⟩
  obtain ⟨q', hq'⟩ := Option.isSome_iff_exists.mp hq
  have hm := mem_moves hq'
  have hp := h.1 q (List.mem_range.mpr (lt_size_of_move hm)) _ hm
  exact List.all_eq_true.mp hp p (Nonterminal.mem_rules p)

theorem isCoherent_of_check (h : table.checkCoherent items = true) : table.IsCoherent items := by
  simp only [checkCoherent, Bool.and_eq_true, List.all_eq_true] at h
  obtain ⟨hfirst, hrows⟩ := h
  have hstep : ∀ {q s q'}, table.next? q s = some q' → table.checkStep items q (s, q') = true := by
    intro q s q' hq
    have hm := mem_moves hq
    exact (hrows q (List.mem_range.mpr (lt_size_of_move hm))).1 _ hm
  simp only [checkStep, Bool.and_eq_true, decide_eq_true_eq, List.all_eq_true] at hstep
  refine ⟨fun hq => (hstep hq).1.1, ?_, fun q => ?_, fun hq p d hi => ?_, fun {q kind p} ha => ?_⟩
  · intro i hi
    rw [List.isEmpty_iff.mp hfirst] at hi
    cases hi
  · rw [Option.eq_none_iff_forall_ne_some]
    exact fun q' hq => (hstep hq).1.2 rfl
  · have hi' := (hstep hq).2 _ hi
    rw [Bool.and_eq_true, decide_eq_true_eq] at hi'
    exact hi'
  · obtain ⟨r, hr, rfl, -⟩ := mem_reductions ha
    exact (hrows q (List.mem_range.mpr (lt_size_of_reduction hr))).2 r hr

end Table

/-! ## The table of the grammar -/

theorem table_isComplete : table.IsComplete := Table.isComplete_of_check (by decide +kernel)

/-- Within which rules each state is, row by row. -/
def itemRows : Array (List (Production × Nat)) := #[
  [], [(.constLiteral, 1), (.constAlias, 1)], [(.varTyped, 1)], [(.structMany, 1), (.structOne, 1)],
  [(.funMany, 1), (.funOne, 1), (.funNone, 1)], [], [(.unitDecls, 1), (.declsMore, 1)], [(.declsOne, 1)],
  [(.declConst, 1)], [(.declVar, 1)], [(.declStruct, 1)], [(.declFun, 1)],
  [(.constLiteral, 2), (.constAlias, 2)], [(.varTyped, 2)], [(.structMany, 2), (.structOne, 2)],
  [(.funMany, 2), (.funOne, 2), (.funNone, 2)], [(.declsMore, 2)], [(.constRefName, 1)], [(.literalReal, 1)],
  [(.literalByte, 1)], [(.literalInt, 1)], [(.literalChar, 1)], [(.constAlias, 3)], [(.constLiteral, 3)],
  [(.primitiveInt, 1)], [(.primitiveFloat, 1)], [(.primitiveByte, 1)], [(.primitiveVoid, 1)],
  [(.baseNamed, 1)],
  [(.varTyped, 3), (.typePointer, 1), (.typeArray, 1), (.typeFunMany, 1), (.typeFunOne, 1), (.typeFunNone, 1)],
  [(.typeBase, 1)], [(.basePrimitive, 1)], [(.openSpaced, 1)], [(.openAdjacent, 1)],
  [(.structMany, 3), (.structOne, 3)],
  [(.funMany, 3), (.funOne, 3), (.funNone, 3), (.typePointer, 1), (.typeArray, 1), (.typeFunMany, 1), (.typeFunOne, 1), (.typeFunNone, 1)],
  [(.typeArray, 2)], [(.typeFunMany, 2), (.typeFunOne, 2), (.typeFunNone, 2)], [(.typePointer, 2)],
  [(.structMany, 4), (.structOne, 4)],
  [(.funMany, 4), (.funOne, 4), (.funNone, 4), (.typeFunMany, 2), (.typeFunOne, 2), (.typeFunNone, 2)],
  [(.sizeName, 1)], [(.sizeInteger, 1)], [(.typeArray, 3)], [(.typeFunNone, 3)],
  [(.typePointer, 1), (.typeArray, 1), (.typeFunMany, 1), (.typeFunMany, 3), (.typeFunOne, 1), (.typeFunOne, 3), (.typeFunNone, 1)],
  [(.fieldsOne, 1)], [(.structOne, 5)], [(.structMany, 5), (.fieldsMore, 1)], [(.paramTyped, 1)],
  [(.funNone, 5), (.typeFunNone, 3)], [(.funMany, 5), (.funOne, 5)], [(.typeArray, 4)], [(.typeFunNone, 4)],
  [(.typesOne, 1)], [(.typeFunOne, 4)], [(.typeFunMany, 4), (.typesMore, 1)], [(.fieldsOne, 2)],
  [(.fieldsMore, 2)], [(.structMany, 6)], [(.paramTyped, 2)], [(.blockStmts, 1), (.blockEmpty, 1)],
  [(.funNone, 6)], [(.paramsOne, 1)], [(.funOne, 6)], [(.funMany, 6), (.paramsMore, 1)],
  [(.typePointer, 1), (.typeArray, 1), (.typeFunMany, 1), (.typeFunOne, 1), (.typeFunNone, 1), (.typesOne, 2)],
  [(.typeFunOne, 5)], [(.typesMore, 2)], [(.typeFunMany, 5)], [(.fieldsMore, 3)],
  [(.paramTyped, 3), (.typePointer, 1), (.typeArray, 1), (.typeFunMany, 1), (.typeFunOne, 1), (.typeFunNone, 1)],
  [(.ifElseIf, 1), (.ifElse, 1), (.ifOnly, 1)], [(.whileLoop, 1)], [(.breakWord, 1)], [(.continueWord, 1)],
  [(.labelNamed, 1)], [(.gotoLabel, 1)], [(.chainName, 1), (.chainNameSuffixes, 1)],
  [(.chainBuiltin, 1), (.chainBuiltinSuffixes, 1)], [(.blockEmpty, 2)], [(.stmtVar, 1)], [(.stmtBlock, 1)],
  [(.blockStmts, 2), (.stmtsMoreSemi, 1), (.stmtsMore, 1)], [(.stmtsOneSemi, 1), (.stmtsOne, 1)],
  [(.stmtAssign, 1)], [(.stmtCall, 1)], [(.stmtIf, 1)], [(.stmtWhile, 1)], [(.stmtBreak, 1)],
  [(.stmtContinue, 1)], [(.stmtLabel, 1)], [(.stmtGoto, 1)], [(.assignTo, 1), (.callChain, 1)],
  [(.paramsOne, 2)], [(.funOne, 7)], [(.paramsMore, 2)], [(.funMany, 7)],
  [(.typePointer, 1), (.typeArray, 1), (.typeFunMany, 1), (.typeFunOne, 1), (.typeFunNone, 1), (.typesMore, 3)],
  [(.typeFunMany, 6)], [(.ifElseIf, 2), (.ifElse, 2), (.ifOnly, 2)], [(.exprChain, 1)], [(.exprComposite, 1)],
  [(.compositeMany, 1), (.compositeOne, 1), (.compositeNone, 1)], [(.exprLiteral, 1)], [(.whileLoop, 2)],
  [(.labelNamed, 2)], [(.gotoLabel, 2)], [(.indexExpr, 1)], [(.callMany, 1), (.callOne, 1), (.callNone, 1)],
  [(.chainNameSuffixes, 2), (.suffixesMore, 1)], [(.suffixesOne, 1)], [(.suffixIndex, 1)], [(.suffixCall, 1)],
  [(.chainBuiltinSuffixes, 2), (.suffixesMore, 1)], [(.blockStmts, 3)], [(.stmtsMoreSemi, 2), (.stmtsMore, 2)],
  [(.stmtsOneSemi, 2)], [(.assignTo, 2)], [(.paramsMore, 3)], [(.funMany, 8)],
  [(.ifElseIf, 3), (.ifElse, 3), (.ifOnly, 3)], [(.compositeNone, 2)],
  [(.compositeMany, 2), (.compositeOne, 2)], [(.whileLoop, 3)], [(.gotoLabel, 3)], [(.indexExpr, 2)],
  [(.chainName, 1), (.chainNameSuffixes, 1), (.typeArgNamedPointer, 1)], [(.callNone, 2)],
  [(.typeArgPrimitive, 1)], [(.argExpr, 1)], [(.callMany, 2), (.callOne, 2)],
  [(.argType, 1), (.typeArgPointer, 1), (.typeArgArray, 1), (.typeArgFunMany, 1), (.typeArgFunOne, 1), (.typeArgFunNone, 1)],
  [(.suffixesMore, 2)], [(.stmtsMoreSemi, 3)], [(.assignTo, 3)], [(.ifElseIf, 4), (.ifElse, 4)],
  [(.exprsOne, 1)], [(.compositeOne, 3)], [(.compositeMany, 3), (.exprsMore, 1)], [(.indexExpr, 3)],
  [(.typeArgNamedPointer, 2)], [(.argsOne, 1)], [(.callOne, 3)], [(.callMany, 3), (.argsMore, 1)],
  [(.typeArgArray, 2)], [(.typeArgFunMany, 2), (.typeArgFunOne, 2), (.typeArgFunNone, 2)],
  [(.typeArgPointer, 2)], [(.ifElse, 5)], [(.ifElseIf, 5)], [(.exprsOne, 2)], [(.exprsMore, 2)],
  [(.compositeMany, 4)], [(.argsOne, 2)], [(.argsMore, 2)], [(.callMany, 4)], [(.typeArgArray, 3)],
  [(.typeArgFunNone, 3)],
  [(.typePointer, 1), (.typeArray, 1), (.typeFunMany, 1), (.typeFunOne, 1), (.typeFunNone, 1), (.typeArgFunMany, 3), (.typeArgFunOne, 3)],
  [(.exprsMore, 3)], [(.argsMore, 3)], [(.typeArgArray, 4)], [(.typeArgFunNone, 4)], [(.typeArgFunOne, 4)],
  [(.typesMore, 1), (.typeArgFunMany, 4)], [(.typeArgFunOne, 5)], [(.typeArgFunMany, 5)],
  [(.typeArgFunMany, 6)]]


/-- Within which rules a state of the table is. -/
def items : Items := fun q => itemRows.getD q []

theorem table_isCoherent : table.IsCoherent items := Table.isCoherent_of_check (by decide +kernel)

end FlatScope.Grammar
