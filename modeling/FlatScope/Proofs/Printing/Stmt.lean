/-
  Statements as they are printed. Between its indentation and the end of its last line a statement has a text
  (`Stmt.text`), in which a body stands on lines of its own; this text prints the statement (`Stmt.prints`), so that
  statements line by line print as statements without anything between them.
-/
import FlatScope.Proofs.Grammar.Proper
import FlatScope.Proofs.Printing.Expr

namespace FlatScope

open Grammar Lexeme

/-! ## Lines -/

/-- Lines as one text. -/
def linesText (lines : List String) : List Char := lines.flatMap fun l => l.toList ++ ['\n']

theorem toList_unlines (lines : List String) : (unlines lines).toList = linesText lines := by
  rw [unlines, String.toList_join, List.flatMap_map, linesText]
  simp only [String.toList_append]
  rfl

theorem linesText_append (xs ys : List String) : linesText (xs ++ ys) = linesText xs ++ linesText ys :=
  List.flatMap_append

theorem linesText_cons (l : String) (ls : List String) : linesText (l :: ls) = l.toList ++ '\n' :: linesText ls := by
  rw [linesText, List.flatMap_cons, List.append_assoc]
  rfl

theorem linesText_nil : linesText [] = [] := rfl

theorem toList_opening : " \x7b".toList = [' ', '\x7b'] := rfl

theorem toList_closing : "\x7d".toList = ['\x7d'] := rfl

/-- The indentation of a line. -/
def tabs (depth : Nat) : List Char := List.replicate depth '\t'

theorem toList_indent (depth : Nat) : (indent depth).toList = tabs depth := toList_pushn "" '\t' depth

theorem isGap_tabs (depth : Nat) : IsGap (tabs depth) := by
  intro c hc
  obtain rfl := List.eq_of_mem_replicate hc
  rfl

theorem isGap_newline : IsGap ['\n'] := List.forall_mem_singleton.mpr rfl

theorem isGap_space : IsGap [' '] := List.forall_mem_singleton.mpr rfl

namespace Stmt

/-- The text of a body between braces. -/
def blockText (depth : Nat) (body : List Stmt) : List Char :=
  '\x7b' :: '\n' :: (linesText (linesAll (depth + 1) body) ++ (tabs depth ++ ['\x7d']))

/-- The text behind the closing brace of an `if` body. -/
def elseText (depth : Nat) : Option Stmt → List Char
  | some (.ifThen c body _ otherwise _) =>
    [' ', 'e', 'l', 's', 'e', ' '] ++ (['i', 'f', ' '] ++ (c.source.toList ++ ' ' :: (blockText depth body
      ++ elseText depth otherwise)))
  | some (.block body _) => [' ', 'e', 'l', 's', 'e', ' '] ++ blockText depth body
  | _ => []

/-- The text of a statement between its indentation and the end of its last line. -/
def text (depth : Nat) : Stmt → List Char
  | var d => d.source.toList
  | assign t v _ => t.source.toList ++ ([' ', ':', '=', ' '] ++ v.source.toList)
  | call c _ => c.source.toList
  | ifThen c body _ otherwise _ =>
    ['i', 'f', ' '] ++ (c.source.toList ++ ' ' :: (blockText depth body ++ elseText depth otherwise))
  | whileDo c body _ _ => ['w', 'h', 'i', 'l', 'e', ' '] ++ (c.source.toList ++ ' ' :: blockText depth body)
  | breakLoop _ => ['b', 'r', 'e', 'a', 'k']
  | continueLoop _ => ['c', 'o', 'n', 't', 'i', 'n', 'u', 'e']
  | label name _ _ => ['l', 'a', 'b', 'e', 'l', ' '] ++ name.toList
  | goto name _ _ => ['g', 'o', 't', 'o', ' '] ++ (['l', 'a', 'b', 'e', 'l', ' '] ++ name.toList)
  | block body _ => blockText depth body
  | foreign _ => []

/-- The lines from the closing brace of an `if` body on are this brace and what stands behind it. -/
theorem linesText_elseLines (depth : Nat) : (o : Option Stmt) → IsElse o →
    linesText (elseLines depth o) = tabs depth ++ '\x7d' :: (elseText depth o ++ ['\n'])
  | none, _ => by
    simp only [elseLines, elseText, linesText_cons, linesText_nil, String.toList_append, toList_indent, toList_closing,
      List.append_assoc, List.cons_append, List.nil_append]
  | some (.ifThen c body _ otherwise _), h => by
    have helse : "\x7d else if ".toList = '\x7d' :: ([' ', 'e', 'l', 's', 'e', ' '] ++ ['i', 'f', ' ']) := rfl
    simp only [elseLines, elseText, blockText, linesText_append, linesText_cons,
      linesText_elseLines depth otherwise h.2.2.2.2, String.toList_append, toList_indent, toList_opening, helse,
      List.append_assoc, List.cons_append, List.nil_append]
  | some (.block body _), _ => by
    have helse : "\x7d else \x7b".toList = '\x7d' :: ([' ', 'e', 'l', 's', 'e', ' '] ++ ['\x7b']) := rfl
    simp only [elseLines, elseText, blockText, linesText_append, linesText_cons, linesText_nil, String.toList_append,
      toList_indent, toList_closing, helse, List.append_assoc, List.cons_append, List.nil_append]
  | some (.var _), h | some (.assign ..), h | some (.call ..), h | some (.whileDo ..), h | some (.breakLoop _), h
  | some (.continueLoop _), h | some (.label ..), h | some (.goto ..), h | some (.foreign _), h => h.1.elim

/-- The lines of a statement are its indentation and its text. -/
theorem linesText_lines (depth : Nat) (s : Stmt) (h : s.IsWellFormed) :
    linesText (s.lines depth) = tabs depth ++ (s.text depth ++ ['\n']) := by
  have hlabel : "label ".toList = ['l', 'a', 'b', 'e', 'l', ' '] := rfl
  have hgoto : "goto label ".toList = ['g', 'o', 't', 'o', ' '] ++ ['l', 'a', 'b', 'e', 'l', ' '] := rfl
  have hassign : " := ".toList = [' ', ':', '=', ' '] := rfl
  have hif : "if ".toList = ['i', 'f', ' '] := rfl
  have hwhile : "while ".toList = ['w', 'h', 'i', 'l', 'e', ' '] := rfl
  have hbreak : "break".toList = ['b', 'r', 'e', 'a', 'k'] := rfl
  have hcontinue : "continue".toList = ['c', 'o', 'n', 't', 'i', 'n', 'u', 'e'] := rfl
  have hopen : "\x7b".toList = ['\x7b'] := rfl
  cases s
  case foreign n => exact h.elim
  case ifThen c body braces otherwise span =>
    have helse := linesText_elseLines depth otherwise h.2.2.2
    simp only [lines, text, blockText, linesText_append, linesText_cons, helse, String.toList_append,
      toList_indent, toList_opening, hif, List.append_assoc, List.cons_append, List.nil_append]
  all_goals
    simp only [lines, text, blockText, linesText_append, linesText_cons, linesText_nil, String.toList_append,
      toList_indent, toList_opening, toList_closing, hlabel, hgoto, hassign, hwhile, hbreak, hcontinue, hopen,
      List.append_assoc, List.cons_append, List.nil_append]

end Stmt

/-! ## Parts of statements -/

variable {before : Bool} {rest : List Char}

theorem isWord_of {c : Char} {cs : List Char} (h : (c.isAlpha && cs.all isWordChar) = true) : IsWord (c :: cs) := by
  obtain ⟨hc, hcs⟩ := Bool.and_eq_true _ _ |>.mp h
  exact .intro hc (List.all_eq_true.mp hcs)

/-- A keyword with a space behind it. -/
theorem prints_spacedKeyword {kind : Kind} {word : List Char} (hw : IsWord word)
    (hk : Kind.ofKeyword? (String.ofList word) = some kind) :
    Prints (.t kind) before (word ++ [' ']) false rest (token kind word) :=
  (prints_keyword hw hk (.cons rfl)).spaced isGap_space

/-- What a variable and a parameter look like. -/
theorem prints_typed {name : String} {text : List Char} {t : TypeExpr} (hn : IsName name) (ht : Prints (.n .type) false text true rest t) :
    PrintsAll [.t .varKw, .t .name, .n .type] before ((['v', 'a', 'r'] ++ [' ']) ++ (name.toList ++ (' ' :: text))) true rest
      (token .varKw ['v', 'a', 'r'], token .name name.toList, t, ()) := by
  have hvar : Prints (.t .varKw) before (['v', 'a', 'r'] ++ [' ']) false (name.toList ++ (' ' :: text) ++ rest) _ :=
    prints_spacedKeyword (isWord_of rfl) rfl
  have hname : Prints (.t .name) false name.toList true (' ' :: text ++ rest) _ := prints_name hn (.cons rfl)
  exact hvar.cons (hname.cons (ht.indented isGap_space true).last)

theorem prints_declared {name : String} {t : TypeExpr} (hn : IsName name) (ht : t.IsWellFormed) (hr : Ends rest) :
    PrintsAll [.t .varKw, .t .name, .n .type] before ("var " ++ name ++ " " ++ t.source).toList true rest
      (token .varKw ['v', 'a', 'r'], token .name name.toList, t, ()) := by
  have htext : ("var " ++ name ++ " " ++ t.source).toList
      = (['v', 'a', 'r'] ++ [' ']) ++ (name.toList ++ (' ' :: t.source.toList)) := by
    rw [String.toList_append, String.toList_append, String.toList_append, List.append_assoc, List.append_assoc]
    rfl
  rw [htext]
  exact prints_typed hn (t.prints ht rest hr)

theorem VarDecl.prints {d : VarDecl} (h : d.IsWellFormed) (hr : Ends rest) :
    Prints (.n .varDecl) before d.source.toList true rest d := by
  refine ((prints_declared h.1 h.2 hr).node .varTyped rfl).alike ?_
  exact congrArg (VarDecl.mk · d.type.unplaced {}) String.ofList_toList

theorem Param.prints {d : Param} (h : d.IsWellFormed) (hr : Ends rest) :
    Prints (.n .param) before d.source.toList true rest d := by
  refine ((prints_declared h.1 h.2 hr).node .paramTyped rfl).alike ?_
  exact congrArg (Param.mk · d.type.unplaced {}) String.ofList_toList

namespace Expr

theorem IsTarget.isChain {e : Expr} (h : e.IsTarget) : e.IsChain := by
  cases e
  case ident | index => trivial
  all_goals exact h.elim

theorem isBuiltinName_of_isName {name : String} (h : IsName name) : isBuiltinName name = false := by
  have ht := (isBuiltinName_lexeme (t := { kind := .name, lexeme := name, start := {}, stop := {} }) h.1 (.inl rfl)).mpr
  exact ht rfl

theorem isPlace_of_isTarget : (e : Expr) → e.IsTarget → e.isPlace = true
  | .ident name _ _, h => by
    show (!isBuiltinName name) = true
    rw [isBuiltinName_of_isName h]
    rfl
  | .index b _ _, h => b.isPlace_of_isTarget h
  | .int .., h | .real .., h | .byte .., h | .field .., h | .call .., h | .composite .., h | .addrOf .., h
  | .typeArg .., h | .foreign _, h => h.elim

theorem isChain_of_isCall {e : Expr} (h : e.isCall = true) : e.IsChain := by
  cases e
  case call => trivial
  all_goals cases h

end Expr

namespace Stmt

/-- A target and a value of an assignment. -/
theorem prints_assignTo {t v : Expr} {text : List Char} (ht : t.IsTarget) (htw : t.IsWellFormed)
    (hv : Prints (.n .expr) false text true rest v) (span : Span) :
    Prints (.n .assignStmt) false (t.source.toList ++ ([' ', ':', '=', ' '] ++ text)) true rest (.assign t v span) := by
  have htarget := (t.prints htw ([' ', ':', '=', ' '] ++ text ++ rest) (.cons rfl)).2 ht.isChain
  have hassign : Prints (.t .assign) false [':', '='] true ([' '] ++ (text ++ rest)) _ :=
    prints_mark rfl ⟨rfl, rfl⟩ ⟨rfl, rfl, rfl⟩
  have hall := htarget.cons (((hassign.spaced isGap_space).indented isGap_space true).cons hv.last)
  refine (hall.node_of .assignTo fun f hf hfaults => ?_).alike rfl
  match f with
  | .cons target (.cons mark (.cons value .nil)) =>
    rw [Forest.faults_cons, List.forall_mem_cons] at hfaults
    have hplace : target.value.isPlace = true := by
      rw [← Expr.isPlace_strip false, show target.value.strip false = t.strip false from hf.1, Expr.isPlace_strip]
      exact t.isPlace_of_isTarget ht
    have hfault : Expr.targetFault? target.value = none := if_pos hplace
    rw [Forest.faults_cons]
    show (([target.fault?].findSome? id) <|> Expr.targetFault? target.value <|> (Forest.faults _).findSome? id) = none
    rw [hfault, hfaults.1]
    exact List.findSome?_eq_none_iff.mpr hfaults.2

theorem prints_assign {t v : Expr} (ht : t.IsTarget) (htw : t.IsWellFormed) (hv : v.IsWellFormed) (span : Span)
    (hr : Ends rest) :
    Prints (.n .assignStmt) false (t.source.toList ++ ([' ', ':', '=', ' '] ++ v.source.toList)) true rest
      (.assign t v span) :=
  prints_assignTo ht htw (v.prints hv rest hr).1 span

/-- A call that stands alone. -/
theorem prints_callAlone {c : Expr} {text : List Char} (hc : c.isCall = true) (h : Prints (.n .chain) false text true rest c)
    (span : Span) : Prints (.n .callStmt) false text true rest (.call c span) := by
  refine (h.last.node_of .callChain fun f hf hfaults => ?_).alike rfl
  match f with
  | .cons chain .nil =>
    have hvalue : chain.value.isCall = true := by
      rw [← Expr.isCall_strip false, show chain.value.strip false = c.strip false from hf.1, Expr.isCall_strip]
      exact hc
    have hfault : Expr.bareFault? chain.value = none := if_pos hvalue
    have hparts : (Forest.cons chain .nil).faults.findSome? id = none := List.findSome?_eq_none_iff.mpr hfaults
    show ((Forest.cons chain .nil).faults.findSome? id <|> Expr.bareFault? chain.value) = none
    rw [hfault, hparts]
    rfl

theorem prints_callStmt {c : Expr} (hc : c.isCall = true) (h : c.IsWellFormed) (span : Span) (hr : Ends rest) :
    Prints (.n .callStmt) false c.source.toList true rest (.call c span) :=
  prints_callAlone hc ((c.prints h rest hr).2 (Expr.isChain_of_isCall hc)) span

/-! ## Bodies -/

/-- A text on a line of its own. -/
theorem prints_line {x : Nonterminal} {v : x.Value} {text : List Char} (depth : Nat)
    (h : Prints (.n x) false text true (['\n'] ++ rest) v) :
    Prints (.n x) false (tabs depth ++ (text ++ ['\n'])) false rest v :=
  (h.spaced isGap_newline).indented (isGap_tabs depth) false

theorem linesAll_eq_flatMap (depth : Nat) (ss : List Stmt) : linesAll depth ss = ss.flatMap (lines depth) := by
  induction ss with
  | nil => rfl
  | cons s ss ih => rw [linesAll, ih, List.flatMap_cons]

/-- Statements, line by line. -/
theorem prints_stmts {depth : Nat} {ss : List Stmt} (hne : ss ≠ [])
    (h : ∀ s ∈ ss, ∀ rest, Prints (.n .stmt) false (linesText (s.lines depth)) false rest s) (rest : List Char) :
    Prints (.n .stmts) false (linesText (linesAll depth ss)) false rest ss := by
  induction ss using List.reverseRecOn generalizing rest with
  | nil => exact absurd rfl hne
  | append_singleton ss s ih =>
    have hs := h s (List.mem_append_right _ List.mem_cons_self) rest
    obtain rfl | hne := eq_or_ne ss []
    · rw [List.nil_append, linesAll, linesAll, List.append_nil]
      exact hs.last.node .stmtsOne rfl
    · have hss := ih hne (fun t ht => h t (List.mem_append_left _ ht)) (linesText (s.lines depth) ++ rest)
      rw [linesAll_eq_flatMap, List.flatMap_append, List.flatMap_singleton, ← linesAll_eq_flatMap, linesText_append]
      exact (hss.cons hs.last).node .stmtsMore rfl

theorem prints_openBrace : Prints (.t .openBrace) false ['\x7b'] true rest (token .openBrace ['\x7b']) :=
  prints_mark rfl ⟨rfl, rfl⟩ ⟨rfl, rfl, rfl⟩

theorem prints_closeBrace : Prints (.t .closeBrace) false ['\x7d'] true rest (token .closeBrace ['\x7d']) :=
  prints_mark rfl ⟨rfl, rfl⟩ ⟨rfl, rfl, rfl⟩

/-- A body between braces. -/
theorem prints_block {depth : Nat} {body : List Stmt}
    (h : ∀ s ∈ body, ∀ rest, Prints (.n .stmt) false (linesText (s.lines (depth + 1))) false rest s)
    (rest : List Char) (span : Span) :
    Prints (.n .block) false (blockText depth body) true rest ⟨body, span⟩ := by
  have hclose : Prints (.t .closeBrace) false ['\x7d'] true rest _ := prints_closeBrace
  obtain rfl | hne := eq_or_ne body []
  · have hgap : IsGap ('\n' :: tabs depth) := List.forall_mem_cons.mpr ⟨rfl, isGap_tabs depth⟩
    exact ((prints_openBrace.consChar (hclose.indented hgap true).last).node .blockEmpty rfl).alike rfl
  · have hbody := prints_stmts hne h (tabs depth ++ ['\x7d'] ++ rest)
    have hall := (hbody.indented isGap_newline true).cons (hclose.indented (isGap_tabs depth) false).last
    exact ((prints_openBrace.consChar hall).node .blockStmts rfl).alike rfl

/-- A keyword, a condition and a body, with more behind it. -/
theorem prints_header {kind : Kind} {word : List Char} {c : Expr} {depth : Nat} {body : List Stmt} {ss : List Sym}
    {text : List Char} {vs : Values ss} (hw : IsWord word) (hk : Kind.ofKeyword? (String.ofList word) = some kind)
    (hc : c.IsWellFormed)
    (hb : ∀ rest, Prints (.n .block) false (blockText depth body) true rest ⟨body, {}⟩)
    (h : PrintsAll ss true text true rest vs) :
    PrintsAll (.t kind :: .n .expr :: .n .block :: ss) false
      ((word ++ [' ']) ++ (c.source.toList ++ ' ' :: (blockText depth body ++ text))) true rest
      (token kind word, c, ⟨body, {}⟩, vs) := by
  have hblock := ((hb (text ++ rest)).indented isGap_space true).cons h
  have hcondition := (c.prints hc (' ' :: (blockText depth body ++ text) ++ rest) (.cons rfl)).1
  exact (prints_spacedKeyword hw hk).cons (hcondition.cons hblock)

/-- `else` with what stands behind it. -/
theorem prints_else {x : Nonterminal} {text : List Char} {v : x.Value} (h : Prints (.n x) false text true rest v) :
    PrintsAll [.t .elseKw, .n x] true ([' ', 'e', 'l', 's', 'e', ' '] ++ text) true rest
      (token .elseKw ['e', 'l', 's', 'e'], v, ()) := by
  have helse : Prints (.t .elseKw) true ([' '] ++ (['e', 'l', 's', 'e'] ++ [' '])) false (text ++ rest) _ :=
    (prints_spacedKeyword (isWord_of rfl) rfl).indented isGap_space true
  exact helse.cons h.last

/-! ## Statements -/

/-- Braces that are there are all alike. -/
theorem bare_ifThen {braces : Braces} (h : braces.AreThere) (c : Expr) (body : List Stmt) (o : Option Stmt)
    (span span' : Span) : (ifThen c body (.around {}) o span').bare = (ifThen c body braces o span).bare := by
  cases braces with
  | around _ => rfl
  | missing n => exact h.elim

theorem bare_whileDo {braces : Braces} (h : braces.AreThere) (c : Expr) (body : List Stmt) (span span' : Span) :
    (whileDo c body (.around {}) span').bare = (whileDo c body braces span).bare := by
  cases braces with
  | around _ => rfl
  | missing n => exact h.elim

theorem lexeme_token (kind : Kind) (name : String) : (token kind name.toList).lexeme = name := String.ofList_toList

mutual

/-- A well-formed statement prints as a statement. -/
theorem prints (depth : Nat) : (s : Stmt) → s.IsWellFormed → (rest : List Char) → Ends rest →
    Prints (.n .stmt) false (s.text depth) true rest s
  | .var _, h, _, hr => ((VarDecl.prints h hr).last.node .stmtVar rfl).alike rfl
  | .assign _ _ span, h, _, hr => (prints_assign h.1 h.2.1 h.2.2 span hr).last.node .stmtAssign rfl
  | .call _ span, h, _, hr => (prints_callStmt h.1 h.2 span hr).last.node .stmtCall rfl
  | .ifThen c body braces otherwise span, h, rest, hr => by
    have hbody := fun rest => prints_block (printsAll (depth + 1) body h.2.1) rest {}
    exact (printsIf depth otherwise h.2.2.2 h.1 h.2.2.1 hbody span rest hr).last.node .stmtIf rfl
  | .whileDo c body braces span, h, rest, _ => by
    have hbody := fun rest => prints_block (printsAll (depth + 1) body h.2.1) rest {}
    have hwhile : PrintsAll [.t .whileKw, .n .expr, .n .block] false
        ((['w', 'h', 'i', 'l', 'e'] ++ [' ']) ++ (c.source.toList ++ ' ' :: (blockText depth body ++ []))) true rest _ :=
      prints_header (isWord_of rfl) rfl h.1 hbody PrintsAll.nil
    rw [List.append_nil] at hwhile
    exact ((hwhile.node .whileLoop rfl).last.node .stmtWhile rfl).alike (bare_whileDo h.2.2 c body span {})
  | .breakLoop span, _, rest, hr => by
    have hword : Prints (.t .breakKw) false ['b', 'r', 'e', 'a', 'k'] true rest _ :=
      prints_keyword (isWord_of rfl) rfl hr
    exact ((hword.last.node .breakWord rfl).last.node .stmtBreak rfl).alike rfl
  | .continueLoop span, _, rest, hr => by
    have hword : Prints (.t .continueKw) false ['c', 'o', 'n', 't', 'i', 'n', 'u', 'e'] true rest _ :=
      prints_keyword (isWord_of rfl) rfl hr
    exact ((hword.last.node .continueWord rfl).last.node .stmtContinue rfl).alike rfl
  | .label name index span, h, rest, hr => by
    have hword : Prints (.t .labelKw) false (['l', 'a', 'b', 'e', 'l'] ++ [' ']) false (name.toList ++ rest) _ :=
      prints_spacedKeyword (isWord_of rfl) rfl
    have hname : Prints (.t .name) false name.toList true rest _ := prints_name h hr
    refine (((hword.cons hname.last).node .labelNamed rfl).last.node .stmtLabel rfl).alike ?_
    exact congrArg (label · none {}) (lexeme_token .name name)
  | .goto name target span, h, rest, hr => by
    have hgoto : Prints (.t .gotoKw) false (['g', 'o', 't', 'o'] ++ [' ']) false
        ((['l', 'a', 'b', 'e', 'l'] ++ [' ']) ++ name.toList ++ rest) _ := prints_spacedKeyword (isWord_of rfl) rfl
    have hword : Prints (.t .labelKw) false (['l', 'a', 'b', 'e', 'l'] ++ [' ']) false (name.toList ++ rest) _ :=
      prints_spacedKeyword (isWord_of rfl) rfl
    have hname : Prints (.t .name) false name.toList true rest _ := prints_name h hr
    refine (((hgoto.cons (hword.cons hname.last)).node .gotoLabel rfl).last.node .stmtGoto rfl).alike ?_
    exact congrArg (goto · none {}) (lexeme_token .name name)
  | .block body span, h, rest, _ =>
    ((prints_block (printsAll (depth + 1) body h) rest span).last.node .stmtBlock rfl).alike rfl
  | .foreign _, h, _, _ => h.elim

theorem printsAll (depth : Nat) : (ss : List Stmt) → AreWellFormed ss → ∀ s ∈ ss, ∀ rest,
    Prints (.n .stmt) false (linesText (s.lines depth)) false rest s
  | [], _ => nofun
  | s :: ss, h => by
    refine List.forall_mem_cons.mpr ⟨fun rest => ?_, printsAll depth ss h.2⟩
    rw [linesText_lines depth s h.1]
    exact prints_line depth (s.prints depth h.1 _ (.cons rfl))

/-- An `if` prints as such, whatever stands behind its body. -/
theorem printsIf (depth : Nat) : (o : Option Stmt) → IsElse o → {c : Expr} → {body : List Stmt} → {braces : Braces} →
    c.IsWellFormed → braces.AreThere →
    (∀ rest, Prints (.n .block) false (blockText depth body) true rest ⟨body, {}⟩) → (span : Span) →
    (rest : List Char) → Ends rest →
    Prints (.n .ifStmt) false (['i', 'f', ' '] ++ (c.source.toList ++ ' ' :: (blockText depth body ++ elseText depth o)))
      true rest (.ifThen c body braces o span)
  | none, _, c, body, braces, hc, hb, hbody, span, rest, _ => by
    have hif : PrintsAll [.t .ifKw, .n .expr, .n .block] false
        ((['i', 'f'] ++ [' ']) ++ (c.source.toList ++ ' ' :: (blockText depth body ++ []))) true rest _ :=
      prints_header (isWord_of rfl) rfl hc hbody PrintsAll.nil
    rw [elseText.eq_def]
    refine (hif.node .ifOnly rfl).alike ?_
    exact bare_ifThen hb c body none span {}
  | some (.ifThen c' body' braces' o span'), h, c, body, braces, hc, hb, hbody, span, rest, hr => by
    have hbody' := fun rest => prints_block (printsAll (depth + 1) body' h.2.2.1) rest {}
    have helse := printsIf depth o h.2.2.2.2 h.2.1 h.2.2.2.1 hbody' span' rest hr
    have hif : PrintsAll [.t .ifKw, .n .expr, .n .block, .t .elseKw, .n .ifStmt] false
        ((['i', 'f'] ++ [' ']) ++ (c.source.toList ++ ' ' :: (blockText depth body ++ _))) true rest _ :=
      prints_header (isWord_of rfl) rfl hc hbody (prints_else helse)
    rw [elseText]
    refine (hif.node .ifElseIf rfl).alike ?_
    exact bare_ifThen hb c body _ span {}
  | some (.block body' span'), h, c, body, braces, hc, hb, hbody, span, rest, _ => by
    have helse := prints_block (printsAll (depth + 1) body' h.2) rest span'
    have hif : PrintsAll [.t .ifKw, .n .expr, .n .block, .t .elseKw, .n .block] false
        ((['i', 'f'] ++ [' ']) ++ (c.source.toList ++ ' ' :: (blockText depth body ++ _))) true rest _ :=
      prints_header (isWord_of rfl) rfl hc hbody (prints_else helse)
    rw [elseText]
    refine (hif.node .ifElse rfl).alike ?_
    exact bare_ifThen hb c body _ span {}
  | some (.var _), h, _, _, _, _, _, _, _, _, _ | some (.assign ..), h, _, _, _, _, _, _, _, _, _
  | some (.call ..), h, _, _, _, _, _, _, _, _, _ | some (.whileDo ..), h, _, _, _, _, _, _, _, _, _
  | some (.breakLoop _), h, _, _, _, _, _, _, _, _, _ | some (.continueLoop _), h, _, _, _, _, _, _, _, _, _
  | some (.label ..), h, _, _, _, _, _, _, _, _, _ | some (.goto ..), h, _, _, _, _, _, _, _, _, _
  | some (.foreign _), h, _, _, _, _, _, _, _, _, _ => h.1.elim

end

end Stmt

end FlatScope
