/-
  Nodes of units. A setting of a node is what stands before and behind it in a unit (`Node.settings`): nothing for a
  declaration, a function around a statement, half an assignment or a call in a function around an argument, half a variable for
  a type. A text that prints a phrase fits into a setting if both together print the unit (`Setting.Fits`), and the slice of a
  source that a node is read off fits into every setting of the node (`Node.IsReadOff.fits`).

  Every node of a unit that is parsed is read off tokens of the source, one node in the other
  (`Node.AreReadOff.exists_of_contains`). So its span delimits it: it is where these tokens are, around the nodes in it, and what
  stands there is parsed as the same node wherever such a node may stand (`Program.delimits`).
-/
import FlatScope.Proofs.Concatenation.Unit
import FlatScope.Proofs.Delimiting.Slice
import FlatScope.Proofs.Printing.Unit

namespace FlatScope

open Grammar Lexeme

/-! ## Settings -/

/-- What stands before and behind a text in a unit, and the declarations of the unit. -/
structure Setting where
  before : String
  behind : String
  decls : List Decl

/-- What stands around a text, and the text. -/
def Setting.fill (setting : Setting) (text : List Char) : String := setting.before ++ String.ofList text ++ setting.behind

/-- A function that does not return anything. -/
def anyFunction (params : List Member) (body : List Stmt) : Decl :=
  .func { name := "f", result := .named "void" {}, params, body }

/-- The setting of a statement: a function with nothing else in it. -/
def Setting.inBody (before behind : String) (s : Stmt) : Setting :=
  ⟨"fun f void() \x7b\n" ++ before, behind ++ "\n\x7d", [anyFunction [] [s]]⟩

/-- Where a node may stand. -/
def Node.settings : Node → List Setting
  | type t => [⟨"var x ", "", [.var { name := "x", type := t }]⟩]
  | expr (.typeArg t info) => [.inBody "f(" ")" (.call (.call (.ident "f" none {}) [.typeArg t info] {}) {})]
  | expr e => [.inBody "x := " "" (.assign (.ident "x" none {}) e {})]
  | stmt (.var d) => [⟨"", "", [.var d]⟩, .inBody "" "" (.var d)]
  | stmt s => [.inBody "" "" s]
  | const d => [⟨"", "", [.const d]⟩]
  | struct d => [⟨"", "", [.struct d]⟩]
  | param d => [⟨"fun f void(", ") \x7b\n\x7d", [anyFunction [.param d] []]⟩]
  | func d => [⟨"", "", [.func d]⟩]
  | program _ | absent => []

namespace Grammar

variable {rest text : List Char}

/-! ## Declarations alone -/

/-- A declaration alone. -/
theorem prints_alone {d : Decl} (h : Prints (.n .decl) false text true [] d) : Prints (.n .unit) false text true [] [d] :=
  (h.last.node .declsOne rfl).last.node .unitDecls rfl

/-- A function alone. -/
theorem prints_funAlone {d e : FuncDecl} (h : Prints (.n .funDecl) false text true [] d)
    (he : (Decl.func d).bare = (Decl.func e).bare) : Prints (.n .unit) false text true [] [.func e] :=
  prints_alone ((h.last.node .declFun rfl).alike he)

/-! ## Functions -/

/-- What a function begins with, up to its opening parenthesis. -/
theorem prints_opening {ss : List Sym} {vs : Values ss} (h : PrintsAll ss true text true rest vs) :
    PrintsAll (.t .funKw :: .t .name :: .n .type :: .t .paren :: ss) false ("fun f void(".toList ++ text) true rest
      (token .funKw ['f', 'u', 'n'], token .name ['f'], .named "void" {}, token .paren ['('], vs) := by
  have hopen : Prints (.t .paren) true ['('] true (text ++ rest) _ := prints_touching rfl ⟨rfl, rfl⟩ ⟨rfl, rfl, rfl⟩
  have hname : IsName "f" := by decide
  have hvoid : Prints (.n .type) false "void".toList true ('(' :: text ++ rest) (.named "void" {}) :=
    prints_namedType (.inl (.inr (.inr (.inr rfl)))) (.cons rfl) {}
  exact prints_named ['f', 'u', 'n'] (isWord_of rfl) rfl hname (hvoid.cons (hopen.consChar h))

/-! ## Statements around arguments -/

/-- The value of an assignment. -/
theorem prints_asValue {e : Expr} (h : Prints (.n .expr) false text true rest e) :
    Prints (.n .stmt) false ("x := ".toList ++ text) true rest (.assign (.ident "x" none {}) e {}) := by
  have hx : IsName "x" := by decide
  have htarget : (Expr.ident "x" none {}).IsTarget := hx
  exact (Stmt.prints_assignTo htarget (.inl hx) h {}).last.node .stmtAssign rfl

/-- The argument of a call. -/
theorem prints_asArgument {t : TypeExpr} {info : Info} (h : Prints (.n .arg) false text true (')' :: rest) (.typeArg t info)) :
    Prints (.n .stmt) false ("f(".toList ++ (text ++ ")".toList)) true rest
      (.call (.call (.ident "f" none {}) [.typeArg t info] {}) {}) := by
  have hf : IsName "f" := by decide
  have hname : Prints (.n .chain) false "f".toList true ('(' :: (text ++ [')']) ++ rest) _ :=
    Expr.prints_ident (.inl hf) (.cons rfl) none {}
  have hcall := hname.snoc (prints_callOne h {})
  exact (Stmt.prints_callAlone rfl hcall {}).last.node .stmtCall rfl

end Grammar

namespace Setting

variable {text : List Char}

/-- A text in a setting prints the unit. -/
def Fits (setting : Setting) (text : List Char) : Prop := Prints (.n .unit) false (setting.fill text).toList true [] setting.decls

theorem toList_fill (setting : Setting) (text : List Char) :
    (setting.fill text).toList = setting.before.toList ++ (text ++ setting.behind.toList) := by
  rw [fill, String.toList_append, String.toList_append, String.toList_ofList, List.append_assoc]

/-- A declaration alone. -/
theorem fits_alone {d : Decl} (h : Prints (.n .decl) false text true [] d) : Fits ⟨"", "", [d]⟩ text := by
  have htext : ("".toList ++ (text ++ "".toList)) = text := List.append_nil text
  rw [Fits, toList_fill, htext]
  exact prints_alone h

/-- A statement in a function. -/
theorem fits_inBody {before behind : String} {s : Stmt}
    (h : Prints (.n .stmt) false (before.toList ++ (text ++ behind.toList)) true ['\n', '\x7d'] s) :
    (inBody before behind s).Fits text := by
  have hstmts : Prints (.n .stmts) false (before.toList ++ (text ++ behind.toList) ++ ['\n']) false ['\x7d'] [s] :=
    (h.spaced isGap_newline).last.node .stmtsOne rfl
  have hclose : PrintsAll [.t .closeBrace] false ['\x7d'] true [] _ := Stmt.prints_closeBrace.last
  have hbody := (Stmt.prints_openBrace.consChar ((hstmts.indented isGap_newline true).cons hclose)).node .blockStmts rfl
  have hunit : Prints (.n .unit) false ("fun f void(".toList ++ _) true [] [anyFunction [] [s]] :=
    prints_funAlone ((prints_opening (prints_body hbody)).node .funNone rfl) rfl
  have hbefore : "fun f void() \x7b\n".toList = "fun f void(".toList ++ [')', ' ', '\x7b', '\n'] := rfl
  rw [Fits, toList_fill, inBody, String.toList_append, String.toList_append, hbefore]
  simp only [List.append_assoc] at hunit ⊢
  exact hunit

/-- A parameter of a function with nothing in its body. -/
theorem fits_asParam {p : Param} (h : Prints (.n .param) false text true ") \x7b\n\x7d".toList p) :
    Fits ⟨"fun f void(", ") \x7b\n\x7d", [anyFunction [.param p] []]⟩ text := by
  have hclose : PrintsAll [.t .closeBrace] true (['\n'] ++ ['\x7d']) true [] _ :=
    (Stmt.prints_closeBrace.indented isGap_newline true).last
  have hbody := (Stmt.prints_openBrace.consChar hclose).node .blockEmpty rfl
  have hparam := (h.anywhere true).cons (prints_body hbody)
  have hunit : Prints (.n .unit) false ("fun f void(".toList ++ (text ++ [')', ' ', '\x7b', '\n', '\x7d'])) true []
      [anyFunction [.param p] []] := prints_funAlone ((prints_opening hparam).node .funOne rfl) rfl
  have hbehind : ") \x7b\n\x7d".toList = [')', ' ', '\x7b', '\n', '\x7d'] := rfl
  rw [Fits, toList_fill, hbehind]
  exact hunit

/-- The type of a variable. -/
theorem fits_asType {t : TypeExpr} (h : Prints (.n .type) false text true [] t) :
    Fits ⟨"var x ", "", [.var { name := "x", type := t }]⟩ text := by
  have hx : IsName "x" := by decide
  have hvar : Prints (.n .varDecl) false ("var x ".toList ++ text) true [] _ := (prints_typed hx h).node .varTyped rfl
  have htext : "var x ".toList ++ (text ++ "".toList) = "var x ".toList ++ text :=
    congrArg ("var x ".toList ++ ·) (List.append_nil text)
  rw [Fits, toList_fill, htext]
  exact (prints_alone (hvar.last.node .declVar rfl)).alike rfl

end Setting

/-! ## Nodes in their settings -/

/-- The slice of a source that a node is read off fits into every setting of the node. -/
theorem Node.IsReadOff.fits {n : Node} {t last : Token} {ts : List Token} (hread : n.IsReadOff (t :: ts)) {source : String}
    {file : Option String} {front back : List Token} (h : (scan source file).error = none)
    (htokens : (scan source file).tokens = front ++ (t :: ts ++ back)) (hlast : (t :: ts).getLast? = some last) :
    ∀ setting ∈ n.settings, setting.Fits (slice source.toList t.start.offset last.stop.offset) := by
  have hprints {x : Nonterminal} {v : x.Value} {rest : List Char} (hx : x ∈ Nonterminal.ofNodes) (hread : Reads x (t :: ts) v)
      (hclose : Closes rest) : Prints (.n x) false (slice source.toList t.start.offset last.stop.offset) true rest v :=
    hread.prints hx h htokens hlast hclose
  have hend : Closes ['\n', '\x7d'] := closes_cons (by decide) _
  have halone {x : Nonterminal} {v : x.Value} (hx : x ∈ Nonterminal.ofNodes) (hread : Reads x (t :: ts) v) :
      Prints (.n x) false (slice source.toList t.start.offset last.stop.offset) true [] v := hprints hx hread closes_nil
  -- a statement is as it is between two newlines
  have hstmt {s : Stmt} (hread : Reads .stmt (t :: ts) s) :
      (Setting.inBody "" "" s).Fits (slice source.toList t.start.offset last.stop.offset) := by
    refine Setting.fits_inBody ?_
    show Prints _ _ (_ ++ []) _ _ _
    rw [List.append_nil]
    exact hprints (by decide) hread hend
  cases n with
  | program p => exact hread.elim
  | absent => exact hread.elim
  | type t => exact List.forall_mem_singleton.mpr (Setting.fits_asType (halone (by decide) hread))
  | const d =>
    have hdecl : Prints (.n .constDecl) false _ true [] d := halone (by decide) hread
    exact List.forall_mem_singleton.mpr (Setting.fits_alone (hdecl.last.node .declConst rfl))
  | struct d =>
    have hdecl : Prints (.n .structDecl) false _ true [] d := halone (by decide) hread
    exact List.forall_mem_singleton.mpr (Setting.fits_alone (hdecl.last.node .declStruct rfl))
  | func d =>
    have hdecl : Prints (.n .funDecl) false _ true [] d := halone (by decide) hread
    exact List.forall_mem_singleton.mpr (Setting.fits_alone (hdecl.last.node .declFun rfl))
  | param d => exact List.forall_mem_singleton.mpr (Setting.fits_asParam (hprints (by decide) hread (closes_cons (by decide) _)))
  | stmt s =>
    cases s with
    | var d =>
      have hdecl : Prints (.n .varDecl) false _ true [] d := halone (by decide) hread.varDecl
      refine List.forall_mem_cons.mpr ⟨?_, List.forall_mem_singleton.mpr (hstmt hread)⟩
      exact Setting.fits_alone (hdecl.last.node .declVar rfl)
    | assign | call | ifThen | whileDo | breakLoop | continueLoop | label | goto | block | foreign =>
      exact List.forall_mem_singleton.mpr (hstmt hread)
  | expr e =>
    cases e with
    | typeArg w info =>
      refine List.forall_mem_singleton.mpr (Setting.fits_inBody ?_)
      exact prints_asArgument (hprints (by decide) hread (closes_cons (by decide) _))
    | int | real | byte | ident | index | field | call | composite | addrOf | foreign =>
      refine List.forall_mem_singleton.mpr (Setting.fits_inBody ?_)
      show Prints _ _ (_ ++ (_ ++ [])) _ _ _
      rw [List.append_nil]
      exact prints_asValue (hprints (by decide) (hread.expr rfl) hend)

open Grammar

/-- The span of a node in a source delimits it. -/
structure Node.IsDelimited (source : String) (file : Option String) (n : Node) (first last : Token) : Prop where
  /-- The node is read off tokens of the source, from the first to the last of them. -/
  isReadOff : ∃ front ts back, (scan source file).tokens = front ++ (ts ++ back) ∧ n.IsReadOff ts
    ∧ ts.head? = some first ∧ ts.getLast? = some last
  span : n.span? = some ⟨file, first.start.point, last.stop.point⟩
  start : first.start.IsIn source.toList
  stop : last.stop.IsIn source.toList
  inside : ∀ c ∈ n.children, n.IsInside c
  ordered : n.children.Pairwise IsBefore
  /-- What stands there is parsed as the node, but for places, wherever this may stand. -/
  parses : ∀ setting ∈ n.settings, ∀ file' : Option String, ∃ p,
    Program.ofSource (setting.fill (slice source.toList first.start.offset last.stop.offset)) file' = .ok p
      ∧ p.decls.map Decl.bare = setting.decls.map Decl.bare

/-- What stands in a node, however deep, is read off tokens that the nodes in it are read off. -/
theorem Node.AreReadOff.exists_of_contains {ts : List Token} {n m : Node} (h : AreReadOff ts n.children) (hm : n.Contains m) :
    ∃ front us back, ts = front ++ (us ++ back) ∧ m.IsReadOff us := by
  induction hm with
  | child hc => exact h.exists_of_mem hc
  | deeper _ hc ih =>
    obtain ⟨front, us, back, rfl, hread⟩ := ih
    obtain ⟨front', us', back', rfl, hread'⟩ := hread.children.exists_of_mem hc
    refine ⟨front ++ front', us', back' ++ back, ?_, hread'⟩
    simp only [List.append_assoc]

/-- The tokens of a source that is scanned without a fault are in order. -/
theorem Scan.areOrdered {source : String} {file : Option String} (h : (scan source file).error = none) :
    AreOrdered (scan source file).tokens := by
  obtain ⟨body, gap, -, -, hcut⟩ := Cut.of_scanFrom h
  exact ⟨hcut.pairwise, fun t ht => (hcut.le_start t ht).2⟩

theorem Scan.file_eq {source : String} {file : Option String} (h : (scan source file).error = none) :
    ∀ t ∈ (scan source file).tokens, t.file = file := by
  obtain ⟨body, gap, -, -, hcut⟩ := Cut.of_scanFrom h
  exact hcut.file_eq

/-- What is read off tokens of a source is delimited by them. -/
theorem Node.IsReadOff.isDelimited {n : Node} {ts front back : List Token} {source : String} {file : Option String}
    (hread : n.IsReadOff ts) (h : (scan source file).error = none) (htokens : (scan source file).tokens = front ++ (ts ++ back))
    (hspelled : ∀ t ∈ ts, t.IsSpelled) : ∃ first last, n.IsDelimited source file first last := by
  obtain ⟨first, last, hfirst, hlast, hspan, -⟩ := hread.stands hspelled
  have hmem {t : Token} (ht : t ∈ ts) : t ∈ (scan source file).tokens :=
    htokens ▸ List.mem_append_right _ (List.mem_append_left _ ht)
  have hin {t : Token} (ht : t ∈ ts) : t.IsIn source.toList := Scan.isIn_of_mem_scan source file t (hmem ht)
  have hordered : AreOrdered ts := AreOrdered.left (AreOrdered.right (htokens ▸ Scan.areOrdered h))
  refine ⟨first, last, ⟨front, ts, back, htokens, hread, hfirst, hlast⟩, ?_, (hin (List.mem_of_head? hfirst)).start,
    (hin (List.mem_of_getLast? hlast)).stop, fun c hc => hread.isInside hspelled hordered hc,
    hread.children.pairwise hspelled hordered, fun setting hsetting file' => ?_⟩
  · rw [hspan, ← Scan.file_eq h first (hmem (List.mem_of_head? hfirst))]
    rfl
  · obtain ⟨ts, rfl⟩ := List.head?_eq_some_iff.mp hfirst
    exact Program.ofSource_of_prints (hread.fits h htokens hlast setting hsetting) file'

namespace Program

variable {source : String} {file : Option String} {p : Program}

/-- Spans delimit exactly what they name. The declarations of a unit that is parsed stand one behind the other, and every node in it
is delimited by its first and its last token: its span goes from the start of the one to the end of the other, the nodes
in it are inside of it and one behind the other, and what stands there in the source is parsed as the same node. -/
theorem delimits (h : ofSource source file = .ok p) : (Node.program p).children.Pairwise Node.IsBefore
    ∧ ∀ n, (Node.program p).Contains n → ∃ first last, n.IsDelimited source file first last := by
  obtain ⟨hnone, d, htokens, hspelled, hproper, rfl⟩ := exists_proper_of_ofSource h
  have hread : Node.AreReadOff d.tokens (d.value.map Decl.node) := d.areReadOff hproper
  refine ⟨hread.pairwise hspelled (htokens ▸ Scan.areOrdered hnone), fun n hn => ?_⟩
  obtain ⟨front, ts, back, hsplit, hreadn⟩ := Node.AreReadOff.exists_of_contains (n := .program _) hread hn
  have hmem {t : Token} (ht : t ∈ ts) : t ∈ d.tokens := hsplit ▸ List.mem_append_right _ (List.mem_append_left _ ht)
  exact hreadn.isDelimited hnone (htokens ▸ hsplit) fun t ht => hspelled t (hmem ht)

/-- A variable of a pointer type, between comments. -/
theorem delimits_pointer : ∃ p d, ofSource "// p\nvar x int* // q" none = .ok p ∧ p.decls = [.var d]
    ∧ d.type.span = ⟨none, ⟨some 2, some 7, some 11⟩, ⟨some 2, some 11, some 15⟩⟩
    ∧ ∃ first last, (Node.type d.type).IsDelimited "// p\nvar x int* // q" none first last := by
  have hparse : (ofSource "// p\nvar x int* // q" none).toOption.map
      (fun p => p.decls.map fun | .var d => some d.type.span | _ => none)
        = some [some ⟨none, ⟨some 2, some 7, some 11⟩, ⟨some 2, some 11, some 15⟩⟩] := by decide +kernel
  obtain ⟨p, hp, hdecls⟩ := Option.map_eq_some_iff.mp hparse
  have hp := Except.toOption_eq_some_iff.mp hp
  obtain ⟨decl, hp', hdecl⟩ := List.map_eq_singleton_iff.mp hdecls
  cases decl with
  | var d =>
    have hmem : Decl.var d ∈ p.decls := hp' ▸ List.mem_cons_self
    have hvar : (Node.program p).Contains (.stmt (.var d)) := .child (List.mem_map_of_mem hmem)
    have htype : (Node.program p).Contains (.type d.type) := .deeper hvar List.mem_cons_self
    exact ⟨p, d, hp, hp', Option.some.inj hdecl, (delimits hp).2 _ htype⟩
  | const | struct | func | foreign => cases hdecl

end Program

end FlatScope
