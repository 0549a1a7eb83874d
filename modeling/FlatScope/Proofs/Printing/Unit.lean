/-
  Declarations and units as they are printed. The lines of a declaration print it, and an empty line in front of it
  changes nothing; so the source of a well-formed unit scans without a fault and is parsed as a unit that differs
  from the first one in its notes only (`Program.ofSource_source`).
-/
import FlatScope.Proofs.Parsing
import FlatScope.Proofs.Printing.Stmt

namespace FlatScope

open Grammar Lexeme

variable {before : Bool} {rest : List Char}

/-! ## Constants and structs -/

/-- The value of a constant is a literal or a name. -/
theorem prints_constant {e : Expr} (hc : e.IsConstant) (h : e.IsWellFormed) (hr : Ends rest) :
    Prints (.n .literal) false e.source.toList true rest e ∨ Prints (.n .constRef) false e.source.toList true rest e := by
  cases e
  case int z info => exact .inl (Expr.prints_int z info hr)
  case real x info => exact .inl (Expr.prints_real h info hr)
  case byte n info =>
    rw [Expr.toList_source_byte]
    exact .inl (Expr.prints_byte h info hr)
  case ident name symbol info =>
    have hname : Prints (.t .name) false name.toList true rest _ := prints_name hc hr
    exact .inr ((hname.last.node .constRefName rfl).alike (Expr.nameExpr_token name .name symbol info))
  all_goals exact hc.elim

theorem ConstDecl.prints {d : ConstDecl} (h : d.IsWellFormed) (hr : Ends rest) :
    Prints (.n .constDecl) before ("const " ++ d.name ++ " " ++ d.value.source).toList true rest d := by
  have htext : ("const " ++ d.name ++ " " ++ d.value.source).toList
      = (['c', 'o', 'n', 's', 't'] ++ [' ']) ++ (d.name.toList ++ (' ' :: d.value.source.toList)) := by
    rw [String.toList_append, String.toList_append, String.toList_append, List.append_assoc, List.append_assoc]
    rfl
  have hconst : Prints (.t .constKw) before (['c', 'o', 'n', 's', 't'] ++ [' ']) false
      (d.name.toList ++ (' ' :: d.value.source.toList) ++ rest) _ := prints_spacedKeyword (isWord_of rfl) rfl
  have hname : Prints (.t .name) false d.name.toList true (' ' :: d.value.source.toList ++ rest) _ :=
    prints_name h.1 (.cons rfl)
  have hlexeme := congrArg (ConstDecl.mk · (d.value.strip false) {}) (Stmt.lexeme_token .name d.name)
  rw [htext]
  obtain hv | hv := prints_constant h.2.1 h.2.2 hr
  · have hvalue := (hv.indented isGap_space true).last
    exact ((hconst.cons (hname.cons hvalue)).node .constLiteral rfl).alike hlexeme
  · have hvalue := (hv.indented isGap_space true).last
    exact ((hconst.cons (hname.cons hvalue)).node .constAlias rfl).alike hlexeme

/-- Members that are all made by one constructor. -/
theorem exists_map {α β : Type} {f : α → β} {P : α → Prop} {ys : List β} (h : ∀ y ∈ ys, ∃ x, y = f x ∧ P x) :
    ∃ xs : List α, ys = xs.map f ∧ ∀ x ∈ xs, P x := by
  induction ys with
  | nil => exact ⟨[], rfl, List.forall_mem_nil _⟩
  | cons y ys ih =>
    obtain ⟨⟨x, rfl, hx⟩, hys⟩ := List.forall_mem_cons.mp h
    obtain ⟨xs, rfl, hxs⟩ := ih hys
    exact ⟨x :: xs, rfl, List.forall_mem_cons.mpr ⟨hx, hxs⟩⟩

/-- A keyword and a name, with more behind them. -/
theorem prints_named {kind : Kind} (word : List Char) {name : String} {ss : List Sym} {text : List Char} {vs : Values ss}
    (hw : IsWord word) (hk : Kind.ofKeyword? (String.ofList word) = some kind) (hn : IsName name)
    (h : PrintsAll ss false text true rest vs) :
    PrintsAll (.t kind :: .t .name :: ss) before ((word ++ [' ']) ++ ((name.toList ++ [' ']) ++ text)) true rest
      (token kind word, token .name name.toList, vs) := by
  have hname : Prints (.t .name) false name.toList true ([' '] ++ (text ++ rest)) _ := prints_name hn (.cons rfl)
  exact (prints_spacedKeyword hw hk).cons ((hname.spaced isGap_space).cons h)

/-- The text of a struct behind its name. -/
def fieldText (ds : List VarDecl) : List Char := '[' :: (commaText (fun d => d.source.toList) ds ++ [']'])

theorem toList_source_struct (name : String) (ds : List VarDecl) :
    ("struct " ++ name ++ " [" ++ ", ".intercalate ((ds.map Member.var).map (·.source)) ++ "]").toList
      = (['s', 't', 'r', 'u', 'c', 't'] ++ [' ']) ++ ((name.toList ++ [' ']) ++ fieldText ds) := by
  have hmap : (ds.map Member.var).map (·.source) = ds.map VarDecl.source := List.map_map
  have hopen : " [".toList = [' '] ++ ['['] := rfl
  rw [hmap, String.toList_append, String.toList_append, String.toList_append, String.toList_append, toList_intercalate,
    fieldText, hopen]
  simp only [List.append_assoc, List.cons_append, List.nil_append]
  rfl

theorem StructDecl.prints {d : StructDecl} {ds : List VarDecl} (hn : IsName d.name) (hds : d.fields = ds.map .var)
    (hne : ds ≠ []) (h : ∀ field ∈ ds, field.IsWellFormed) :
    Prints (.n .structDecl) before ((['s', 't', 'r', 'u', 'c', 't'] ++ [' ']) ++ ((d.name.toList ++ [' ']) ++ fieldText ds))
      true rest d := by
  have hclose : Prints (.t .closeBracket) true [']'] true rest _ := prints_mark rfl ⟨rfl, rfl⟩ ⟨rfl, rfl, rfl⟩
  have hstruct : (struct (token .structKw []) (token .name d.name.toList) ds (token .closeBracket [])).strip = d.strip := by
    unfold struct StructDecl.strip
    rw [Stmt.lexeme_token, hds]
  have hopen : ∀ {rest : List Char}, Prints (.n .opener) false ['['] true rest (blankToken .bracket) := prints_opener
  match ds with
  | [] => exact absurd rfl hne
  | [field] =>
    have hfield : Prints (.n .varDecl) true _ true ([']'] ++ rest) field :=
      VarDecl.prints (h field List.mem_cons_self) (.cons rfl)
    have hfields := hopen.consChar (hfield.cons hclose.last)
    exact ((prints_named ['s', 't', 'r', 'u', 'c', 't'] (isWord_of rfl) rfl hn hfields).node .structOne rfl).alike hstruct
  | field :: next :: more =>
    have hends : Ends (((next :: more).flatMap fun d => ',' :: ' ' :: d.source.toList) ++ [']'] ++ rest) :=
      Ends.cons (c := ',') rfl
    have hfield : Prints (.n .varDecl) true _ true _ field := VarDecl.prints (h field List.mem_cons_self) hends
    have hmore := prints_commas (I := fun text rest d => Prints (.n .varDecl) false text true rest d)
      (L := fun text rest ds => Prints (.n .fields) true text true rest ds)
      (fun h => (prints_comma h).node .fieldsOne rfl) (fun hl h => (hl.cons (prints_comma h)).node .fieldsMore rfl)
      (fun d => d.source.toList) (List.cons_ne_nil next more) (show Ends (']' :: rest) from .cons rfl)
      fun d hd _ hr => VarDecl.prints (h d (List.mem_cons_of_mem _ hd)) hr
    have hfields := hopen.consChar (hfield.cons (hmore.cons hclose.last))
    have htext : fieldText (field :: next :: more) = '[' :: (field.source.toList
        ++ (((next :: more).flatMap fun d => ',' :: ' ' :: d.source.toList) ++ [']'])) := by
      rw [fieldText, commaText_cons_cons, List.append_assoc]
    rw [htext]
    exact ((prints_named ['s', 't', 'r', 'u', 'c', 't'] (isWord_of rfl) rfl hn hfields).node .structMany rfl).alike hstruct

/-! ## Functions -/

/-- The text of a function behind its result. -/
def paramText (ps : List Param) (body : List Stmt) : List Char :=
  '(' :: (commaText (fun p => p.source.toList) ps ++ ')' :: ' ' :: Stmt.blockText 0 body)

theorem toList_source_func (name : String) (result : TypeExpr) (ps : List Param) (body : List Stmt) :
    linesText (["fun " ++ name ++ " " ++ result.source ++ "("
        ++ ", ".intercalate ((ps.map Member.param).map (·.source)) ++ ") \x7b"] ++ Stmt.linesAll 1 body ++ ["\x7d"])
      = (['f', 'u', 'n'] ++ [' ']) ++ ((name.toList ++ [' ']) ++ (result.source.toList ++ paramText ps body)) ++ ['\n'] := by
  have hmap : (ps.map Member.param).map (·.source) = ps.map Param.source := List.map_map
  have hfun : "fun ".toList = ['f', 'u', 'n'] ++ [' '] := rfl
  have hspace : " ".toList = [' '] := rfl
  have hopen : "(".toList = ['('] := rfl
  have hclose : ") \x7b".toList = ')' :: ' ' :: ['\x7b'] := rfl
  rw [hmap]
  simp only [linesText_append, linesText_cons, linesText_nil, String.toList_append, toList_intercalate, paramText,
    Stmt.blockText, tabs, List.replicate_zero, Nat.zero_add, hfun, hspace, hopen, hclose, toList_closing,
    List.append_assoc, List.cons_append, List.nil_append]

/-- What a function ends with, from its closing parenthesis on. -/
theorem prints_body {b : Body} {text : List Char} (h : Prints (.n .block) false text true rest b) :
    PrintsAll [.t .closeParen, .n .block] true (')' :: ' ' :: text) true rest (token .closeParen [')'], b, ()) := by
  have hclose : Prints (.t .closeParen) true [')'] true ([' '] ++ text ++ rest) _ := prints_mark rfl ⟨rfl, rfl⟩ ⟨rfl, rfl, rfl⟩
  exact hclose.consChar (h.indented isGap_space true).last

/-- Braces that are there differ only in their places. -/
theorem Braces.AreThere.strip {b : Braces} (h : b.AreThere) : b.strip = .around {} := by
  cases b with
  | around span => rfl
  | missing n => exact h.elim

theorem FuncDecl.prints {d : FuncDecl} {ps : List Param} (h : d.IsWellFormed) (hps : d.params = ps.map .param)
    (hw : ∀ p ∈ ps, p.IsWellFormed) :
    Prints (.n .funDecl) before
      ((['f', 'u', 'n'] ++ [' ']) ++ ((d.name.toList ++ [' ']) ++ (d.result.source.toList ++ paramText ps d.body)))
      true rest d := by
  obtain ⟨hn, hresult, -, hbody, hbraces⟩ := h
  have hopen : ∀ {rest : List Char}, Prints (.t .paren) true ['('] true rest (token .paren ['(']) :=
    prints_touching rfl ⟨rfl, rfl⟩ ⟨rfl, rfl, rfl⟩
  have hrest := prints_body (Stmt.prints_block (Stmt.printsAll 1 d.body hbody) rest {})
  have htype := d.result.prints hresult (paramText ps d.body ++ rest) (.cons rfl)
  have hfunction : (function (token .funKw []) (token .name d.name.toList) d.result ps ⟨d.body, {}⟩).strip false
      = d.strip false := by
    unfold function FuncDecl.strip
    rw [Stmt.lexeme_token, hps, hbraces.strip]
    rfl
  match ps with
  | [] =>
    have hparams := htype.cons (hopen.consChar hrest)
    exact ((prints_named ['f', 'u', 'n'] (isWord_of rfl) rfl hn hparams).node .funNone rfl).alike hfunction
  | [p] =>
    have hp : Prints (.n .param) true _ true (')' :: ' ' :: Stmt.blockText 0 d.body ++ rest) p :=
      Param.prints (hw p List.mem_cons_self) (.cons rfl)
    have hparams := htype.cons (hopen.consChar (hp.cons hrest))
    exact ((prints_named ['f', 'u', 'n'] (isWord_of rfl) rfl hn hparams).node .funOne rfl).alike hfunction
  | p :: next :: more =>
    have hends : Ends (((next :: more).flatMap fun p => ',' :: ' ' :: p.source.toList)
        ++ (')' :: ' ' :: Stmt.blockText 0 d.body) ++ rest) := Ends.cons (c := ',') rfl
    have hp : Prints (.n .param) true _ true _ p := Param.prints (hw p List.mem_cons_self) hends
    have hmore := prints_commas (I := fun text rest d => Prints (.n .param) false text true rest d)
      (L := fun text rest ds => Prints (.n .params) true text true rest ds)
      (fun h => (prints_comma h).node .paramsOne rfl) (fun hl h => (hl.cons (prints_comma h)).node .paramsMore rfl)
      (fun d => d.source.toList) (List.cons_ne_nil next more)
      (show Ends (')' :: ' ' :: Stmt.blockText 0 d.body ++ rest) from .cons rfl)
      fun p hp _ hr => Param.prints (hw p (List.mem_cons_of_mem _ hp)) hr
    have htext : paramText (p :: next :: more) d.body = '(' :: (p.source.toList
        ++ (((next :: more).flatMap fun p => ',' :: ' ' :: p.source.toList) ++ ')' :: ' ' :: Stmt.blockText 0 d.body)) := by
      rw [paramText, commaText_cons_cons, List.append_assoc]
    rw [htext] at htype ⊢
    have hparams := htype.cons (hopen.consChar (hp.cons (hmore.cons hrest)))
    exact ((prints_named ['f', 'u', 'n'] (isWord_of rfl) rfl hn hparams).node .funMany rfl).alike hfunction

/-! ## Units -/

/-- The lines of a declaration print it. -/
theorem Decl.prints (d : Decl) (h : d.IsWellFormed) (rest : List Char) :
    Prints (.n .decl) false (linesText d.lines) false rest d := by
  have hends : Ends (['\n'] ++ rest) := .cons rfl
  have hline : ∀ {x : Nonterminal} {v : x.Value} (text : String), Prints (.n x) false text.toList true (['\n'] ++ rest) v →
      Prints (.n x) false (linesText [text]) false rest v := by
    intro x v text hv
    rw [linesText_cons, linesText_nil]
    exact hv.spaced isGap_newline
  cases d with
  | const d => exact ((hline _ (ConstDecl.prints h hends)).last.node .declConst rfl).alike rfl
  | var d => exact ((hline _ (VarDecl.prints h hends)).last.node .declVar rfl).alike rfl
  | struct d =>
    obtain ⟨hn, hne, hfields⟩ := h
    obtain ⟨ds, hds, hw⟩ := exists_map hfields
    have hne : ds ≠ [] := by
      rintro rfl
      exact hne hds
    have hstruct : Prints (.n .structDecl) false _ true (['\n'] ++ rest) d := StructDecl.prints hn hds hne hw
    rw [← toList_source_struct, ← hds] at hstruct
    exact ((hline _ hstruct).last.node .declStruct rfl).alike rfl
  | func d =>
    obtain ⟨ps, hps, hw⟩ := exists_map h.2.2.1
    have hfunc : Prints (.n .funDecl) false _ true (['\n'] ++ rest) d := FuncDecl.prints h hps hw
    have hlines := (hfunc.spaced isGap_newline).last.node .declFun rfl
    rw [← toList_source_func, ← hps] at hlines
    exact hlines.alike rfl
  | foreign n => exact h.elim

/-- Between a declaration and the lines before it there may be an empty line. -/
theorem Decl.prints_after (d : Decl) (h : d.IsWellFormed) (lines : List String) (rest : List Char) :
    Prints (.n .decl) false (linesText (d.linesAfter lines)) false rest d := by
  obtain heq | heq : d.linesAfter lines = d.lines ∨ d.linesAfter lines = "" :: d.lines := by
    unfold linesAfter
    split
    · split
      · exact .inl rfl
      · exact .inr rfl
    · exact .inl rfl
  · rw [heq]
    exact d.prints h rest
  · rw [heq, linesText_cons]
    exact (d.prints h rest).indented isGap_newline false

/-- Declarations, line by line. -/
theorem prints_decls {ds : List Decl} (hne : ds ≠ []) (h : ∀ d ∈ ds, d.IsWellFormed) (rest : List Char) :
    Prints (.n .decls) false (linesText (Program.mk ds none).lines) false rest ds := by
  induction ds using List.reverseRecOn generalizing rest with
  | nil => exact absurd rfl hne
  | append_singleton ds d ih =>
    have hd := d.prints_after (h d (List.mem_append_right _ List.mem_cons_self)) (Program.mk ds none).lines rest
    have hlines : (Program.mk (ds ++ [d]) none).lines
        = (Program.mk ds none).lines ++ d.linesAfter (Program.mk ds none).lines := by
      rw [Program.lines, Program.lines, List.foldl_concat]
    rw [hlines, linesText_append]
    obtain rfl | hne := eq_or_ne ds []
    · exact hd.last.node .declsOne rfl
    · have hds := ih hne (fun d hd => h d (List.mem_append_left _ hd))
        (linesText (d.linesAfter (Program.mk ds none).lines) ++ rest)
      exact (hds.cons hd.last).node .declsMore rfl

/-- The source of a well-formed unit prints it. -/
theorem Program.prints {p : Program} (h : p.IsWellFormed) : Prints (.n .unit) false p.source.toList false [] p.decls := by
  rw [Program.source, toList_unlines]
  obtain ⟨ds, file⟩ := p
  obtain rfl | hne := eq_or_ne ds []
  · exact PrintsAll.nil.node .unitEmpty rfl
  · exact (prints_decls hne h []).last.node .unitDecls rfl

/-- A text that prints a unit is parsed as a unit like it. -/
theorem Program.ofSource_of_prints {text : String} {behind : Bool} {ds : List Decl}
    (h : Prints (.n .unit) false text.toList behind [] ds) (file : Option String) :
    ∃ q, ofSource text file = .ok q ∧ q.decls.map Decl.bare = ds.map Decl.bare := by
  obtain ⟨d, pos, previous, hf, hv, -, hs⟩ := h file {} none (follows_false _ _)
  rw [List.append_nil, Scan.scanFrom_nil, Scan.prepend, List.append_nil] at hs
  have hscan : scan text file = ⟨d.tokens, none⟩ := hs
  refine ⟨{ decls := d.value, file }, ?_, hv⟩
  rw [ofSource, hscan]
  show ofTokens file d.tokens = _
  rw [ofTokens_tokens, hf]

/-- The source of a well-formed unit is parsed as a unit like it. -/
theorem Program.ofSource_source {p : Program} (h : p.IsWellFormed) (file : Option String) :
    ∃ q, ofSource p.source file = .ok q ∧ q.bare = p.bare := by
  obtain ⟨q, hq, hbare⟩ := ofSource_of_prints (Program.prints h) file
  exact ⟨q, hq, congrArg (Program.mk · none) hbare⟩

end FlatScope
