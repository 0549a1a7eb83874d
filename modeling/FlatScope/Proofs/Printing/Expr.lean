/-
  Types and expressions as they are printed. A well-formed type prints as a type, wherever it stands (`TypeExpr.prints`). Among
  arguments it prints as a type only if it can be told from an expression there (`TypeExpr.prints_typeArg`): the rules are
  others, but what they put behind a type is the same. A suffix is printed behind a chain, and is the last one of the chain that
  is read back (`Prints.snoc`); so an expression with suffixes prints as a chain, and every well-formed expression as an
  expression (`Expr.prints`).
-/
import FlatScope.Proofs.Printing.Basic

namespace FlatScope

open Grammar Lexeme

variable {before : Bool} {rest : List Char}

/-! ## Words -/

theorem prints_primitive {name : String} (hn : IsTypeWord name) (hr : Ends rest) (span : Span) :
    Prints (.n .primitive) before name.toList true rest (.named name span) := by
  have hw : ∀ {c : Char} {cs : List Char}, c.isAlpha = true → cs.all isWordChar = true → IsWord (c :: cs) :=
    fun hc hcs => .intro hc (List.all_eq_true.mp hcs)
  obtain rfl | rfl | rfl | rfl := hn
  · have h : Prints (.t .intKw) before ['i', 'n', 't'] true rest _ := prints_keyword (hw rfl rfl) rfl hr
    exact (h.last.node .primitiveInt rfl).alike rfl
  · have h : Prints (.t .floatKw) before ['f', 'l', 'o', 'a', 't'] true rest _ :=
      prints_keyword (hw rfl rfl) rfl hr
    exact (h.last.node .primitiveFloat rfl).alike rfl
  · have h : Prints (.t .byteKw) before ['b', 'y', 't', 'e'] true rest _ := prints_keyword (hw rfl rfl) rfl hr
    exact (h.last.node .primitiveByte rfl).alike rfl
  · have h : Prints (.t .voidKw) before ['v', 'o', 'i', 'd'] true rest _ := prints_keyword (hw rfl rfl) rfl hr
    exact (h.last.node .primitiveVoid rfl).alike rfl

theorem wordType_token (name : String) (span : Span) :
    (wordType (token .name name.toList)).unplaced = (TypeExpr.named name span).unplaced := by
  rw [wordType, token, String.ofList_toList]
  rfl

theorem prints_namedType {name : String} (hn : IsTypeWord name ∨ IsName name) (hr : Ends rest) (span : Span) :
    Prints (.n .type) before name.toList true rest (.named name span) := by
  obtain hp | hn := hn
  · exact ((prints_primitive hp hr span).last.node .basePrimitive rfl).last.node .typeBase rfl
  · have h : Prints (.t .name) before name.toList true rest _ := prints_name hn hr
    exact ((h.last.node .baseNamed rfl).last.node .typeBase rfl).alike (wordType_token name span)

/-! ## What stands behind a type -/

theorem prints_star : PrintsAll [.t .star] true ['*'] true rest (token .star ['*'], ()) := by
  have hstar : Prints (.t .star) true ['*'] true rest _ := prints_touching rfl ⟨rfl, rfl⟩ ⟨rfl, rfl, rfl⟩
  exact hstar.last

theorem ArraySize.prints {size : ArraySize} (h : size.IsWellFormed) (hr : Ends rest) :
    Prints (.n .arraySize) before size.source.toList true rest size := by
  cases size with
  | int z =>
    refine ((prints_integer z hr).last.node .sizeInteger rfl).alike ?_
    exact congrArg ArraySize.int (intValue_token z)
  | name s =>
    refine ((prints_name h hr).last.node .sizeName rfl).alike ?_
    exact congrArg ArraySize.name String.ofList_toList

theorem prints_size {size : ArraySize} (h : size.IsWellFormed) :
    PrintsAll [.t .bracket, .n .arraySize, .t .closeBracket] true ('[' :: (size.source.toList ++ [']'])) true rest
      (token .bracket ['['], size, token .closeBracket [']'], ()) := by
  have hclose : Prints (.t .closeBracket) true [']'] true rest _ := prints_mark rfl ⟨rfl, rfl⟩ ⟨rfl, rfl, rfl⟩
  exact Prints.consChar (prints_touching rfl ⟨rfl, rfl⟩ ⟨rfl, rfl, rfl⟩) ((ArraySize.prints h (.cons rfl)).cons hclose.last)

theorem prints_closing : PrintsAll [.t .closeParen, .t .star] true [')', '*'] true rest
    (token .closeParen [')'], token .star ['*'], ()) :=
  Prints.consChar (prints_mark rfl ⟨rfl, rfl⟩ ⟨rfl, rfl, rfl⟩) prints_star

namespace TypeExpr

/-- Types behind commas. -/
theorem prints_types {ts : List TypeExpr} (hne : ts ≠ []) (rest : List Char) (hr : Ends rest)
    (h : ∀ t ∈ ts, ∀ rest, Ends rest → Prints (.n .type) false t.source.toList true rest t) :
    Prints (.n .types) true (ts.flatMap fun t => ',' :: ' ' :: t.source.toList) true rest ts :=
  prints_commas (I := fun text rest t => Prints (.n .type) false text true rest t)
    (L := fun text rest ts => Prints (.n .types) true text true rest ts)
    (fun h => (prints_comma h).node .typesOne rfl) (fun hl h => (hl.cons (prints_comma h)).node .typesMore rfl)
    (fun t => t.source.toList) hne hr h

theorem toList_source_pointer (e : TypeExpr) (span : Span) :
    (pointer e span).source.toList = e.source.toList ++ ['*'] := by
  rw [source, String.toList_append]
  rfl

theorem toList_source_array (e : TypeExpr) (size : ArraySize) (span : Span) :
    (array e size span).source.toList = e.source.toList ++ '[' :: (size.source.toList ++ [']']) := by
  rw [source, String.toList_append, String.toList_append, String.toList_append, List.append_assoc, List.append_assoc]
  rfl

/-- The text of the parameters of a function type, up to its star. -/
def parameterText (ps : List TypeExpr) : List Char := '(' :: (commaText (fun t => t.source.toList) ps ++ [')', '*'])

theorem toList_source_func (r : TypeExpr) (ps : List TypeExpr) (span : Span) :
    (func r ps span).source.toList = r.source.toList ++ parameterText ps := by
  have hsources : sources ps = ps.map source := by
    induction ps with
    | nil => rfl
    | cons t ts ih => rw [sources, ih, List.map_cons]
  rw [source, hsources, String.toList_append, String.toList_append, String.toList_append, toList_intercalate,
    List.append_assoc, List.append_assoc]
  rfl

/-- The parameters of a function type are none, one or many, and for each number there is a rule. -/
theorem prints_parameters {ps : List TypeExpr}
    (h : ∀ t ∈ ps, ∀ rest, Ends rest → Prints (.n .type) false t.source.toList true rest t) (rest : List Char) :
    ps = [] ∧ PrintsAll [.t .paren, .t .closeParen, .t .star] true (parameterText ps) true rest
      (token .paren ['('], token .closeParen [')'], token .star ['*'], ())
    ∨ (∃ t, ps = [t] ∧ PrintsAll [.t .paren, .n .type, .t .closeParen, .t .star] true (parameterText ps) true rest
      (token .paren ['('], t, token .closeParen [')'], token .star ['*'], ()))
    ∨ ∃ t ts, ps = t :: ts ∧ PrintsAll [.t .paren, .n .type, .n .types, .t .closeParen, .t .star] true
      (parameterText ps) true rest
      (token .paren ['('], t, ts, token .closeParen [')'], token .star ['*'], ()) := by
  have hopen : ∀ {rest : List Char}, Prints (.t .paren) true ['('] true rest (token .paren ['(']) :=
    prints_touching rfl ⟨rfl, rfl⟩ ⟨rfl, rfl, rfl⟩
  match ps with
  | [] => exact .inl ⟨rfl, hopen.consChar prints_closing⟩
  | [t] =>
    have ht := h t List.mem_cons_self (')' :: '*' :: rest) (.cons rfl)
    exact .inr (.inl ⟨t, rfl, hopen.consChar ((ht.anywhere true).cons prints_closing)⟩)
  | t :: u :: us =>
    have ht := h t List.mem_cons_self
      (((u :: us).flatMap fun t => ',' :: ' ' :: t.source.toList) ++ [')', '*'] ++ rest) (Ends.cons (c := ',') rfl)
    have hts := prints_types (List.cons_ne_nil u us) ([')', '*'] ++ rest) (Ends.cons (c := ')') rfl)
      fun t ht => h t (List.mem_cons_of_mem _ ht)
    refine .inr (.inr ⟨t, u :: us, rfl, hopen.consChar ?_⟩)
    rw [commaText_cons_cons, List.append_assoc]
    exact (ht.anywhere true).cons (hts.cons prints_closing)

mutual

/-- A well-formed type prints as a type. -/
theorem prints : (t : TypeExpr) → t.IsWellFormed → (rest : List Char) → Ends rest →
    Prints (.n .type) false t.source.toList true rest t
  | .named name span, h, _, hr => prints_namedType h hr span
  | .pointer e span, h, rest, _ => by
    rw [toList_source_pointer]
    exact (((e.prints h ('*' :: rest) (.cons rfl)).cons prints_star).node .typePointer rfl).alike rfl
  | .array e size span, h, rest, _ => by
    rw [toList_source_array]
    have he := e.prints h.1 ('[' :: (size.source.toList ++ [']']) ++ rest) (.cons rfl)
    exact ((he.cons (prints_size h.2)).node .typeArray rfl).alike rfl
  | .func r ps span, h, rest, hr => by
    have hr' := r.prints h.1 (parameterText ps ++ rest) (.cons rfl)
    have hps := printsEach ps h.2
    rw [toList_source_func]
    obtain ⟨rfl, hp⟩ | ⟨t, rfl, hp⟩ | ⟨t, ts, rfl, hp⟩ := prints_parameters hps rest
    · exact ((hr'.cons hp).node .typeFunNone rfl).alike rfl
    · exact ((hr'.cons hp).node .typeFunOne rfl).alike rfl
    · exact ((hr'.cons hp).node .typeFunMany rfl).alike rfl
  | .foreign _, h, _, _ => h.elim

theorem printsEach : (ts : List TypeExpr) → AreWellFormed ts → ∀ t ∈ ts, ∀ rest, Ends rest →
    Prints (.n .type) false t.source.toList true rest t
  | [], _ => nofun
  | t :: ts, h => List.forall_mem_cons.mpr ⟨t.prints h.1, printsEach ts h.2⟩

end

/-- Among arguments a type that can be told from an expression prints as a type. -/
theorem prints_typeArg : (t : TypeExpr) → t.IsWellFormed → t.IsTelling → (rest : List Char) → Ends rest →
    Prints (.n .typeArg) false t.source.toList true rest t
  | .named name span, _, ht, rest, hr => (prints_primitive ht hr span).last.node .typeArgPrimitive rfl
  | .pointer e span, h, ht, rest, _ => by
    rw [toList_source_pointer]
    by_cases he : ∃ name span, e = .named name span
    · obtain ⟨name, span', rfl⟩ := he
      obtain hp | hn := (h : IsTypeWord name ∨ IsName name)
      · have hw : Prints (.n .primitive) false name.toList true ('*' :: rest) _ :=
          prints_primitive hp (.cons rfl) span'
        exact (((hw.last.node .typeArgPrimitive rfl).cons prints_star).node .typeArgPointer rfl).alike rfl
      · have hw : Prints (.t .name) false name.toList true ('*' :: rest) _ := prints_name hn (.cons rfl)
        refine ((hw.cons prints_star).node .typeArgNamedPointer rfl).alike ?_
        exact congrArg (TypeExpr.pointer · {}) (wordType_token name span')
    · have ht : e.IsTelling := by
        cases e
        case named name span' => exact absurd ⟨name, span', rfl⟩ he
        all_goals exact ht
      have hp := e.prints_typeArg h ht ('*' :: rest) (.cons rfl)
      exact ((hp.cons prints_star).node .typeArgPointer rfl).alike rfl
  | .array e size span, h, ht, rest, _ => by
    rw [toList_source_array]
    have he := e.prints_typeArg h.1 ht ('[' :: (size.source.toList ++ [']']) ++ rest) (.cons rfl)
    exact ((he.cons (prints_size h.2)).node .typeArgArray rfl).alike rfl
  | .func r ps span, h, ht, rest, hr => by
    have hr' := r.prints_typeArg h.1 ht (parameterText ps ++ rest) (.cons rfl)
    have hps := printsEach ps h.2
    rw [toList_source_func]
    obtain ⟨rfl, hp⟩ | ⟨t, rfl, hp⟩ | ⟨t, ts, rfl, hp⟩ := prints_parameters hps rest
    · exact ((hr'.cons hp).node .typeArgFunNone rfl).alike rfl
    · exact ((hr'.cons hp).node .typeArgFunOne rfl).alike rfl
    · exact ((hr'.cons hp).node .typeArgFunMany rfl).alike rfl
  | .foreign _, h, _, _, _ => h.elim

end TypeExpr

namespace Grammar

open Lexeme

/-! ## One more suffix -/

/-- Every suffix can be put behind a chain. -/
def Derivation.Extends : {s : Sym} → Derivation s → Prop
  | .n .chain, d => ∀ x : Derivation (.n .suffix), ∃ d' : Derivation (.n .chain), d'.tokens = d.tokens ++ x.tokens
      ∧ d'.value = x.value.applyTo d.value ∧ (d.fault? = none → x.fault? = none → d'.fault? = none)
  | _, _ => True

/-- A suffix can be put behind every chain. -/
theorem Production.extends (p : Production) (f : Forest p.rhs) : (Derivation.node p f).Extends := by
  cases p
  all_goals try trivial
  case chainName =>
    match f with
    | .cons w .nil =>
      intro x
      refine ⟨.node .chainNameSuffixes (.cons w (.cons (.node .suffixesOne (.cons x .nil)) .nil)), ?_, rfl, ?_⟩
      · simp only [Derivation.tokens, Forest.tokens, List.append_nil]
      · intro hd hx
        have hd := (Derivation.fault?_node .chainName (.cons w .nil) rfl).mp hd
        have hxs := (Derivation.fault?_node .suffixesOne (.cons x .nil) rfl).mpr
        refine (Derivation.fault?_node .chainNameSuffixes _ rfl).mpr ?_
        simp only [Forest.faults_cons, Forest.faults_nil, List.forall_mem_cons] at hd hxs ⊢
        exact ⟨hd.1, hxs ⟨hx, hd.2⟩, hd.2⟩
  case chainBuiltin =>
    match f with
    | .cons w .nil =>
      intro x
      refine ⟨.node .chainBuiltinSuffixes (.cons w (.cons (.node .suffixesOne (.cons x .nil)) .nil)), ?_, rfl, ?_⟩
      · simp only [Derivation.tokens, Forest.tokens, List.append_nil]
      · intro hd hx
        have hd := (Derivation.fault?_node .chainBuiltin (.cons w .nil) rfl).mp hd
        have hxs := (Derivation.fault?_node .suffixesOne (.cons x .nil) rfl).mpr
        refine (Derivation.fault?_node .chainBuiltinSuffixes _ rfl).mpr ?_
        simp only [Forest.faults_cons, Forest.faults_nil, List.forall_mem_cons] at hd hxs ⊢
        exact ⟨hd.1, hxs ⟨hx, hd.2⟩, hd.2⟩
  case chainNameSuffixes =>
    match f with
    | .cons w (.cons xs .nil) =>
      intro x
      refine ⟨.node .chainNameSuffixes (.cons w (.cons (.node .suffixesMore (.cons xs (.cons x .nil))) .nil)), ?_, ?_, ?_⟩
      · simp only [Derivation.tokens, Forest.tokens, List.append_nil, List.append_assoc]
      · exact List.foldl_concat ..
      · intro hd hx
        have hd := (Derivation.fault?_node .chainNameSuffixes (.cons w (.cons xs .nil)) rfl).mp hd
        have hxs := (Derivation.fault?_node .suffixesMore (.cons xs (.cons x .nil)) rfl).mpr
        refine (Derivation.fault?_node .chainNameSuffixes _ rfl).mpr ?_
        simp only [Forest.faults_cons, Forest.faults_nil, List.forall_mem_cons] at hd hxs ⊢
        exact ⟨hd.1, hxs ⟨hd.2.1, hx, hd.2.2⟩, hd.2.2⟩
  case chainBuiltinSuffixes =>
    match f with
    | .cons w (.cons xs .nil) =>
      intro x
      refine ⟨.node .chainBuiltinSuffixes (.cons w (.cons (.node .suffixesMore (.cons xs (.cons x .nil))) .nil)), ?_, ?_,
        ?_⟩
      · simp only [Derivation.tokens, Forest.tokens, List.append_nil, List.append_assoc]
      · exact List.foldl_concat ..
      · intro hd hx
        have hd := (Derivation.fault?_node .chainBuiltinSuffixes (.cons w (.cons xs .nil)) rfl).mp hd
        have hxs := (Derivation.fault?_node .suffixesMore (.cons xs (.cons x .nil)) rfl).mpr
        refine (Derivation.fault?_node .chainBuiltinSuffixes _ rfl).mpr ?_
        simp only [Forest.faults_cons, Forest.faults_nil, List.forall_mem_cons] at hd hxs ⊢
        exact ⟨hd.1, hxs ⟨hd.2.1, hx, hd.2.2⟩, hd.2.2⟩

theorem Derivation.extends (d : Derivation (.n .chain)) : d.Extends :=
  Derivation.induct (P := @Derivation.Extends) (fun _ => trivial) (fun p f _ => p.extends f) d

theorem Suffix.alike_applyTo {e e' : Expr} {x x' : Suffix} (he : e.bare = e'.bare)
    (hx : x.strip false = x'.strip false) : (x.applyTo e).bare = (x'.applyTo e').bare := by
  have h := Suffix.strip_applyTo false false
  show (x.applyTo e).strip (false && false) = (x'.applyTo e').strip (false && false)
  rw [← h e x, ← h e' x', show e.strip false = e'.strip false from he, hx]

variable {before between behind : Bool} {text text' rest : List Char}

/-- A suffix printed behind a chain makes a longer chain. -/
theorem Prints.snoc {e : Expr} {x : Suffix} (h : Prints (.n .chain) before text between (text' ++ rest) e)
    (hx : Prints (.n .suffix) between text' behind rest x) :
    Prints (.n .chain) before (text ++ text') behind rest (x.applyTo e) := by
  intro file pos previous hb
  obtain ⟨d, pos₁, previous₁, hf, hv, hp, hscan⟩ := h file pos previous hb
  obtain ⟨dx, pos₂, previous₂, hfx, hvx, hpx, hscanx⟩ := hx file pos₁ previous₁ hp
  obtain ⟨d', ht, hv', hf'⟩ := d.extends dx
  refine ⟨d', pos₂, previous₂, hf' hf hfx, ?_, hpx, ?_⟩
  · show d'.value.bare = _
    rw [hv']
    exact Suffix.alike_applyTo hv hvx
  · rw [List.append_assoc, hscan, hscanx, Scan.prepend_prepend, ht]

/-! ## Suffixes and lists -/

theorem prints_index {i : Expr} (h : Prints (.n .expr) false text true (']' :: rest) i) (span : Span) :
    Prints (.n .suffix) true ('[' :: (text ++ [']'])) true rest (.index i span) := by
  have hopen : Prints (.t .bracket) true ['['] true (text ++ [']'] ++ rest) _ :=
    prints_touching rfl ⟨rfl, rfl⟩ ⟨rfl, rfl, rfl⟩
  have hclose : Prints (.t .closeBracket) true [']'] true rest _ := prints_mark rfl ⟨rfl, rfl⟩ ⟨rfl, rfl, rfl⟩
  have hindex := (hopen.consChar ((h.anywhere true).cons hclose.last)).node .indexExpr rfl
  exact (hindex.last.node .suffixIndex rfl).alike rfl

/-- An argument between parentheses. -/
theorem prints_callOne {e : Expr} (h : Prints (.n .arg) false text true (')' :: rest) e) (span : Span) :
    Prints (.n .suffix) true ('(' :: (text ++ [')'])) true rest (.call [e] span) := by
  have hopen : Prints (.t .paren) true ['('] true (text ++ [')'] ++ rest) _ :=
    prints_touching rfl ⟨rfl, rfl⟩ ⟨rfl, rfl, rfl⟩
  have hclose : Prints (.t .closeParen) true [')'] true rest _ := prints_mark rfl ⟨rfl, rfl⟩ ⟨rfl, rfl, rfl⟩
  have hone := (hopen.consChar ((h.anywhere true).cons hclose.last)).node .callOne rfl
  exact (hone.last.node .suffixCall rfl).alike rfl

/-- Arguments between parentheses. -/
theorem prints_call {es : List Expr}
    (h : ∀ e ∈ es, ∀ rest, Ends rest → Prints (.n .arg) false e.source.toList true rest e) (rest : List Char)
    (span : Span) :
    Prints (.n .suffix) true ('(' :: (commaText (fun e => e.source.toList) es ++ [')'])) true rest (.call es span) := by
  have hopen : ∀ {rest : List Char}, Prints (.t .paren) true ['('] true rest (token .paren ['(']) :=
    prints_touching rfl ⟨rfl, rfl⟩ ⟨rfl, rfl, rfl⟩
  have hclose : Prints (.t .closeParen) true [')'] true rest _ := prints_mark rfl ⟨rfl, rfl⟩ ⟨rfl, rfl, rfl⟩
  match es with
  | [] =>
    have hnone := (hopen.consChar hclose.last).node .callNone rfl
    exact (hnone.last.node .suffixCall rfl).alike rfl
  | [e] => exact prints_callOne (h e List.mem_cons_self (')' :: rest) (.cons rfl)) span
  | e :: e' :: es =>
    have he := h e List.mem_cons_self
      (((e' :: es).flatMap fun e => ',' :: ' ' :: e.source.toList) ++ [')'] ++ rest) (Ends.cons (c := ',') rfl)
    have hes := prints_commas (I := fun text rest e => Prints (.n .arg) false text true rest e)
      (L := fun text rest es => Prints (.n .args) true text true rest es)
      (fun h => (prints_comma h).node .argsOne rfl) (fun hl h => (hl.cons (prints_comma h)).node .argsMore rfl)
      (fun e => e.source.toList) (List.cons_ne_nil e' es) (show Ends (')' :: rest) from .cons rfl)
      fun e he => h e (List.mem_cons_of_mem _ he)
    rw [commaText_cons_cons, List.append_assoc]
    have hmany := (hopen.consChar ((he.anywhere true).cons (hes.cons hclose.last))).node .callMany rfl
    exact (hmany.last.node .suffixCall rfl).alike rfl

/-- Elements of a composite literal between brackets. -/
theorem prints_composite {es : List Expr}
    (h : ∀ e ∈ es, ∀ rest, Ends rest → Prints (.n .expr) false e.source.toList true rest e) (rest : List Char)
    (info : Info) :
    Prints (.n .composite) before ('[' :: (commaText (fun e => e.source.toList) es ++ [']'])) true rest
      (.composite es info) := by
  have hclose : Prints (.t .closeBracket) true [']'] true rest _ := prints_mark rfl ⟨rfl, rfl⟩ ⟨rfl, rfl, rfl⟩
  have halike : ∀ opener close, (compositeLiteral opener es close).bare = (Expr.composite es info).bare :=
    fun _ _ => rfl
  match es with
  | [] => exact ((prints_opener.consChar hclose.last).node .compositeNone rfl).alike (halike _ _)
  | [e] =>
    have he := h e List.mem_cons_self (']' :: rest) (.cons rfl)
    exact ((prints_opener.consChar ((he.anywhere true).cons hclose.last)).node .compositeOne rfl).alike (halike _ _)
  | e :: e' :: es =>
    have he := h e List.mem_cons_self
      (((e' :: es).flatMap fun e => ',' :: ' ' :: e.source.toList) ++ [']'] ++ rest) (Ends.cons (c := ',') rfl)
    have hes := prints_commas (I := fun text rest e => Prints (.n .expr) false text true rest e)
      (L := fun text rest es => Prints (.n .exprs) true text true rest es)
      (fun h => (prints_comma h).node .exprsOne rfl) (fun hl h => (hl.cons (prints_comma h)).node .exprsMore rfl)
      (fun e => e.source.toList) (List.cons_ne_nil e' es) (show Ends (']' :: rest) from .cons rfl)
      fun e he => h e (List.mem_cons_of_mem _ he)
    rw [commaText_cons_cons, List.append_assoc]
    exact ((prints_opener.consChar ((he.anywhere true).cons (hes.cons hclose.last))).node .compositeMany rfl).alike
      (halike _ _)

end Grammar

namespace Expr

open Grammar Lexeme

theorem IsWellFormed.isTypeArg {e : Expr} (h : e.IsWellFormed) : isTypeArg e = false := by
  cases e
  case typeArg => exact h.elim
  all_goals rfl

theorem sources_eq_map (es : List Expr) : sources es = es.map source := by
  induction es with
  | nil => rfl
  | cons e es ih => rw [sources, ih, List.map_cons]

/-! ## Texts -/

theorem toList_source_index (b i : Expr) (info : Info) :
    (index b i info).source.toList = b.source.toList ++ '[' :: (i.source.toList ++ [']']) := by
  rw [source, String.toList_append, String.toList_append, String.toList_append, List.append_assoc, List.append_assoc]
  rfl

theorem toList_source_call (c : Expr) (args : List Expr) (info : Info) :
    (call c args info).source.toList
      = c.source.toList ++ '(' :: (commaText (fun e => e.source.toList) args ++ [')']) := by
  rw [source, sources_eq_map, String.toList_append, String.toList_append, String.toList_append, toList_intercalate,
    List.append_assoc, List.append_assoc]
  rfl

theorem toList_source_composite (es : List Expr) (info : Info) :
    (composite es info).source.toList = '[' :: (commaText (fun e => e.source.toList) es ++ [']']) := by
  rw [source, sources_eq_map, String.toList_append, String.toList_append, toList_intercalate, List.append_assoc]
  rfl

theorem toList_source_addrOf (t : Expr) (info : Info) :
    (addrOf t info).source.toList = SpecialForm.addr.name.toList ++ '(' :: (t.source.toList ++ [')']) := by
  rw [source, String.toList_append, String.toList_append, List.append_assoc]
  rfl

/-! ## Expressions -/

variable {rest : List Char}

theorem nameExpr_token (name : String) (kind : Kind) (symbol : Option Symbol) (info : Info) :
    (nameExpr (token kind name.toList)).bare = (ident name symbol info).bare := by
  rw [nameExpr, token, String.ofList_toList]
  rfl

theorem prints_ident {name : String} (h : IsName name ∨ IsBuiltin name) (hr : Ends rest) (symbol : Option Symbol)
    (info : Info) : Prints (.n .chain) false name.toList true rest (ident name symbol info) := by
  obtain hn | hb := h
  · have h : Prints (.t .name) false name.toList true rest _ := prints_name hn hr
    exact (h.last.node .chainName rfl).alike (nameExpr_token name .name symbol info)
  · have h : Prints (.t .builtin) false name.toList true rest _ := prints_builtin hb hr
    exact (h.last.node .chainBuiltin rfl).alike (nameExpr_token name .builtin symbol info)

theorem prints_int (z : Int) (info : Info) (hr : Ends rest) :
    Prints (.n .literal) false (toString z).toList true rest (int z info) := by
  refine ((prints_integer z hr).last.node .literalInt rfl).alike ?_
  exact congrArg (int · {}) (intValue_token z)

theorem prints_real {x : Binary64} (hx : x.isFinite = true) (info : Info) (hr : Ends rest) :
    Prints (.n .literal) false x.text.toList true rest (real x info) := by
  refine ((Grammar.prints_real hx hr).last.node .literalReal rfl).alike ?_
  exact congrArg (real · {}) (realValue_of_lexeme hx String.ofList_toList)

theorem prints_byte {n : Int} (hn : 0 ≤ n ∧ n ≤ 255) (info : Info) (hr : Ends rest) :
    Prints (.n .literal) false ((toString n).toList ++ ['b']) true rest (byte n info) := by
  refine ((Grammar.prints_byte hn hr).last.node .literalByte rfl).alike ?_
  exact congrArg (byte · {}) (byteValue_of_lexeme hn.1 String.toList_ofList)

theorem toList_source_byte (n : Int) (info : Info) : (byte n info).source.toList = (toString n).toList ++ ['b'] := by
  rw [source, String.toList_append]
  rfl

/-- An expression prints as itself, and as a chain if a suffix can be put behind it. -/
def PrintsBack (e : Expr) : Prop :=
  ∀ rest, Ends rest → Prints (.n .expr) false e.source.toList true rest e
    ∧ (e.IsChain → Prints (.n .chain) false e.source.toList true rest e)

theorem printsBack_of_chain {e : Expr}
    (h : ∀ rest, Ends rest → Prints (.n .chain) false e.source.toList true rest e) : e.PrintsBack :=
  fun rest hr => ⟨((h rest hr).last.node .exprChain rfl).alike rfl, fun _ => h rest hr⟩

theorem printsBack_of_literal {e : Expr} (hc : ¬e.IsChain)
    (h : ∀ rest, Ends rest → Prints (.n .literal) false e.source.toList true rest e) : e.PrintsBack :=
  fun rest hr => ⟨((h rest hr).last.node .exprLiteral rfl).alike rfl, fun hchain => absurd hchain hc⟩

theorem isBuiltin_addr : IsBuiltin SpecialForm.addr.name := rfl

theorem IsTypeArgument.prints {e : Expr} (h : e.IsTypeArgument) (rest : List Char) (hr : Ends rest) :
    Prints (.n .arg) false e.source.toList true rest e := by
  cases e
  case typeArg t info => exact ((t.prints_typeArg h.1 h.2 rest hr).last.node .argType rfl).alike rfl
  all_goals exact h.elim

mutual

/-- A well-formed expression prints as an expression. -/
theorem prints : (e : Expr) → e.IsWellFormed → e.PrintsBack
  | .int z info, _ => printsBack_of_literal id fun _ hr => prints_int z info hr
  | .real x info, h => printsBack_of_literal id fun _ hr => prints_real h info hr
  | .byte n info, h => printsBack_of_literal id fun _ hr => by
    rw [toList_source_byte]
    exact prints_byte h info hr
  | .ident name symbol info, h => printsBack_of_chain fun _ hr => prints_ident h hr symbol info
  | .index b i info, h => printsBack_of_chain fun rest _ => by
    have hb := (b.prints h.2.1 ('[' :: (i.source.toList ++ [']']) ++ rest) (.cons rfl)).2 h.1
    have hi := (i.prints h.2.2 (']' :: rest) (.cons rfl)).1
    rw [toList_source_index]
    exact (hb.snoc (prints_index hi {})).alike rfl
  | .call c args info, h => printsBack_of_chain fun rest _ => by
    have hc := (c.prints h.2.1 ('(' :: (commaText (fun e => e.source.toList) args ++ [')']) ++ rest) (.cons rfl)).2 h.1
    have hargs := prints_call (printsArguments args h.2.2.1) rest {}
    have hcall := hc.snoc hargs
    rw [Suffix.applyTo_call h.2.2.2] at hcall
    rw [toList_source_call]
    exact hcall.alike rfl
  | .composite es info, h => fun rest _ => by
    have hes : Prints (.n .composite) false _ true rest _ := prints_composite (printsElements es h) rest info
    rw [toList_source_composite]
    exact ⟨(hes.last.node .exprComposite rfl).alike rfl, fun hc => hc.elim⟩
  | .addrOf t info, h => printsBack_of_chain fun rest _ => by
    have hends : Ends ('(' :: (t.source.toList ++ [')']) ++ rest) := .cons rfl
    have hname := prints_ident (.inr isBuiltin_addr) hends none {}
    have harg : ∀ e ∈ [t], ∀ rest, Ends rest → Prints (.n .arg) false e.source.toList true rest e :=
      List.forall_mem_singleton.mpr fun rest hr => ((t.prints h rest hr).1.last.node .argExpr rfl).alike rfl
    have haddr := hname.snoc (prints_call harg rest {})
    have happly : Suffix.applyTo (ident SpecialForm.addr.name none {}) (.call [t] {})
        = addrOf t { span := .join {} {} } := by
      show (if SpecialForm.addr.name = SpecialForm.addr.name ∧ !isTypeArg t then _ else _) = _
      have ht : t.IsWellFormed := h
      rw [if_pos ⟨rfl, by rw [ht.isTypeArg]; rfl⟩]
      rfl
    rw [happly] at haddr
    rw [toList_source_addrOf]
    exact haddr.alike rfl
  | .field .., h | .typeArg .., h | .foreign _, h => h.elim

theorem printsElements : (es : List Expr) → AreWellFormed es → ∀ e ∈ es, ∀ rest, Ends rest →
    Prints (.n .expr) false e.source.toList true rest e
  | [], _ => nofun
  | e :: es, h => List.forall_mem_cons.mpr ⟨fun rest hr => (e.prints h.1 rest hr).1, printsElements es h.2⟩

theorem printsArguments : (es : List Expr) → AreArguments es → ∀ e ∈ es, ∀ rest, Ends rest →
    Prints (.n .arg) false e.source.toList true rest e
  | [], _ => nofun
  | e :: es, ⟨.inl h, hs⟩ =>
    List.forall_mem_cons.mpr ⟨fun rest hr => ((e.prints h rest hr).1.last.node .argExpr rfl).alike rfl,
      printsArguments es hs⟩
  | _ :: es, ⟨.inr h, hs⟩ => List.forall_mem_cons.mpr ⟨h.prints, printsArguments es hs⟩

end

end Expr

end FlatScope
