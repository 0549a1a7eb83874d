/-
  Texts of phrases. A text prints a phrase if the scanner finds in it, in front of a given rest, the tokens of a
  derivation of the phrase (`Prints`). Texts are put together as the right-hand sides of rules are: `Prints.cons`
  and `Prints.node` follow `Forest.cons` and `Derivation.node`. Whether a text may touch the token before it, and
  whether it ends in a token or in a gap, is kept beside it, because openers and stars depend on it.
-/
import FlatScope.Proofs.Grammar.Alike
import FlatScope.Proofs.Number.Text
import FlatScope.Proofs.Token.Scan
import FlatScope.Proofs.Tree.WellFormed

namespace FlatScope.Grammar

open Lexeme Scan

/-! ## Printing -/

/-- The token before ends at a place. Nothing is known of it unless `touching`. -/
def Follows (touching : Bool) (previous : Option Nat) (pos : Position) : Prop :=
  touching = true → previous = some pos.offset

/-- A text, in front of a rest, prints a phrase that is read as a value like `v`. The text starts behind a token if
`before`, and ends in one if `behind`. -/
def Prints (s : Sym) (before : Bool) (text : List Char) (behind : Bool) (rest : List Char) (v : s.Value) : Prop :=
  ∀ (file : Option String) (pos : Position) (previous : Option Nat), Follows before previous pos →
    ∃ (d : Derivation s) (pos' : Position) (previous' : Option Nat),
      d.fault? = none ∧ s.Alike d.value v ∧ Follows behind previous' pos' ∧
        scanFrom file pos previous (text ++ rest) = (scanFrom file pos' previous' rest).prepend d.tokens

/-- A text prints several phrases one after another. -/
def PrintsAll (ss : List Sym) (before : Bool) (text : List Char) (behind : Bool) (rest : List Char) (vs : Values ss) :
    Prop :=
  ∀ (file : Option String) (pos : Position) (previous : Option Nat), Follows before previous pos →
    ∃ (f : Forest ss) (pos' : Position) (previous' : Option Nat),
      (∀ fault ∈ f.faults, fault = none) ∧ Values.Alike f.values vs ∧ Follows behind previous' pos' ∧
        scanFrom file pos previous (text ++ rest) = (scanFrom file pos' previous' rest).prepend f.tokens

variable {s : Sym} {ss : List Sym} {before between behind : Bool} {text text' rest : List Char} {v w : s.Value}
  {vs : Values ss}

theorem follows_false (previous : Option Nat) (pos : Position) : Follows false previous pos := nofun

theorem Prints.alike (h : Prints s before text behind rest v) (hv : s.Alike v w) :
    Prints s before text behind rest w := by
  intro file pos previous hb
  obtain ⟨d, pos', previous', hf, hd, hp, hs⟩ := h file pos previous hb
  exact ⟨d, pos', previous', hf, hd.trans hv, hp, hs⟩

/-- What prints a phrase anywhere prints it behind a token. -/
theorem Prints.anywhere (h : Prints s false text behind rest v) (before : Bool) : Prints s before text behind rest v :=
  fun file pos previous _ => h file pos previous (follows_false previous pos)

theorem PrintsAll.nil : PrintsAll [] before [] before rest () := by
  intro file pos previous hb
  have hfaults : ∀ fault ∈ Forest.nil.faults, fault = none := by
    rw [Forest.faults]
    exact List.forall_mem_nil _
  refine ⟨.nil, pos, previous, hfaults, trivial, hb, ?_⟩
  rw [List.nil_append, Forest.tokens, prepend_nil]

/-- A text of a phrase in front of texts of others. -/
theorem Prints.cons (h : Prints s before text between (text' ++ rest) v)
    (hs : PrintsAll ss between text' behind rest vs) : PrintsAll (s :: ss) before (text ++ text') behind rest (v, vs) := by
  intro file pos previous hb
  obtain ⟨d, pos₁, previous₁, hf, hv, hp, hscan⟩ := h file pos previous hb
  obtain ⟨f, pos₂, previous₂, hfs, hvs, hp₂, hscan₂⟩ := hs file pos₁ previous₁ hp
  refine ⟨.cons d f, pos₂, previous₂, List.forall_mem_cons.mpr ⟨hf, hfs⟩, ⟨hv, hvs⟩, hp₂, ?_⟩
  rw [List.append_assoc, hscan, hscan₂, prepend_prepend]
  rfl

/-- A single character in front of texts of phrases. -/
theorem Prints.consChar {c : Char} (h : Prints s before [c] between (text' ++ rest) v)
    (hs : PrintsAll ss between text' behind rest vs) : PrintsAll (s :: ss) before (c :: text') behind rest (v, vs) :=
  h.cons hs

/-- A text of a phrase alone. -/
theorem Prints.last (h : Prints s before text behind rest v) : PrintsAll [s] before text behind rest (v, ()) := by
  have hs : PrintsAll [s] before (text ++ []) behind rest (v, ()) := h.cons PrintsAll.nil
  rwa [List.append_nil] at hs

/-- A rule makes a phrase of its parts, unless it has a complaint about them. -/
theorem PrintsAll.node_of (p : Production) {vs : Values p.rhs} (h : PrintsAll p.rhs before text behind rest vs)
    (hf : ∀ f : Forest p.rhs, f.values.Alike vs → (∀ fault ∈ f.faults, fault = none) → p.fault? f f.faults = none) :
    Prints (.n p.lhs) before text behind rest (p.read vs) := by
  intro file pos previous hb
  obtain ⟨f, pos', previous', hfs, hvs, hp, hs⟩ := h file pos previous hb
  exact ⟨.node p f, pos', previous', hf f hvs hfs, p.alike_read hvs, hp, hs⟩

/-- Most rules have no complaints of their own. -/
def Production.isQuiet : Production → Bool
  | .assignTo | .callChain => false
  | _ => true

theorem Production.fault?_eq_none (p : Production) (hp : p.isQuiet = true) (f : Forest p.rhs)
    (faults : List (Option SourceError)) : p.fault? f faults = none ↔ ∀ fault ∈ faults, fault = none := by
  have hall : ∀ faults : List (Option SourceError), faults.findSome? id = none ↔ ∀ fault ∈ faults, fault = none :=
    fun faults => List.findSome?_eq_none_iff
  cases p
  case assignTo | callChain => cases hp
  case typeArray | typeArgArray =>
    refine (hall faults.reverse).trans ?_
    simp only [List.mem_reverse]
  all_goals exact hall faults

theorem Derivation.fault?_node (p : Production) (f : Forest p.rhs) (hp : p.isQuiet = true) :
    (Derivation.node p f).fault? = none ↔ ∀ fault ∈ f.faults, fault = none := by
  rw [Derivation.fault?, p.fault?_eq_none hp]

theorem Forest.faults_cons (d : Derivation s) (f : Forest ss) : (Forest.cons d f).faults = d.fault? :: f.faults := by
  rw [Forest.faults]

theorem Forest.faults_nil : Forest.nil.faults = [] := by
  rw [Forest.faults]

theorem PrintsAll.node (p : Production) {vs : Values p.rhs} (h : PrintsAll p.rhs before text behind rest vs)
    (hp : p.isQuiet = true) :
    Prints (.n p.lhs) before text behind rest (p.read vs) :=
  h.node_of p fun f _ hf => (p.fault?_eq_none hp f f.faults).mpr hf

/-! ## Gaps -/

/-- A text of nothing but white space. -/
def IsGap (text : List Char) : Prop := ∀ c ∈ text, isSpace c = true

theorem scanFrom_append_gap {gap : List Char} (h : IsGap gap) (file : Option String) (pos : Position)
    (previous : Option Nat) (rest : List Char) :
    scanFrom file pos previous (gap ++ rest) = scanFrom file (pos.after gap) previous rest := by
  induction gap generalizing pos with
  | nil => rfl
  | cons c gap ih =>
    obtain ⟨hc, hgap⟩ := List.forall_mem_cons.mp h
    rw [List.cons_append, scanFrom_space hc, ih hgap, Position.after_cons]

/-- White space in front of a text that needs not touch anything. -/
theorem Prints.indented {gap : List Char} (hg : IsGap gap) (h : Prints s false text behind rest v) (before : Bool) :
    Prints s before (gap ++ text) behind rest v := by
  intro file pos previous _
  obtain ⟨d, pos', previous', hd⟩ := h file (pos.after gap) previous (follows_false _ _)
  rw [List.append_assoc, scanFrom_append_gap hg]
  exact ⟨d, pos', previous', hd⟩

/-- White space behind a text. -/
theorem Prints.spaced {gap : List Char} (hg : IsGap gap) (h : Prints s before text behind (gap ++ rest) v) :
    Prints s before (text ++ gap) false rest v := by
  intro file pos previous hb
  obtain ⟨d, pos', previous', hf, hv, -, hs⟩ := h file pos previous hb
  refine ⟨d, pos'.after gap, previous', hf, hv, follows_false _ _, ?_⟩
  rw [List.append_assoc, hs, scanFrom_append_gap hg]

/-! ## Tokens -/

/-- A token of a kind and with a text, nowhere in particular. -/
def token (kind : Kind) (text : List Char) : Token := { kind, lexeme := String.ofList text, start := {}, stop := {} }

theorem exists_leaf_value {kind : Kind} (t : Token) (h : t.kind = kind) :
    ∃ d : Derivation (.t kind), d.tokens = [t] ∧ d.value = t ∧ d.fault? = literalFault? t := by
  subst h
  exact ⟨.leaf t, rfl, rfl, rfl⟩

/-- A text that the scanner finds as one lexeme is scanned as a token. -/
theorem exists_token {kind found : Kind} (hfirst : first (text ++ rest) = some (found, text.length))
    (hgap : found.isGap = false)
    (hrange : ∀ t : Token, t.kind = kind → t.lexeme = String.ofList text → t.fault? = none)
    (file : Option String) {pos : Position} {previous : Option Nat} (hk : kindAfter previous pos found = kind) :
    ∃ d : Derivation (.t kind), d.fault? = none ∧ (Sym.t kind).Alike d.value (token kind text) ∧
      scanFrom file pos previous (text ++ rest)
        = (scanFrom file (pos.after text) (some (pos.after text).offset) rest).prepend d.tokens := by
  have hspells : kind.Spells text := by
    have hs := spells_of_first hfirst hgap
    rw [List.take_left] at hs
    rw [← hk]
    unfold kindAfter
    split
    · exact hs.touching
    · exact hs
  have hr := hrange (tokenAt file pos (kindAfter previous pos found) text) hk rfl
  have hl : (tokenAt file pos (kindAfter previous pos found) text).literalFault? = none := by
    refine Token.literalFault?_eq_none ?_
    unfold Token.IsSpelled tokenAt
    rw [String.toList_ofList, hk]
    exact hspells
  obtain ⟨d, ht, hv, hd⟩ := exists_leaf_value (tokenAt file pos (kindAfter previous pos found) text) hk
  refine ⟨d, ?_, ?_, ?_⟩
  · rw [hd, literalFault?, hl]
    rfl
  · show d.value.unplaced = Token.unplaced (token kind text)
    rw [hv, ← hk]
    rfl
  · rw [ht]
    exact scanFrom_token hfirst hgap hr

/-- A text that the scanner finds as one lexeme prints a token: of the kind it is found as, or of the touching form of
this kind where it touches the token before. -/
theorem prints_token {kind found : Kind} (hfirst : first (text ++ rest) = some (found, text.length))
    (hgap : found.isGap = false)
    (hkind : found = kind ∧ found.touching = kind ∨ before = true ∧ found.touching = kind)
    (hrange : ∀ t : Token, t.kind = kind → t.lexeme = String.ofList text → t.fault? = none) :
    Prints (.t kind) before text true rest (token kind text) := by
  intro file pos previous hb
  have hk : kindAfter previous pos found = kind := by
    unfold kindAfter
    obtain ⟨hs, ht⟩ | ⟨rfl, ht⟩ := hkind
    · split
      · exact ht
      · exact hs
    · rw [if_pos (hb rfl)]
      exact ht
  obtain ⟨d, hf, hv, hs⟩ := exists_token hfirst hgap hrange file hk
  exact ⟨d, _, _, hf, hv, fun _ => rfl, hs⟩

/-- A kind of tokens whose values have a range. -/
def isRanged (kind : Kind) : Bool :=
  match kind with
  | .real | .byte | .char => true
  | _ => false

/-- Only values that have a range can be out of it. -/
theorem fault?_of_not_isRanged {t : Token} (h : isRanged t.kind = false) : t.fault? = none := by
  unfold Token.fault?
  unfold isRanged at h
  cases hk : t.kind
  case real | byte | char =>
    rw [hk] at h
    cases h
  all_goals rfl

theorem prints_unranged {kind : Kind} (hfirst : first (text ++ rest) = some (kind, text.length))
    (hk : kind.isGap = false ∧ kind.touching = kind ∧ isRanged kind = false) :
    Prints (.t kind) before text true rest (token kind text) := by
  obtain ⟨hg, ht, hl⟩ := hk
  refine prints_token hfirst hg (.inl ⟨rfl, ht⟩) fun t htk _ => fault?_of_not_isRanged ?_
  rw [htk]
  exact hl

/-! ## Words -/

theorem keyword_unranged {s : String} {kind : Kind} (h : Kind.ofKeyword? s = some kind) :
    kind.isGap = false ∧ kind.touching = kind ∧ isRanged kind = false := by
  unfold Kind.ofKeyword? at h
  split at h <;> cases h <;> decide

theorem prints_keyword {kind : Kind} (hw : IsWord text) (hk : Kind.ofKeyword? (String.ofList text) = some kind)
    (hr : Ends rest) : Prints (.t kind) before text true rest (token kind text) := by
  have hfirst := first_word hw hr.word
  rw [wordKind, hk] at hfirst
  exact prints_unranged hfirst (keyword_unranged hk)

theorem prints_name {name : String} (hn : IsName name) (hr : Ends rest) :
    Prints (.t .name) before name.toList true rest (token .name name.toList) := by
  obtain ⟨hs, hk⟩ := hn
  have hw : IsWord name.toList := by simpa using word?_spelled hs
  have hfirst := first_word hw hr.word
  rw [wordKind, String.ofList_toList, hk] at hfirst
  exact prints_unranged hfirst ⟨rfl, rfl, rfl⟩

theorem prints_builtin {name : String} (hn : IsBuiltin name) (hr : Ends rest) :
    Prints (.t .builtin) before name.toList true rest (token .builtin name.toList) := by
  obtain ⟨xs, hx, hw⟩ := builtin?_spelled hn
  rw [List.take_length] at hx
  rw [hx]
  exact prints_unranged (first_builtin hw hr.word) ⟨rfl, rfl, rfl⟩

/-! ## Marks -/

/-- A mark, except for openers and stars. -/
theorem prints_mark {c : Char} {cs : List Char} {kind : Kind}
    (hm : mark? (c :: cs ++ rest) = some (kind, (c :: cs).length))
    (hc : isPlain c = true ∧ isSpace c = false)
    (hk : kind.isGap = false ∧ kind.touching = kind ∧ isRanged kind = false) :
    Prints (.t kind) before (c :: cs) true rest (token kind (c :: cs)) :=
  prints_unranged ((first_mark hc.1 hc.2).trans hm) hk

/-- An opener or a star that touches the token before it. -/
theorem prints_touching {c : Char} {found kind : Kind} (hm : mark? ([c] ++ rest) = some (found, 1))
    (hc : isPlain c = true ∧ isSpace c = false)
    (hk : found.isGap = false ∧ found.touching = kind ∧ isRanged kind = false) :
    Prints (.t kind) true [c] true rest (token kind [c]) := by
  refine prints_token ((first_mark hc.1 hc.2).trans hm) hk.1 (.inr ⟨rfl, hk.2.1⟩) fun t ht _ => fault?_of_not_isRanged ?_
  rw [ht]
  exact hk.2.2

/-- An opening bracket, whether or not it touches the token before it. -/
theorem prints_opener : Prints (.n .opener) before ['['] true rest (blankToken .bracket) := by
  intro file pos previous _
  by_cases hp : previous = some pos.offset
  · have h : Prints (.t .bracket) true ['['] true rest _ := prints_touching rfl ⟨rfl, rfl⟩ ⟨rfl, rfl, rfl⟩
    have ho : Prints (.n .opener) true ['['] true rest _ := h.last.node .openAdjacent rfl
    exact ho file pos previous fun _ => hp
  · have hk : kindAfter previous pos .spacedBracket = .spacedBracket := if_neg hp
    have hfirst : first (['['] ++ rest) = some (.spacedBracket, ['['].length) := first_mark rfl rfl
    obtain ⟨d, hf, -, hs⟩ := exists_token hfirst rfl
      (fun t ht _ => fault?_of_not_isRanged (by rw [ht]; rfl)) file hk
    have hfaults : ∀ fault ∈ (Forest.cons d .nil).faults, fault = none := by
      rw [Forest.faults_cons, Forest.faults_nil]
      exact List.forall_mem_singleton.mpr hf
    have hfault := (Derivation.fault?_node .openSpaced (.cons d .nil) rfl).mpr hfaults
    refine ⟨.node .openSpaced (.cons d .nil), pos.after ['['], some (pos.after ['[']).offset, hfault, rfl,
      fun _ => rfl, ?_⟩
    rw [hs, Derivation.tokens, Forest.tokens, Forest.tokens, List.append_nil]

/-! ## Numbers -/

theorem prints_integer (z : Int) (hr : Ends rest) :
    Prints (.t .integer) before (toString z).toList true rest (token .integer (toString z).toList) :=
  prints_unranged (first_integer (Decimal.isInteger_toString z).1 hr) ⟨rfl, rfl, rfl⟩

theorem intValue_token (z : Int) : (token .integer (toString z).toList).intValue = z := by
  obtain ⟨hi, hz⟩ := Decimal.isInteger_toString z
  have hl : (token .integer (toString z).toList).lexeme.toList = (toString z).toList := String.toList_ofList
  rw [Token.intValue, Token.readInt_of_isInteger (by rw [hl]; exact hi), hl, hz]
  rfl

theorem realValue_of_lexeme {t : Token} {x : Binary64} (hx : x.isFinite = true) (ht : t.lexeme = x.text) : t.realValue = x := by
  rw [Token.realValue, Token.readReal, ht, x.text_reads hx |>.2]
  rfl

theorem prints_real {x : Binary64} (hx : x.isFinite = true) (hr : Ends rest) :
    Prints (.t .real) before x.text.toList true rest (token .real x.text.toList) := by
  refine prints_token (first_real (x.text_reads hx).1 hr) rfl (.inl ⟨rfl, rfl⟩) fun t hk ht => ?_
  rw [String.ofList_toList] at ht
  rw [Token.fault?, hk]
  show (if t.realValue.isFinite then none else _) = none
  rw [realValue_of_lexeme hx ht, hx]
  rfl

theorem byteValue_of_lexeme {t : Token} {n : Int} (hn : 0 ≤ n) (ht : t.lexeme.toList = (toString n).toList ++ ['b']) :
    t.byteValue = n := by
  obtain ⟨m, rfl⟩ := Int.eq_ofNat_of_zero_le hn
  have hd : Decimal.isDigits (toString (m : Int)).toList = true := Decimal.isDigits_toString m
  rw [Token.byteValue, Token.readByte_of_isByte ht hd, (Decimal.isInteger_toString m).2]
  rfl

theorem prints_byte {n : Int} (hn : 0 ≤ n ∧ n ≤ 255) (hr : Ends rest) :
    Prints (.t .byte) before ((toString n).toList ++ ['b']) true rest (token .byte ((toString n).toList ++ ['b'])) := by
  have hd : Decimal.isDigits (toString n).toList = true := by
    obtain ⟨m, rfl⟩ := Int.eq_ofNat_of_zero_le hn.1
    exact Decimal.isDigits_toString m
  refine prints_token (first_byte (.intro hd) hr.word) rfl (.inl ⟨rfl, rfl⟩) fun t hk ht => ?_
  have hl : t.lexeme.toList = (toString n).toList ++ ['b'] := by rw [ht, String.toList_ofList]
  rw [Token.fault?, hk]
  show (if t.byteValue ≤ 255 then none else _) = none
  rw [byteValue_of_lexeme hn.1 hl, if_pos hn.2]

/-! ## Lists -/

/-- A comma and a space in front of a phrase. -/
theorem prints_comma (h : Prints s false text behind rest v) :
    PrintsAll [.t .comma, s] before (',' :: ' ' :: text) behind rest (token .comma [','], v, ()) := by
  have hgap : IsGap [' '] := List.forall_mem_singleton.mpr rfl
  exact Prints.consChar (prints_mark rfl ⟨rfl, rfl⟩ ⟨rfl, rfl, rfl⟩) (h.indented hgap true).last

/-- Phrases behind commas, if a phrase behind one comma is such a list, and a phrase behind a comma behind such a list
is one. `I` and `L` say what prints an item and a list. -/
theorem prints_commas {α : Type} {I : List Char → List Char → α → Prop} {L : List Char → List Char → List α → Prop}
    (one : ∀ {text rest a}, I text rest a → L (',' :: ' ' :: text) rest [a])
    (more : ∀ {texts text rest as a}, L texts (',' :: ' ' :: text ++ rest) as → I text rest a →
      L (texts ++ ',' :: ' ' :: text) rest (as ++ [a]))
    (print : α → List Char) {as : List α} (hne : as ≠ []) {rest : List Char} (hr : Ends rest)
    (h : ∀ a ∈ as, ∀ rest, Ends rest → I (print a) rest a) :
    L (as.flatMap fun a => ',' :: ' ' :: print a) rest as := by
  induction as using List.reverseRecOn generalizing rest with
  | nil => exact absurd rfl hne
  | append_singleton as a ih =>
    have ha := h a (List.mem_append_right _ List.mem_cons_self) rest hr
    obtain rfl | hne := eq_or_ne as []
    · have hone := one ha
      rwa [List.nil_append, List.flatMap_singleton]
    · rw [List.flatMap_append, List.flatMap_singleton]
      exact more (ih hne (.cons rfl) fun b hb => h b (List.mem_append_left _ hb)) ha

/-- The text of a list with commas, item by item. -/
def commaText {α : Type} (print : α → List Char) : List α → List Char
  | [] => []
  | [a] => print a
  | a :: as => print a ++ as.flatMap fun a => ',' :: ' ' :: print a

theorem commaText_cons_cons {α : Type} (print : α → List Char) (a b : α) (as : List α) :
    commaText print (a :: b :: as) = print a ++ (b :: as).flatMap fun a => ',' :: ' ' :: print a := rfl

theorem toList_intercalate {α : Type} (print : α → String) (as : List α) :
    (", ".intercalate (as.map print)).toList = commaText (fun a => (print a).toList) as := by
  have htail : ∀ (a : α) (as : List α), (", ".intercalate ((a :: as).map print)).toList
      = (print a).toList ++ as.flatMap fun a => ',' :: ' ' :: (print a).toList := by
    intro a as
    induction as generalizing a with
    | nil => rw [List.map_singleton, String.intercalate_singleton, List.flatMap_nil, List.append_nil]
    | cons b as ih =>
      rw [List.map_cons, List.map_cons, String.intercalate_cons_cons, ← List.map_cons, String.toList_append,
        String.toList_append, ih, List.append_assoc]
      rfl
  match as with
  | [] => rfl
  | [a] => rw [List.map_singleton, String.intercalate_singleton, commaText]
  | a :: b :: as => exact htail a (b :: as)

end FlatScope.Grammar
