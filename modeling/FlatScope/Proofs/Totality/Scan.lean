/-
  Parse trees, internal errors, and scanning that may end in one. The rules of a derivation are seen here as the nodes of a tree
  without types, whose nodes are told apart by labels only. A rule that merely passes on what it is given leaves no node, and
  the marks that say nothing behind the grammar leave no token. So whether a node has the parts that are asked of it is no
  longer known from its type.

  What is total in this library by a value to go on with, by a type, or by leaving a list as it is, can be written so that it
  gives up instead: where a literal has no value, where a node of a parse tree is of another class than it should be, where a
  name is looked up that is not there, where a scope is opened inside another. Such a run says with a `Breach` why it gave up.
  The modules beside this one write down the guarded runs and show that none of them gives up on a source
  (`Program.resolve_guarded`); this one does so for the scanner.
-/
import FlatScope.Catalog
import FlatScope.Grammar.Derivation
import FlatScope.Proofs.Token.Tiling
import FlatScope.Tree.Misplaced

namespace FlatScope

/-- A token of the kind is kept in a parse tree. Those are dropped whose code begins with an underscore. -/
@[simp] def Kind.isKept : Kind → Bool
  | assign | comma | semicolon | openBrace | closeBrace | closeBracket | closeParen => false
  | _ => true

namespace Grammar

/-- What the node of a parse tree is called. -/
inductive Label
  | start
  | constDecl | constRef | varDecl | structDecl | funDecl | param
  | primType | namedType | namedPointerType | pointerType | arrayType | functionType | arraySize
  | block | assignStmt | callStmt | ifStmt | whileStmt | breakStmt | continueStmt | labelStmt | gotoStmt
  | chain | indexSuffix | callSuffix | composite
  | intLit | floatLit | byteLit | charLit
deriving DecidableEq, Repr

/-- A node of the label is a type. -/
def Label.isType : Label → Bool
  | primType | namedType | namedPointerType | pointerType | arrayType | functionType => true
  | _ => false

/-- A node of a parse tree: its label, the stretch of the source it covers, the tokens before its first subtree, its
subtrees, and its other tokens. -/
inductive ParseTree
  | node (label : Label) (span : Span) (front : List Token) (trees : List ParseTree) (others : List Token)

def ParseTree.label : ParseTree → Label
  | node label .. => label

def ParseTree.span : ParseTree → Span
  | node _ span .. => span

/-! ## Parts of nodes -/

/-- A part of a node. -/
inductive Part
  | token (t : Token)
  | tree (t : ParseTree)

namespace Part

/-- The tokens before the first subtree. -/
@[simp] def front : List Part → List Token
  | token t :: parts => t :: front parts
  | _ => []

@[simp] def trees : List Part → List ParseTree
  | [] => []
  | token _ :: parts => trees parts
  | tree t :: parts => t :: trees parts

@[simp] def tokens : List Part → List Token
  | [] => []
  | token t :: parts => t :: tokens parts
  | tree _ :: parts => tokens parts

/-- The tokens behind the first subtree. -/
@[simp] def others : List Part → List Token
  | token _ :: parts => others parts
  | parts => tokens parts

theorem front_map (ts : List ParseTree) : front (ts.map tree) = [] := by cases ts <;> rfl

theorem trees_map_append (ts : List ParseTree) (parts : List Part) : trees (ts.map tree ++ parts) = ts ++ trees parts := by
  induction ts with
  | nil => rfl
  | cons t ts ih => exact congrArg (t :: ·) ih

theorem trees_map (ts : List ParseTree) : trees (ts.map tree) = ts := by
  rw [← List.append_nil (ts.map tree), trees_map_append]
  exact List.append_nil ts

end Part

/-- A node with its parts from left to right. -/
def ParseTree.ofParts (label : Label) (span : Span) (parts : List Part) : ParseTree :=
  node label span (Part.front parts) (Part.trees parts) (Part.others parts)

/-! ## Trees of derivations -/

/-- The label of the nodes of a rule, unless the rule leaves no node. -/
def Production.label? : Production → Option Label
  | .unitEmpty | .unitDecls => some .start
  | .constLiteral | .constAlias => some .constDecl
  | .constRefName => some .constRef
  | .varTyped => some .varDecl
  | .structMany | .structOne => some .structDecl
  | .funMany | .funOne | .funNone => some .funDecl
  | .paramTyped => some .param
  | .typePointer | .typeArgPointer => some .pointerType
  | .typeArray | .typeArgArray => some .arrayType
  | .typeFunMany | .typeFunOne | .typeFunNone | .typeArgFunMany | .typeArgFunOne | .typeArgFunNone => some .functionType
  | .baseNamed => some .namedType
  | .primitiveInt | .primitiveFloat | .primitiveByte | .primitiveVoid => some .primType
  | .sizeInteger | .sizeName => some .arraySize
  | .blockStmts | .blockEmpty => some .block
  | .assignTo => some .assignStmt
  | .callChain => some .callStmt
  | .ifElseIf | .ifElse | .ifOnly => some .ifStmt
  | .whileLoop => some .whileStmt
  | .breakWord => some .breakStmt
  | .continueWord => some .continueStmt
  | .labelNamed => some .labelStmt
  | .gotoLabel => some .gotoStmt
  | .chainName | .chainNameSuffixes | .chainBuiltin | .chainBuiltinSuffixes => some .chain
  | .indexExpr => some .indexSuffix
  | .callMany | .callOne | .callNone => some .callSuffix
  | .typeArgNamedPointer => some .namedPointerType
  | .compositeMany | .compositeOne | .compositeNone => some .composite
  | .literalInt => some .intLit
  | .literalReal => some .floatLit
  | .literalByte => some .byteLit
  | .literalChar => some .charLit
  | _ => none

mutual

/-- The stretch of the source that a derivation covers, from its first token to its last. -/
def Derivation.span : {s : Sym} → Derivation s → Span
  | _, .leaf token => token.span
  | _, .node _ children => children.span

def Forest.span : {ss : List Sym} → Forest ss → Span
  | _, .nil => {}
  | _, .cons head .nil => head.span
  | _, .cons head tail => .join head.span tail.span

end

mutual

/-- What a derivation is among the parts of the node around it. -/
def Derivation.parts : {s : Sym} → Derivation s → List Part
  | _, .leaf token => if token.kind.isKept then [.token token] else []
  | _, .node p children =>
    match p.label? with
    | none => children.parts
    | some label => [.tree (.ofParts label children.span children.parts)]

def Forest.parts : {ss : List Sym} → Forest ss → List Part
  | _, .nil => []
  | _, .cons head .nil => head.parts
  | _, .cons head tail => head.parts ++ tail.parts

end

end Grammar

/-- An internal error: an access that fails. -/
inductive Breach
  /-- A literal without a value. -/
  | literal (fault : LiteralFault)
  /-- A state of the parser that knows no way on. -/
  | stuck
  /-- A node of a parse tree in a place for nodes of other classes. -/
  | node (label : Grammar.Label)
  /-- A part that a node of a parse tree does not have. -/
  | part
  /-- A node of a tree in a place where it cannot be used. -/
  | misplaced (m : Misplaced)
  | noGlobal (name : String)
  | noStruct (name : String)
  | noFunction (name : String)
  /-- An integer constant that is no integer. -/
  | noInteger (name : String)
  /-- A statement without a number. -/
  | noNumber
  | refused (refusal : Catalog.Refusal)
deriving DecidableEq, Repr

/-! ## Scanning -/

/-- What is wrong with the value of a literal, which has to be there. -/
def Token.guardedFault? (t : Token) : Except Breach (Option LexFault) :=
  match t.kind with
  | .real => do
    let x ← t.readReal.mapError Breach.literal
    return if x.isFinite then none else some (.realOutOfRange t.lexeme)
  | .byte => do
    let n ← t.readByte.mapError Breach.literal
    return if n ≤ 255 then none else some (.byteOutOfRange t.lexeme)
  | .char => do
    let n ← t.readByte.mapError Breach.literal
    return if n ≤ 255 then none else some (.wideCharacter t.lexeme)
  | _ => return none

namespace Scan

/-- Scans `cs` as `scanFrom` does, but gives up at a literal without a value. -/
def guardedFrom (file : Option String) (pos : Position) (previous : Option Nat) (cs : List Char) : Except Breach Scan :=
  match cs with
  | [] => .ok ⟨[], none⟩
  | c :: rest =>
    match _h : Lexeme.first (c :: rest) with
    | none => .ok ⟨[], some ⟨LexFault.ofCharacter c rest, { file, start := pos.point }⟩⟩
    | some (kind, n) =>
      let lexeme := (c :: rest).take n
      let stop := pos.after lexeme
      if kind.isGap then guardedFrom file stop previous ((c :: rest).drop n)
      else
        let kind := if previous = some pos.offset then kind.touching else kind
        let token : Token := { kind, lexeme := String.ofList lexeme, file, start := pos, stop }
        match token.guardedFault? with
        | .error breach => .error breach
        | .ok (some fault) => .ok ⟨[], some ⟨fault, token.span⟩⟩
        | .ok none => (guardedFrom file stop (some stop.offset) ((c :: rest).drop n)).map (cons token)
termination_by cs.length
decreasing_by
  all_goals
    have := Lexeme.first_pos _h
    simp only [List.length_drop, List.length_cons]
    omega

end Scan

/-- A literal that spells its kind has a value. -/
theorem Token.guardedFault?_of_isSpelled {t : Token} (h : t.IsSpelled) : t.guardedFault? = .ok t.fault? := by
  have hvalue := literalFault?_eq_none h
  unfold literalFault? at hvalue
  unfold guardedFault? fault?
  cases hk : t.kind
  case real =>
    rw [hk] at hvalue
    cases hx : t.readReal with
    | error fault =>
      rw [hx] at hvalue
      cases hvalue
    | ok x =>
      rw [realValue, hx]
      rfl
  case byte | char =>
    rw [hk] at hvalue
    cases hn : t.readByte with
    | error fault =>
      rw [hn] at hvalue
      cases hvalue
    | ok n =>
      rw [byteValue, hn]
      rfl
  all_goals rfl

namespace Scan

variable {file : Option String} {pos : Position} {previous : Option Nat} {cs : List Char} {kind : Kind} {n : Nat}

theorem guardedFrom_gap (h : Lexeme.first cs = some (kind, n)) (hg : kind.isGap = true) :
    guardedFrom file pos previous cs = guardedFrom file (pos.after (cs.take n)) previous (cs.drop n) := by
  cases cs with
  | nil => rw [Lexeme.first] at h; cases h
  | cons c cs =>
    rw [guardedFrom]
    split
    · rename_i h'
      rw [h] at h'
      cases h'
    · rename_i h'
      rw [h] at h'
      cases h'
      rw [if_pos hg]

theorem guardedFrom_lexeme (h : Lexeme.first cs = some (kind, n)) (hg : kind.isGap = false) :
    guardedFrom file pos previous cs =
      match (tokenAt file pos (kindAfter previous pos kind) (cs.take n)).guardedFault? with
      | .error breach => .error breach
      | .ok (some fault) => .ok ⟨[], some ⟨fault, (tokenAt file pos (kindAfter previous pos kind) (cs.take n)).span⟩⟩
      | .ok none => (guardedFrom file (pos.after (cs.take n)) (some (pos.after (cs.take n)).offset) (cs.drop n)).map
          (cons (tokenAt file pos (kindAfter previous pos kind) (cs.take n))) := by
  cases cs with
  | nil => rw [Lexeme.first] at h; cases h
  | cons c cs =>
    rw [guardedFrom]
    split
    · rename_i h'
      rw [h] at h'
      cases h'
    · rename_i h'
      rw [h] at h'
      cases h'
      rw [if_neg (by rw [hg]; exact Bool.false_ne_true)]
      rfl

/-- The scanner does not give up. -/
theorem guardedFrom_eq (file : Option String) (pos : Position) (previous : Option Nat) (cs : List Char) :
    guardedFrom file pos previous cs = .ok (scanFrom file pos previous cs) := by
  induction h : cs.length using Nat.strongRecOn generalizing pos previous cs with
  | ind m ih =>
    subst h
    cases cs with
    | nil => rw [guardedFrom, scanFrom_nil]
    | cons c rest =>
      cases hfirst : Lexeme.first (c :: rest) with
      | none =>
        rw [guardedFrom, scanFrom_fault hfirst]
        split
        · rfl
        · rename_i h'
          rw [hfirst] at h'
          cases h'
      | some found =>
        obtain ⟨kind, n⟩ := found
        have hn := Lexeme.first_pos hfirst
        have hlt : ((c :: rest).drop n).length < (c :: rest).length := by
          rw [List.length_drop, List.length_cons]
          omega
        cases hg : kind.isGap with
        | true => rw [guardedFrom_gap hfirst hg, scanFrom_gap hfirst hg, ih _ hlt _ _ _ rfl]
        | false =>
          -- The lexeme spells its kind, and so its value can be read.
          rw [guardedFrom_lexeme hfirst hg, scanFrom_lexeme hfirst hg,
            Token.guardedFault?_of_isSpelled (isSpelled_tokenAt hfirst hg)]
          cases (tokenAt file pos (kindAfter previous pos kind) ((c :: rest).take n)).fault? with
          | some fault => rfl
          | none =>
            dsimp only
            rw [ih _ hlt _ _ _ rfl]
            rfl

end Scan

theorem Token.fault?_ne_valueless (t : Token) (fault : LiteralFault) : t.fault? ≠ some (.valueless fault) := by
  unfold Token.fault?
  split
  · split <;> nofun
  · split <;> nofun
  · split <;> nofun
  · nofun

theorem LexFault.ofCharacter_ne_valueless (c : Char) (rest : List Char) (fault : LiteralFault) :
    ofCharacter c rest ≠ .valueless fault := by
  unfold ofCharacter ofQuote
  split
  · dsimp only
    split
    · nofun
    · split <;> nofun
  · split
    · nofun
    · split <;> nofun

namespace Scan

/-- No literal of a source is without a value. -/
theorem error_scanFrom_ne_valueless (file : Option String) (pos : Position) (previous : Option Nat) (cs : List Char)
    {e : LexError} (he : (scanFrom file pos previous cs).error = some e) (fault : LiteralFault) : e.fault ≠ .valueless fault := by
  induction h : cs.length using Nat.strongRecOn generalizing pos previous cs with
  | ind m ih =>
    subst h
    cases cs with
    | nil =>
      rw [scanFrom_nil] at he
      cases he
    | cons c rest =>
      cases hfirst : Lexeme.first (c :: rest) with
      | none =>
        rw [scanFrom_fault hfirst] at he
        obtain rfl := Option.some.inj he
        exact LexFault.ofCharacter_ne_valueless c rest fault
      | some found =>
        obtain ⟨kind, n⟩ := found
        have hn := Lexeme.first_pos hfirst
        have hlt : ((c :: rest).drop n).length < (c :: rest).length := by
          rw [List.length_drop, List.length_cons]
          omega
        cases hg : kind.isGap with
        | true =>
          rw [scanFrom_gap hfirst hg] at he
          exact ih _ hlt _ _ _ he rfl
        | false =>
          rw [scanFrom_lexeme hfirst hg] at he
          split at he
          · rename_i found hfound
            obtain rfl := Option.some.inj he
            rintro rfl
            exact Token.fault?_ne_valueless _ fault hfound
          · exact ih _ hlt _ _ _ he rfl

end Scan

/-- Scans a source, and gives up at a literal without a value. -/
def guardedScan (source : String) (file : Option String := none) : Except Breach Scan :=
  Scan.guardedFrom file {} none source.toList

theorem guardedScan_eq (source : String) (file : Option String) : guardedScan source file = .ok (scan source file) :=
  Scan.guardedFrom_eq file {} none source.toList

end FlatScope
