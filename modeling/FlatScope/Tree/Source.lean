/-
  The canonical source of a tree: one statement a line, bodies indented by tabs, an empty line before each function
  but the first line. A resolved `field` is written like the `index` it was made from. The functions on lines and
  texts are total and leave a foreign leaf out; `misplaced?` finds the first such leaf, and `source?` refuses
  a program that has one.
-/
import FlatScope.Text.Newline
import FlatScope.Tree.Misplaced

namespace FlatScope

def ArraySize.source : ArraySize → String
  | .int n => toString n
  | .name s => s

namespace TypeExpr

mutual

/-- A type in source form. -/
def source : TypeExpr → String
  | .named name _ => name
  | .pointer e _ => e.source ++ "*"
  | .array e size _ => e.source ++ "[" ++ size.source ++ "]"
  | .func r ps _ => r.source ++ "(" ++ ", ".intercalate (sources ps) ++ ")*"
  | .foreign _ => ""

def sources : List TypeExpr → List String
  | [] => []
  | t :: ts => t.source :: sources ts

end

mutual

/-- The first misplaced node, in the order in which the parts are written out: parameters before results. -/
def misplaced? : TypeExpr → Option Misplaced
  | .named .. => none
  | .pointer e _ => e.misplaced?
  | .array e _ _ => e.misplaced?
  | .func r ps _ => misplacedAny? ps <|> r.misplaced?
  | .foreign n => some (.typeExpression n.text)

def misplacedAny? : List TypeExpr → Option Misplaced
  | [] => none
  | t :: ts => t.misplaced? <|> misplacedAny? ts

end

end TypeExpr

namespace Expr

mutual

/-- An expression in source form. -/
def source : Expr → String
  | .int n _ => toString n
  | .real x _ => x.text
  | .byte n _ => toString n ++ "b"
  | .ident name _ _ => name
  | .index b i _ => b.source ++ "[" ++ i.source ++ "]"
  | .field b name _ => b.source ++ "[" ++ name ++ "]"
  | .call c args _ => c.source ++ "(" ++ ", ".intercalate (sources args) ++ ")"
  | .composite es _ => "[" ++ ", ".intercalate (sources es) ++ "]"
  | .addrOf t _ => "_addr(" ++ t.source ++ ")"
  | .typeArg t _ => t.source
  | .foreign _ => ""

def sources : List Expr → List String
  | [] => []
  | e :: es => e.source :: sources es

end

mutual

/-- The first misplaced node, in the order in which the parts are written out: arguments before callees. -/
def misplaced? : Expr → Option Misplaced
  | .int .. | .real .. | .byte .. | .ident .. => none
  | .index b i _ => b.misplaced? <|> i.misplaced?
  | .field b _ _ => b.misplaced?
  | .call c args _ => misplacedAny? args <|> c.misplaced?
  | .composite es _ => misplacedAny? es
  | .addrOf t _ => t.misplaced?
  | .typeArg t _ => t.misplaced?
  | .foreign n => some (.expression n.text)

def misplacedAny? : List Expr → Option Misplaced
  | [] => none
  | e :: es => e.misplaced? <|> misplacedAny? es

end

end Expr

def VarDecl.source (d : VarDecl) : String := "var " ++ d.name ++ " " ++ d.type.source

def Param.source (p : Param) : String := "var " ++ p.name ++ " " ++ p.type.source

namespace Member

def source : Member → String
  | var d => d.source
  | param d => d.source
  | foreign .. => ""

/-- What is misplaced in a member: names are written before types. -/
def misplaced? (m : Member) : Option Misplaced :=
  match m.name, m.type with
  | .error e, _ | .ok _, .error e => some e
  | .ok _, .ok t => t.misplaced?

end Member

/-- The tabs in front of a line. -/
def indent (depth : Nat) : String := "".pushn '\t' depth

namespace Stmt

mutual

/-- The lines of a statement at a depth. -/
def lines (depth : Nat) : Stmt → List String
  | .var d => [indent depth ++ d.source]
  | .assign t v _ => [indent depth ++ t.source ++ " := " ++ v.source]
  | .call c _ => [indent depth ++ c.source]
  | .ifThen c body _ otherwise _ =>
    [indent depth ++ "if " ++ c.source ++ " \x7b"] ++ linesAll (depth + 1) body
      ++ elseLines depth otherwise
  | .whileDo c body _ _ =>
    [indent depth ++ "while " ++ c.source ++ " \x7b"] ++ linesAll (depth + 1) body
      ++ [indent depth ++ "\x7d"]
  | .breakLoop _ => [indent depth ++ "break"]
  | .continueLoop _ => [indent depth ++ "continue"]
  | .label name _ _ => [indent depth ++ "label " ++ name]
  | .goto name _ _ => [indent depth ++ "goto label " ++ name]
  | .block body _ => [indent depth ++ "\x7b"] ++ linesAll (depth + 1) body ++ [indent depth ++ "\x7d"]
  | .foreign _ => []

/-- The lines from the closing brace of an `if` body on. -/
def elseLines (depth : Nat) : Option Stmt → List String
  | some (.ifThen c body _ otherwise _) =>
    [indent depth ++ "\x7d else if " ++ c.source ++ " \x7b"] ++ linesAll (depth + 1) body
      ++ elseLines depth otherwise
  | some (.block body _) =>
    [indent depth ++ "\x7d else \x7b"] ++ linesAll (depth + 1) body ++ [indent depth ++ "\x7d"]
  | _ => [indent depth ++ "\x7d"]

/-- The lines of a body. -/
def linesAll (depth : Nat) : List Stmt → List String
  | [] => []
  | s :: ss => s.lines depth ++ linesAll depth ss

end

mutual

/-- The first misplaced node of a statement. -/
def misplaced? : Stmt → Option Misplaced
  | .var d => d.type.misplaced?
  | .assign t v _ => t.misplaced? <|> v.misplaced?
  | .call c _ => c.misplaced?
  | .ifThen c body braces otherwise _ =>
    c.misplaced? <|> braces.misplaced? <|> misplacedAny? body <|> misplacedElse? otherwise
  | .whileDo c body braces _ => c.misplaced? <|> braces.misplaced? <|> misplacedAny? body
  | .block body _ => misplacedAny? body
  | .foreign n => some (.statement n.text)
  | .breakLoop _ | .continueLoop _ | .label .. | .goto .. => none

def misplacedElse? : Option Stmt → Option Misplaced
  | some (.ifThen c body braces otherwise _) =>
    c.misplaced? <|> braces.misplaced? <|> misplacedAny? body <|> misplacedElse? otherwise
  | some (.block body _) => misplacedAny? body
  | _ => none

def misplacedAny? : List Stmt → Option Misplaced
  | [] => none
  | s :: ss => s.misplaced? <|> misplacedAny? ss

end

end Stmt

namespace Decl

/-- The lines of a declaration. -/
def lines : Decl → List String
  | const d => ["const " ++ d.name ++ " " ++ d.value.source]
  | var d => [d.source]
  | struct d => ["struct " ++ d.name ++ " [" ++ ", ".intercalate (d.fields.map (·.source)) ++ "]"]
  | func d =>
    ["fun " ++ d.name ++ " " ++ d.result.source ++ "(" ++ ", ".intercalate (d.params.map (·.source))
      ++ ") \x7b"] ++ Stmt.linesAll 1 d.body ++ ["\x7d"]
  | foreign _ => []

/-- The first misplaced node of a declaration. -/
def misplaced? : Decl → Option Misplaced
  | const d => d.value.misplaced?
  | var d => d.type.misplaced?
  | struct d => d.fields.findSome? (·.misplaced?)
  | func d =>
    d.params.findSome? (·.misplaced?) <|> d.result.misplaced? <|> d.braces.misplaced?
      <|> Stmt.misplacedAny? d.body
  | foreign n => some (.declaration n.text)

/-- The lines of a declaration that follows `before`: a function is set off by an empty line. -/
def linesAfter (before : List String) (d : Decl) : List String :=
  match d with
  | func _ => if before.isEmpty then d.lines else "" :: d.lines
  | _ => d.lines

end Decl

namespace Program

/-- The lines of a program. -/
def lines (p : Program) : List String :=
  p.decls.foldl (fun before d => before ++ d.linesAfter before) []

/-- The canonical source of a program. Every line ends with a newline. -/
def source (p : Program) : String := unlines p.lines

/-- The first misplaced node of a program. -/
def misplaced? (p : Program) : Option Misplaced := p.decls.findSome? (·.misplaced?)

end Program

/-- A text unless there is a misplaced node. -/
def unlessMisplaced {α : Type} (m : Option Misplaced) (a : α) : Except Misplaced α :=
  match m with
  | some m => .error m
  | none => .ok a

/-- The canonical source of a program, if no node of it is misplaced. -/
def Program.source? (p : Program) : Except Misplaced String := unlessMisplaced p.misplaced? p.source

end FlatScope
