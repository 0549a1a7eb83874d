/-
  Function bodies. The scope of a function is filled before any statement is checked: with the result, the
  parameters, and every variable and label of the body by number. The type of a variable may use what is declared
  before it. A problem ends the work on the function and keeps the scope as it is.
-/
import FlatScope.Resolution.Stmt

namespace FlatScope

/-- The name of the variable that holds a function's result. -/
def resultName : String := "result"

namespace LocalScope

/-- Declares a symbol, as a step of resolving a body. -/
def add (scope : LocalScope) (s : Symbol) : Except Halt LocalScope :=
  (scope.declare s).mapError fun d => .at s.span (.duplicate d)

/-- Declares symbols in order, up to the first that is none or whose name is taken. -/
def addAll (scope : LocalScope) : List (Except Misplaced Symbol) → LocalScope × Option Halt
  | [] => (scope, none)
  | s :: ss =>
    match s.mapError Halt.misplaced >>= scope.add with
    | .error halt => (scope, some halt)
    | .ok scope => scope.addAll ss

end LocalScope

namespace FuncDecl

/-- The symbols that a function has before its body: its result, unless it is `void`, and its parameters, as far as
these have names. -/
def headSymbols (d : FuncDecl) (s : Signature) : List (Except Misplaced Symbol) :=
  let result : List Symbol :=
    if s.result = .void then []
    else [{ name := resultName, kind := .result, level := .local, ty := some s.result, span := d.result.span }]
  let param (m : Member) (t : Ty) : Except Misplaced Symbol :=
    m.name.map fun name => { name, kind := .param, level := .local, ty := some t, span := m.span }
  result.map .ok ++ List.zipWith param d.params s.params

end FuncDecl

/-- What the statements of a body declare: a scope, how many statements were read, and why no more. -/
structure Collected where
  scope : LocalScope
  count : Nat
  halt : Option Halt := none

namespace Stmt

/-- The braces of the body of a conditional statement or a loop. -/
def braces? : Stmt → Option Braces
  | .ifThen _ _ braces _ _ | .whileDo _ _ braces _ => some braces
  | _ => none

/-- The symbol that the statement with number `n` declares, if it declares one. A statement whose body is missing
ends the reading. -/
def symbol? (c : Catalog) (n : Nat) : Stmt → Except Halt (Option Symbol)
  | .var d => do
    let t ← d.type.resolve c (some n) false
    return some { name := d.name, kind := .var, level := .local, ty := some t, span := d.span, order := n }
  | .label name _ span => return some { name, kind := .label, level := .local, span, order := n }
  | s =>
    match s.braces?.bind Braces.misplaced? with
    | some m => throw (.misplaced m)
    | none => return none

/-- Declares what statements declare, the first of which has number `n`. -/
def collect (c : Catalog) (scope : LocalScope) (n : Nat) : List Stmt → Collected
  | [] => ⟨scope, n, none⟩
  | s :: ss =>
    match s.symbol? (c.within scope) n with
    | .error halt => ⟨scope, n + 1, some halt⟩
    | .ok none => collect c scope (n + 1) ss
    | .ok (some symbol) =>
      match scope.add symbol with
      | .error halt => ⟨scope, n + 1, some halt⟩
      | .ok scope => collect c scope (n + 1) ss

end Stmt

/-- What came of a function: its scope, its statements by number as far as they were read, and the problem that
ended the work, if one did. -/
structure Entered where
  scope : LocalScope
  statements : List Stmt := []
  problem : Option Problem := none

/-- A halt at a problem lets the work on other declarations go on; a misplaced node does not. -/
def Halt.report : Halt → Except Misplaced Problem
  | problem p => .ok p
  | misplaced m => .error m

namespace FuncDecl

/-- Resolves the body of a function. The function comes back with what its body has become. -/
def resolveBody (builtins : Builtins) (c : Catalog) (s : Signature) (d : FuncDecl) :
    Except Misplaced (FuncDecl × Entered) := do
  let (scope, halt) := LocalScope.addAll { function := d.name } (d.headSymbols s)
  if let some halt := halt then return (d, { scope, problem := some (← halt.report) })
  if let some m := d.braces.misplaced? then throw m
  let collected := Stmt.collect c scope 0 (Stmt.flattenAll d.body)
  let body := Stmt.numberAll collected.count 0 d.body
  let entered (body : List Stmt) (problem : Option Problem) : FuncDecl × Entered :=
    ({ d with body },
      { scope := collected.scope, statements := (Stmt.flattenAll body).take collected.count, problem })
  if let some halt := collected.halt then return entered body (some (← halt.report))
  match Stmt.checkAll ⟨builtins, c.within collected.scope, d.name⟩ 0 0 body with
  | .ok body => return entered body none
  | .error (halt, body) => return entered body (some (← halt.report))

end FuncDecl

end FlatScope
