/-
  Checking statements. The statements of a function are numbered in reading order, a statement before those inside
  it; a block behind `else` is no statement of its own. `flatten` lists them by number, `size` counts them, and
  `check` goes through them in the same order and knows the number of each. A check that halts gives back what
  the statement has become so far.
-/
import FlatScope.Resolution.Expr

namespace FlatScope

namespace Stmt

/-! ## Numbers -/

mutual

/-- How many statements a statement is, with those inside it. -/
def size : Stmt → Nat
  | .ifThen _ body _ otherwise _ => 1 + sizes body + elseSize otherwise
  | .whileDo _ body _ _ => 1 + sizes body
  | .block body _ => 1 + sizes body
  | .var _ | .assign .. | .call .. | .breakLoop _ | .continueLoop _ | .label .. | .goto .. | .foreign _ => 1

def elseSize : Option Stmt → Nat
  | some (.ifThen _ body _ otherwise _) => 1 + sizes body + elseSize otherwise
  | some (.block body _) => sizes body
  | _ => 0

def sizes : List Stmt → Nat
  | [] => 0
  | s :: ss => s.size + sizes ss

end

mutual

/-- A statement and those inside it, in the order of their numbers. -/
def flatten : Stmt → List Stmt
  | .ifThen c body braces otherwise span =>
    .ifThen c body braces otherwise span :: flattenAll body ++ flattenElse otherwise
  | .whileDo c body braces span => .whileDo c body braces span :: flattenAll body
  | .block body span => .block body span :: flattenAll body
  | s => [s]

def flattenElse : Option Stmt → List Stmt
  | some (.ifThen c body braces otherwise span) =>
    .ifThen c body braces otherwise span :: flattenAll body ++ flattenElse otherwise
  | some (.block body _) => flattenAll body
  | _ => []

def flattenAll : List Stmt → List Stmt
  | [] => []
  | s :: ss => s.flatten ++ flattenAll ss

end

mutual

/-- Writes the numbers of labels down, for labels with numbers below `bound`. The statement itself has number
`n`. -/
def number (bound n : Nat) : Stmt → Stmt
  | .label name index span => .label name (if n < bound then some n else index) span
  | .ifThen c body braces otherwise span =>
    .ifThen c (numberAll bound (n + 1) body) braces (numberElse bound (n + 1 + sizes body) otherwise) span
  | .whileDo c body braces span => .whileDo c (numberAll bound (n + 1) body) braces span
  | .block body span => .block (numberAll bound (n + 1) body) span
  | .var d => .var d
  | .assign t v span => .assign t v span
  | .call c span => .call c span
  | .breakLoop span => .breakLoop span
  | .continueLoop span => .continueLoop span
  | .goto name target span => .goto name target span
  | .foreign node => .foreign node

def numberElse (bound n : Nat) : Option Stmt → Option Stmt
  | some (.ifThen c body braces otherwise span) =>
    some (.ifThen c (numberAll bound (n + 1) body) braces
      (numberElse bound (n + 1 + sizes body) otherwise) span)
  | some (.block body span) => some (.block (numberAll bound n body) span)
  | other => other

def numberAll (bound n : Nat) : List Stmt → List Stmt
  | [] => []
  | s :: ss => s.number bound n :: numberAll bound (n + s.size) ss

end

end Stmt

/-! ## Simple statements -/

/-- What the statements of a function are checked in. The function's scope is open in the catalog. -/
structure Surroundings where
  builtins : Builtins
  catalog : Catalog
  function : String

/-- The site of the statement with number `n`. -/
def Surroundings.site (s : Surroundings) (n : Nat) : Site := ⟨s.builtins, s.catalog, n⟩

namespace Expr

/-- What is left of an expression without its selectors. -/
def root : Expr → Expr
  | .index base _ _ => base.root
  | .field base _ _ => base.root
  | e => e

/-- The name an expression carries, if it can carry one. -/
def rootName : Expr → Except Misplaced String
  | .ident name _ _ => .ok name
  | .foreign { name := some name, .. } => .ok name
  | e => .error (.noPart e.className "name")

end Expr

namespace Site

/-- Checks the target of an assignment: a place, perhaps with selectors. -/
def checkTarget (site : Site) (target : Expr) : Checked Expr (Expr × Ty) :=
  match target.root.rootName with
  | .error m => .error (.misplaced m, target)
  | .ok name =>
    match (site.lookup name).filter fun s => !s.kind.isStorage with
    | some s => .error (.at target.span (.notAssignable name s.kind), target)
    | none => target.check site none

/-- Checks an assignment: the value has the type of the target. -/
def checkAssign (site : Site) (target value : Expr) (span : Span) : Checked Stmt Stmt :=
  match site.checkTarget target with
  | .error (halt, target) => .error (halt, .assign target value span)
  | .ok (target, t) =>
    match value.check site (some t) with
    | .error (halt, value) => .error (halt, .assign target value span)
    | .ok (value, u) =>
      if u = t then .ok (.assign target value span)
      else .error (.at span (.assignedType u t), .assign target value span)

/-- Checks a call as a statement. -/
def checkCall (site : Site) (e : Expr) (span : Span) : Checked Stmt Stmt :=
  match e with
  | .call .. =>
    match e.check site none with
    | .error (halt, e) => .error (halt, .call e span)
    | .ok (e, _) => .ok (.call e span)
  | e => .error (.misplaced (.noPart e.className "callee"), .call e span)

/-- Checks a condition, which is an `int`. -/
def checkCondition (site : Site) (e : Expr) : Checked Expr Expr :=
  match e.check site none with
  | .error (halt, e) => .error (halt, e)
  | .ok (e', t) =>
    if t = .int then .ok e' else .error (.at e'.span (.conditionType t), leftBehind e e')

end Site

namespace Surroundings

/-- Checks a jump: the label is one of the function. -/
def checkGoto (s : Surroundings) (label : String) (target : Option Nat) (span : Span) : Checked Stmt Stmt :=
  match s.catalog.label? label with
  | none => .error (.at span (.undefinedLabel label s.function), .goto label target span)
  | some l => .ok (.goto label (some l.order.toNat) span)

end Surroundings

/-! ## All statements -/

namespace Stmt

mutual

/-- Checks the statement with number `n` inside `loops` loops. -/
def check (s : Surroundings) (loops n : Nat) : Stmt → Checked Stmt Stmt
  | .var d => .ok (.var d)
  | .label name index span => .ok (.label name index span)
  | .assign target value span => (s.site n).checkAssign target value span
  | .call e span => (s.site n).checkCall e span
  | .ifThen c body braces otherwise span =>
    match (s.site n).checkCondition c with
    | .error (halt, c) => .error (halt, .ifThen c body braces otherwise span)
    | .ok c =>
      match checkAll s loops (n + 1) body with
      | .error (halt, body) => .error (halt, .ifThen c body braces otherwise span)
      | .ok body' =>
        match checkElse s loops (n + 1 + sizes body) otherwise with
        | .error (halt, otherwise) => .error (halt, .ifThen c body' braces otherwise span)
        | .ok otherwise => .ok (.ifThen c body' braces otherwise span)
  | .whileDo c body braces span =>
    match (s.site n).checkCondition c with
    | .error (halt, c) => .error (halt, .whileDo c body braces span)
    | .ok c =>
      match checkAll s (loops + 1) (n + 1) body with
      | .error (halt, body) => .error (halt, .whileDo c body braces span)
      | .ok body => .ok (.whileDo c body braces span)
  | .breakLoop span =>
    if loops = 0 then .error (.at span .breakOutsideLoop, .breakLoop span) else .ok (.breakLoop span)
  | .continueLoop span =>
    if loops = 0 then .error (.at span .continueOutsideLoop, .continueLoop span)
    else .ok (.continueLoop span)
  | .goto name target span => s.checkGoto name target span
  | .block body span =>
    match checkAll s loops (n + 1) body with
    | .error (halt, body) => .error (halt, .block body span)
    | .ok body => .ok (.block body span)
  | .foreign node => .error (.misplaced (.statement node.text), .foreign node)

/-- Checks what follows an `else`: another `if` with number `n`, or a block whose first statement has it. -/
def checkElse (s : Surroundings) (loops n : Nat) : Option Stmt → Checked (Option Stmt) (Option Stmt)
  | none => .ok none
  | some (.block body span) =>
    match checkAll s loops n body with
    | .error (halt, body) => .error (halt, some (.block body span))
    | .ok body => .ok (some (.block body span))
  | some branch =>
    if branch.isIf then
      match branch.check s loops n with
      | .error (halt, branch) => .error (halt, some branch)
      | .ok branch => .ok (some branch)
    else .error (.misplaced (.noPart branch.className "statements"), some branch)

/-- Checks statements, the first of which has number `n`. -/
def checkAll (s : Surroundings) (loops n : Nat) : List Stmt → Checked (List Stmt) (List Stmt)
  | [] => .ok []
  | stmt :: rest =>
    match stmt.check s loops n with
    | .error (halt, stmt) => .error (halt, stmt :: rest)
    | .ok stmt' =>
      match checkAll s loops (n + stmt.size) rest with
      | .error (halt, rest) => .error (halt, stmt' :: rest)
      | .ok rest => .ok (stmt' :: rest)

end

end Stmt

end FlatScope
