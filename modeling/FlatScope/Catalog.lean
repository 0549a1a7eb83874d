/-
  The catalog of a unit: its global symbols, the fields of its structs, and the local scopes of its functions. A
  function has one flat scope, whatever the nesting of its blocks. At most one scope is open at a time; a scope
  that is left is kept as a finished one. A name is declared once in its scope, and a declaration that fails
  leaves the catalog as it was. Symbols are kept by value, as a new one is made for every declaration; the catalog
  that shares its symbols with those who declare them is `Registry`.
-/
import FlatScope.Symbol

namespace FlatScope

/-- The fields of a struct. A struct whose fields are not all known is incomplete, and nothing can be selected
from it. -/
structure StructInfo where
  name : String
  fields : List (String × Ty) := []
  span : Span := {}
  isComplete : Bool := false
deriving DecidableEq, Repr, Inhabited

/-- The symbols of one function, in the order of their declarations. -/
structure LocalScope where
  function : String
  symbols : List Symbol := []
deriving DecidableEq, Repr, Inhabited

/-- Everything that is declared in a unit. -/
structure Catalog where
  globals : List Symbol := []
  structs : List StructInfo := []
  finished : List LocalScope := []
  current : Option LocalScope := none
deriving DecidableEq, Repr, Inhabited

/-- A name that is declared although its scope has it already. -/
structure Duplicate where
  name : String
  previous : Symbol
  /-- The function whose scope it is, or none for the global scope. -/
  function : Option String
deriving DecidableEq, Repr

namespace Duplicate

/-- The wording for a name declared twice. -/
def message (d : Duplicate) : String :=
  "'" ++ d.name ++ "' is already declared " ++
    match d.function with
    | some f => "in function '" ++ f ++ "'"
    | none => "at global scope"

/-- A pointer to the declaration that has the name, if it is known where that is. -/
def notes (d : Duplicate) : List String :=
  if d.previous.span.start.line.isSome then
    ["previous declaration of " ++ d.previous.kind.text ++ " '" ++ d.previous.name ++ "' at "
      ++ d.previous.span.place]
  else []

end Duplicate

/-! ## Symbols by name -/

namespace Symbol

/-- The symbol of a name among symbols. -/
def find? (symbols : List Symbol) (name : String) : Option Symbol := symbols.find? fun s => s.name = name

/-- The symbol is seen by a statement. A variable is not seen before its declaration; everything else is seen
throughout. -/
def isVisible (s : Symbol) (at? : Option Int) : Bool :=
  match at? with
  | none => true
  | some index => s.kind ≠ .var || s.order ≤ index

end Symbol

namespace LocalScope

def get? (scope : LocalScope) (name : String) : Option Symbol := Symbol.find? scope.symbols name

/-- The labels of a function. There is no other table of them: what is kept of a function beside its scope has none. -/
def labels (scope : LocalScope) : List Symbol := scope.symbols.filter fun s => s.kind = .label

/-- Declares a symbol: the scope gets a copy of it that belongs to the function. -/
def declare (scope : LocalScope) (s : Symbol) : Except Duplicate LocalScope :=
  match scope.get? s.name with
  | some previous => .error ⟨s.name, previous, some scope.function⟩
  | none => .ok { scope with symbols := scope.symbols ++ [{ s with owner := some scope.function }] }

end LocalScope

/-- Why an operation on a catalog is refused. -/
inductive Catalog.Refusal
  | duplicate (d : Duplicate)
  | notGlobal (name : String)
  | notLocal (name : String)
  | scopeOpen (function opened : String)
  | noScope
deriving DecidableEq, Repr

/-- The wording of a refusal. -/
def Catalog.Refusal.message : Catalog.Refusal → String
  | duplicate d => d.message
  | notGlobal name => "symbol '" ++ name ++ "' is not global"
  | notLocal name => "symbol '" ++ name ++ "' is not local"
  | scopeOpen function opened =>
    "cannot enter function '" ++ function ++ "' while resolving '" ++ opened ++ "'"
  | noScope => "no function scope is open"

namespace Catalog

/-! ## Declarations and scopes -/

/-- Adds a global symbol if its name is free. -/
def addGlobal (c : Catalog) (s : Symbol) : Except Duplicate Catalog :=
  match Symbol.find? c.globals s.name with
  | some previous => .error ⟨s.name, previous, none⟩
  | none => .ok { c with globals := c.globals ++ [s] }

/-- Declares a global symbol. -/
def declareGlobal (c : Catalog) (s : Symbol) : Except Refusal Catalog :=
  if s.level ≠ .global then .error (.notGlobal s.name) else (c.addGlobal s).mapError .duplicate

/-- The scope that is open. -/
def openScope (c : Catalog) : Except Refusal LocalScope :=
  match c.current with
  | some scope => .ok scope
  | none => .error .noScope

/-- Declares a symbol in the open scope. -/
def declareLocal (c : Catalog) (s : Symbol) : Except Refusal Catalog := do
  let scope ← c.openScope
  if s.level ≠ .local then throw (.notLocal s.name)
  let scope ← (scope.declare s).mapError .duplicate
  return { c with current := some scope }

/-- The catalog with a scope open in it. -/
def within (c : Catalog) (scope : LocalScope) : Catalog := { c with current := some scope }

/-- Finished scopes with one more, which takes the place of an older one of the same function. -/
def finish (finished : List LocalScope) (scope : LocalScope) : List LocalScope :=
  if finished.any fun s => s.function = scope.function then
    finished.map fun s => if s.function = scope.function then scope else s
  else finished ++ [scope]

/-- Opens an empty scope for a function. -/
def enter (c : Catalog) (function : String) : Except Refusal Catalog :=
  match c.current with
  | some scope => .error (.scopeOpen function scope.function)
  | none => .ok (c.within { function })

/-- Closes the open scope and keeps it. -/
def leave (c : Catalog) : Except Refusal (LocalScope × Catalog) := do
  let scope ← c.openScope
  return (scope, { c with finished := finish c.finished scope, current := none })

/-- The finished scope of a function. -/
def scope? (c : Catalog) (function : String) : Option LocalScope :=
  c.finished.find? fun s => s.function = function

/-! ## Looking up -/

/-- The global symbol of a name. -/
def lookupGlobal (c : Catalog) (name : String) : Option Symbol := Symbol.find? c.globals name

/-- What a name stands for at a statement: the symbol of the open scope if there is one that can be seen, or else
the global one. Without a statement every local symbol is seen. -/
def lookup (c : Catalog) (name : String) (at? : Option Int := none) : Option Symbol :=
  match (c.current.bind fun scope => scope.get? name).filter fun s => s.isVisible at? with
  | some s => some s
  | none => c.lookupGlobal name

/-- The label of a name in the open scope. -/
def label? (c : Catalog) (name : String) : Option Symbol :=
  (c.current.bind fun scope => scope.get? name).filter fun s => s.kind = .label

/-- The label of a name; it is an error to ask when no scope is open. -/
def lookupLabel (c : Catalog) (name : String) : Except Refusal (Option Symbol) := do
  let _ ← c.openScope
  return c.label? name

/-- The struct of a name. -/
def struct? (c : Catalog) (name : String) : Option StructInfo := c.structs.find? fun s => s.name = name

/-! ## Later knowledge -/

/-- Changes the global symbol of a name. -/
def modifyGlobal (c : Catalog) (name : String) (f : Symbol → Symbol) : Catalog :=
  { c with globals := c.globals.map fun s => if s.name = name then f s else s }

/-- Changes the struct of a name. -/
def modifyStruct (c : Catalog) (name : String) (f : StructInfo → StructInfo) : Catalog :=
  { c with structs := c.structs.map fun s => if s.name = name then f s else s }

end Catalog

end FlatScope
