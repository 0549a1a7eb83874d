/-
  The catalog with its symbols as objects. Who declares a symbol goes on holding it, and the catalog keeps that very
  symbol: a declaration in a scope writes into it which function it belongs to. So a symbol that is declared under two
  functions is in the scopes of both, and belongs to the function it was declared under last. An operation that raises
  leaves behind what it has changed by then. `Catalog` keeps symbols by value, which comes to the same where a new symbol
  is made for every declaration.
-/
import FlatScope.Catalog

namespace FlatScope

/-- The identity of a symbol. -/
abbrev Ref := Nat

/-- The symbols of one function, in the order of their declarations. A scope is an object as well, but it is held by
value: it is reached only as the open one, and is not written to once it is left. -/
structure RefScope where
  function : String
  refs : List Ref := []
deriving DecidableEq, Repr, Inhabited

/-- All symbols there are, and which of them have been declared. -/
structure Registry where
  /-- What a symbol holds at present. -/
  symbols : Ref → Symbol
  globals : List Ref := []
  finished : List RefScope := []
  current : Option RefScope := none

namespace Registry

/-- The symbol of a name among symbols. No operation renames a symbol, so it is found under the name it was declared
with. -/
def find? (r : Registry) (refs : List Ref) (name : String) : Option Ref := refs.find? fun x => (r.symbols x).name = name

/-- The finished scope of a function. -/
def scope? (r : Registry) (function : String) : Option RefScope := r.finished.find? fun s => s.function = function

/-- Finished scopes with one more, which takes the place of an older one of the same function. -/
def finish (finished : List RefScope) (scope : RefScope) : List RefScope :=
  if finished.any fun s => s.function = scope.function then
    finished.map fun s => if s.function = scope.function then scope else s
  else finished ++ [scope]

/-- Writes into a symbol which function it belongs to. -/
def own (r : Registry) (x : Ref) (function : String) : Registry :=
  { r with symbols := fun y => if y = x then { r.symbols y with owner := some function } else r.symbols y }

/-! ## What is declared, with the symbols as they are at present -/

def viewScope (r : Registry) (scope : RefScope) : LocalScope := ⟨scope.function, scope.refs.map r.symbols⟩

def view (r : Registry) : Catalog where
  globals := r.globals.map r.symbols
  finished := r.finished.map r.viewScope
  current := r.current.map r.viewScope

/-! ## Operations -/

/-- An operation changes a registry, or raises and leaves it as it has become by then. -/
abbrev Op := EStateM Catalog.Refusal Registry

def requireLocal : Op RefScope := do
  match (← get).current with
  | some scope => return scope
  | none => throw .noScope

def declareGlobal (x : Ref) : Op Ref := do
  let r ← get
  let s := r.symbols x
  if s.level ≠ .global then throw (.notGlobal s.name)
  if let some previous := r.find? r.globals s.name then
    throw (.duplicate ⟨s.name, r.symbols previous, none⟩)
  set { r with globals := r.globals ++ [x] }
  return x

def enter (function : String) : Op RefScope := do
  if let some scope := (← get).current then throw (.scopeOpen function scope.function)
  let scope : RefScope := { function }
  modify fun r => { r with current := some scope }
  return scope

def declareLocal (x : Ref) : Op Ref := do
  let scope ← requireLocal
  let r ← get
  let s := r.symbols x
  if s.level ≠ .local then throw (.notLocal s.name)
  if let some previous := r.find? scope.refs s.name then
    throw (.duplicate ⟨s.name, r.symbols previous, some scope.function⟩)
  modify fun r => r.own x scope.function
  modify fun r => { r with current := some { scope with refs := scope.refs ++ [x] } }
  return x

/-- What a name stands for at a statement, as with `Catalog.lookup`. -/
def lookup (name : String) (at? : Option Int) : Op (Option Ref) := do
  let r ← get
  if let some scope := r.current then
    if let some x := r.find? scope.refs name then
      if (r.symbols x).isVisible at? then return some x
  return r.find? r.globals name

def lookupGlobal (name : String) : Op (Option Ref) := do
  let r ← get
  return r.find? r.globals name

def lookupLabel (name : String) : Op (Option Ref) := do
  let scope ← requireLocal
  let r ← get
  return (r.find? scope.refs name).filter fun x => (r.symbols x).kind = .label

def leave : Op RefScope := do
  let scope ← requireLocal
  modify fun r => { r with finished := finish r.finished scope }
  modify fun r => { r with current := none }
  return scope

end Registry

end FlatScope
