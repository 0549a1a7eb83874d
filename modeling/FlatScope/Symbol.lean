/-
  Symbols: declared names with what is known of them. A symbol's type is missing until it is resolved, and stays
  missing if that fails. Constants carry their value. A local symbol knows its function and the number of the
  statement that declares it.
-/
import FlatScope.Text.Position
import FlatScope.Number.Shortest
import FlatScope.Ty

namespace FlatScope

/-- What a name stands for. -/
inductive Symbol.Kind
  | const | var | param | result | func | struct | label
deriving DecidableEq, Repr, Inhabited

namespace Symbol.Kind

/-- The kind names a place that holds a value, so that it can be assigned to and has an address. -/
def isStorage : Kind → Bool
  | var | param | result => true
  | _ => false

/-- The kind in words. -/
def text : Kind → String
  | const => "constant"
  | var => "variable"
  | param => "parameter"
  | result => "result variable"
  | func => "function"
  | struct => "struct"
  | label => "label"

end Symbol.Kind

/-- Whether a symbol belongs to the whole unit or to one function. -/
inductive Level
  | global
  | local
deriving DecidableEq, Repr, Inhabited

/-- The value of a constant. -/
inductive Constant
  | int (value : Int)
  | real (value : Binary64)
deriving DecidableEq, Repr, Inhabited

/-- The text of a constant's value. -/
def Constant.text : Constant → String
  | .int n => toString n
  | .real x => x.text

/-- A declared name. -/
structure Symbol where
  name : String
  kind : Symbol.Kind
  level : Level
  ty : Option Ty := none
  span : Span := {}
  /-- The function a local symbol belongs to. -/
  owner : Option String := none
  value : Option Constant := none
  /-- The number of the declaring statement; -1 for everything that no statement declares. -/
  order : Int := -1
deriving DecidableEq, Repr, Inhabited

end FlatScope
