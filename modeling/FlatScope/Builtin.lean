/-
  Builtin functions. Their names start with an underscore, which no declared name does. Most have a fixed signature
  and stand in a table that can be exchanged; three are forms of their own, whose operands need rules
  that no signature can express.
-/
import FlatScope.Ty

namespace FlatScope

/-- The name is one of a builtin: it begins with an underscore. -/
def isBuiltinName (name : String) : Bool := name.toList.head? = some '_'

/-- The builtins without a fixed signature. -/
inductive SpecialForm
  /-- The address of a place or a function. -/
  | addr
  /-- Fresh storage for values of a type. -/
  | alloc
  /-- Giving storage back. -/
  | free
deriving DecidableEq, Repr

namespace SpecialForm

/-- Every special form, in the order of their names. -/
def all : List SpecialForm := [addr, alloc, free]

def name : SpecialForm → String
  | addr => "_addr"
  | alloc => "_alloc"
  | free => "_free"

/-- The special form with a given name, if there is one. -/
def ofName? (s : String) : Option SpecialForm := all.find? fun f => f.name = s

end SpecialForm

/-- Builtin functions with their signatures. -/
abbrev Builtins := List (String × Signature)

namespace Builtins

/-- The builtins for the operand type that `letter` stands for: operations with two operands and with one give
the operand type, comparisons an `int`. -/
def operations (letter : String) (operand : Ty) (binary unary comparisons : List String) : Builtins :=
  let name (operation : String) := "_" ++ operation ++ "_" ++ letter
  binary.map (fun op => (name op, ⟨[operand, operand], operand⟩))
    ++ unary.map (fun op => (name op, ⟨[operand], operand⟩))
    ++ comparisons.map (fun op => (name op, ⟨[operand, operand], .int⟩))

def intBinary : List String := ["add", "sub", "mult", "div", "rem", "shl", "shr", "and", "or", "xor"]

def intUnary : List String := ["flip", "not"]

def floatBinary : List String := ["add", "sub", "mult", "div"]

def comparisons : List String := ["eq", "neq", "lt", "lte", "gt", "gte"]

/-- The builtins that turn a value of one primitive type into one of another. -/
def conversions : Builtins :=
  [("_itof", ⟨[.int], .float⟩), ("_ftoi", ⟨[.float], .int⟩), ("_itob", ⟨[.int], .byte⟩),
    ("_btoi", ⟨[.byte], .int⟩)]

/-- The standard table: signed and unsigned operations on `int`, operations on `float`, and conversions. -/
def standard : Builtins :=
  operations "i" .int intBinary intUnary comparisons
    ++ operations "u" .int intBinary intUnary comparisons
    ++ operations "f" .float floatBinary [] comparisons
    ++ conversions

end Builtins

end FlatScope
