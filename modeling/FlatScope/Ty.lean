/-
  Resolved types. Two types are the same exactly when they are built alike: pointers by what they point to,
  arrays by element and length, functions by parameters and result, structs by name alone. A struct's fields
  are kept apart (`StructInfo`), so that a struct may hold a pointer to itself.
-/

namespace FlatScope

/-- The types that are not built from others. -/
inductive Primitive
  | int | float | byte
deriving DecidableEq, Repr, Inhabited

/-- A resolved type. `void` is only the result of a function that returns nothing. -/
inductive Ty
  | primitive (p : Primitive)
  | void
  | pointer (target : Ty)
  | array (element : Ty) (size : Int)
  | struct (name : String)
  | func (params : List Ty) (result : Ty)
deriving Repr, Inhabited

namespace Primitive

/-- The word that names a primitive type. -/
def text : Primitive → String
  | .int => "int"
  | .float => "float"
  | .byte => "byte"

/-- The primitive type a word names, if it names one. -/
def ofName? : String → Option Primitive
  | "int" => some .int
  | "float" => some .float
  | "byte" => some .byte
  | _ => none

end Primitive

namespace Ty

abbrev int : Ty := .primitive .int

abbrev float : Ty := .primitive .float

abbrev byte : Ty := .primitive .byte

/-! ## Equality -/

mutual

/-- Types are compared part by part. -/
def decEq : (a b : Ty) → Decidable (a = b)
  | .primitive p, .primitive q =>
    if h : p = q then isTrue (by rw [h]) else isFalse (by intro e; cases e; exact h rfl)
  | .void, .void => isTrue rfl
  | .pointer a, .pointer b =>
    match decEq a b with
    | isTrue h => isTrue (by rw [h])
    | isFalse h => isFalse (by intro e; cases e; exact h rfl)
  | .array a m, .array b n =>
    match decEq a b with
    | isTrue h =>
      if h' : m = n then isTrue (by rw [h, h']) else isFalse (by intro e; cases e; exact h' rfl)
    | isFalse h => isFalse (by intro e; cases e; exact h rfl)
  | .struct a, .struct b =>
    if h : a = b then isTrue (by rw [h]) else isFalse (by intro e; cases e; exact h rfl)
  | .func ps r, .func qs s =>
    match decEqAll ps qs with
    | isTrue h =>
      match decEq r s with
      | isTrue h' => isTrue (by rw [h, h'])
      | isFalse h' => isFalse (by intro e; cases e; exact h' rfl)
    | isFalse h => isFalse (by intro e; cases e; exact h rfl)
  | .primitive _, .void | .primitive _, .pointer _ | .primitive _, .array .. | .primitive _, .struct _
  | .primitive _, .func .. | .void, .primitive _ | .void, .pointer _ | .void, .array ..
  | .void, .struct _ | .void, .func .. | .pointer _, .primitive _ | .pointer _, .void
  | .pointer _, .array .. | .pointer _, .struct _ | .pointer _, .func .. | .array .., .primitive _
  | .array .., .void | .array .., .pointer _ | .array .., .struct _ | .array .., .func ..
  | .struct _, .primitive _ | .struct _, .void | .struct _, .pointer _ | .struct _, .array ..
  | .struct _, .func .. | .func .., .primitive _ | .func .., .void | .func .., .pointer _
  | .func .., .array .. | .func .., .struct _ => isFalse (by intro e; cases e)

def decEqAll : (as bs : List Ty) → Decidable (as = bs)
  | [], [] => isTrue rfl
  | a :: as, b :: bs =>
    match decEq a b with
    | isTrue h =>
      match decEqAll as bs with
      | isTrue h' => isTrue (by rw [h, h'])
      | isFalse h' => isFalse (by intro e; cases e; exact h' rfl)
    | isFalse h => isFalse (by intro e; cases e; exact h rfl)
  | [], _ :: _ | _ :: _, [] => isFalse (by intro e; cases e)

end

instance : DecidableEq Ty := decEq

/-! ## Text -/

mutual

/-- The type as it is written in a source: suffixes follow what they apply to. -/
def text : Ty → String
  | .primitive p => p.text
  | .void => "void"
  | .pointer t => t.text ++ "*"
  | .array t n => t.text ++ "[" ++ toString n ++ "]"
  | .struct s => s
  | .func ps r => r.text ++ "(" ++ ", ".intercalate (texts ps) ++ ")*"

/-- The texts of a list of types. -/
def texts : List Ty → List String
  | [] => []
  | t :: ts => t.text :: texts ts

end

/-- The type under all array layers. -/
def innermost : Ty → Ty
  | .array t _ => t.innermost
  | t => t

end Ty

/-- What a function takes and gives. -/
structure Signature where
  params : List Ty
  result : Ty
deriving DecidableEq, Repr, Inhabited

/-- The type of a function with this signature. -/
def Signature.ty (s : Signature) : Ty := .func s.params s.result

end FlatScope
