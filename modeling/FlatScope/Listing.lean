/-
  The listing of a catalog: all globals, the fields of the structs, and the scope of every function, with what could
  not be resolved marked as such.
-/
import FlatScope.Resolution.Unit

namespace FlatScope

namespace Listing

/-- A type, if it is known. -/
def type (t : Option Ty) : String := (t.map Ty.text).getD "<unresolved>"

/-- A symbol with its type and, for a constant, its value. -/
def symbol (s : Symbol) : String :=
  s.kind.text ++ " " ++ s.name ++ ": " ++ type s.ty ++
    match s.value with
    | some v => " = " ++ v.text
    | none => ""

/-- A local symbol. A label is listed with the statement it marks. -/
def localSymbol (s : Symbol) : String :=
  if s.kind = .label then "label " ++ s.name ++ " -> statement " ++ toString s.order else symbol s

/-- A struct with its fields. -/
def struct (s : StructInfo) : String :=
  "struct " ++ s.name ++ " [" ++ ", ".intercalate (s.fields.map fun (name, t) => name ++ " " ++ t.text) ++ "]"

/-- A function and its scope. -/
def function (f : FunctionInfo) : List String :=
  ("fun " ++ f.name ++ " " ++ type (f.signature.map Signature.ty) ++ " (" ++ f.state.text ++ "):")
    :: match f.entered with
       | some e => e.scope.symbols.map fun s => "\t" ++ localSymbol s
       | none => []

end Listing

/-- The lines that list the catalog of a unit. -/
def Resolution.listing (r : Resolution) : List String :=
  "globals:" :: r.catalog.globals.map (fun s => "\t" ++ Listing.symbol s)
    ++ r.catalog.structs.map Listing.struct ++ r.functions.flatMap Listing.function

end FlatScope
