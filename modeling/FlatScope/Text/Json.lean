/-
  JSON output on one line. Members keep their order, a comma or a colon is followed by a space, and every
  character outside the printable ASCII range is escaped, by its two UTF-16 units if it needs two.
-/
import FlatScope.Text.Quoted

namespace FlatScope

/-- A JSON value to be written. -/
inductive Json
  | null
  | int (n : Int)
  | str (s : String)
  | arr (elements : List Json)
  | obj (members : List (String × Json))

namespace Json

/-- One UTF-16 unit as an escape. -/
def unitEscape (n : Nat) : String := "\\u" ++ hex 4 n

/-- A character inside a JSON string. -/
def escape (c : Char) : String :=
  let n := c.toNat
  if c = '"' then "\\\""
  else if c = '\\' then "\\\\"
  else if c = '\n' then "\\n"
  else if c = '\r' then "\\r"
  else if c = '\t' then "\\t"
  else if n = 0x08 then "\\b"
  else if n = 0x0C then "\\f"
  else if 0x20 ≤ n ∧ n ≤ 0x7E then c.toString
  else if n < 0x10000 then unitEscape n
  else unitEscape (0xD800 + (n - 0x10000) / 0x400) ++ unitEscape (0xDC00 + (n - 0x10000) % 0x400)

/-- A JSON string. -/
def string (s : String) : String := "\"" ++ String.join (s.toList.map escape) ++ "\""

mutual

/-- The text of a value. -/
def text : Json → String
  | .null => "null"
  | .int n => toString n
  | .str s => string s
  | .arr elements => "[" ++ ", ".intercalate (texts elements) ++ "]"
  | .obj members => "\x7b" ++ ", ".intercalate (memberTexts members) ++ "\x7d"

def texts : List Json → List String
  | [] => []
  | j :: js => j.text :: texts js

def memberTexts : List (String × Json) → List String
  | [] => []
  | (name, j) :: rest => (string name ++ ": " ++ j.text) :: memberTexts rest

end

/-- A string, or null where there is none. -/
def ofString? : Option String → Json
  | some s => .str s
  | none => .null

/-- An integer, or null where there is none. -/
def ofInt? : Option Int → Json
  | some n => .int n
  | none => .null

end Json

end FlatScope
