/-
  Places in a text. A `Position` is exact: line and column counted from 1 and the offset from 0, all in
  characters, and only a newline starts a new line. A `Span` is what a tree node or a complaint carries: a
  file name and two points, any part of which may be unknown, because trees can also be built by hand.
-/

namespace FlatScope

/-- A place in a text. -/
structure Position where
  line : Nat := 1
  column : Nat := 1
  offset : Nat := 0
deriving DecidableEq, Repr, Inhabited

namespace Position

/-- The place after the character `c` read at `p`. -/
def step (p : Position) (c : Char) : Position :=
  if c = '\n' then ⟨p.line + 1, 1, p.offset + 1⟩ else ⟨p.line, p.column + 1, p.offset + 1⟩

/-- The place after the characters `cs` read from `p` on. -/
def after (p : Position) (cs : List Char) : Position := cs.foldl step p

@[simp] theorem after_nil (p : Position) : p.after [] = p := rfl

@[simp] theorem after_cons (p : Position) (c : Char) (cs : List Char) :
    p.after (c :: cs) = (p.step c).after cs := rfl

theorem after_append (p : Position) (xs ys : List Char) :
    p.after (xs ++ ys) = (p.after xs).after ys := List.foldl_append ..

theorem step_offset (p : Position) (c : Char) : (p.step c).offset = p.offset + 1 := by
  unfold step; split <;> rfl

theorem after_offset (p : Position) (cs : List Char) :
    (p.after cs).offset = p.offset + cs.length := by
  induction cs generalizing p with
  | nil => rfl
  | cons c cs ih => rw [after_cons, ih, step_offset, List.length_cons]; omega

end Position

/-- One end of a span, as far as it is known. -/
structure Point where
  line : Option Int := none
  column : Option Int := none
  offset : Option Int := none
deriving DecidableEq, Repr, Inhabited

/-- The point at an exact place. -/
def Position.point (p : Position) : Point := ⟨some p.line, some p.column, some p.offset⟩

/-- A stretch of a file, from `start` up to but not including `stop`. -/
structure Span where
  file : Option String := none
  start : Point := {}
  stop : Point := {}
deriving DecidableEq, Repr, Inhabited

namespace Span

/-- From the start of one span to the end of another, in the file of the first. -/
def join (a b : Span) : Span := { a with stop := b.stop }

/-- An unknown coordinate is written as a question mark. -/
def coordinate : Option Int → String
  | some n => toString n
  | none => "?"

/-- Line and column of the start, as complaints show them. -/
def place (s : Span) : String := coordinate s.start.line ++ ":" ++ coordinate s.start.column

end Span

end FlatScope
