/-
  Lexemes: what a text can start with. Each function takes the text from some place on and gives the length of
  the lexeme of one sort that stands there, if any; `Lexeme.first` tries the sorts in order. Numbers are tried
  from the longest form to the shortest (a float, a byte, an integer), and the other sorts start with different
  characters, so the order decides nothing else.
-/
import FlatScope.Token.Kind

namespace FlatScope.Lexeme

/-- Letters, digits and the underscore. -/
def isWordChar (c : Char) : Bool := c.isAlpha || c.isDigit || c = '_'

/-- The characters that separate tokens. -/
def isSpace (c : Char) : Bool := c = ' ' || c = '\t' || c = '\x0c' || c = '\r' || c = '\n'

/-- The characters that may follow a backslash in a character literal, with what they stand for. -/
def escapes : List (Char × Char) :=
  [('n', '\n'), ('t', '\t'), ('r', '\r'), ('0', '\x00'), ('\\', '\\'), ('\'', '\''), ('"', '"')]

/-- The length of the run of characters of a class at the start. -/
def run (p : Char → Bool) (cs : List Char) : Nat := (cs.takeWhile p).length

/-- A run that must not be empty. -/
def run? (p : Char → Bool) (cs : List Char) : Option Nat :=
  if run p cs = 0 then none else some (run p cs)

/-- The length of a minus sign, if one stands there. -/
def minus : List Char → Nat
  | '-' :: _ => 1
  | _ => 0

/-- The length of a sign, if one stands there. -/
def sign : List Char → Nat
  | '-' :: _ | '+' :: _ => 1
  | _ => 0

/-- An exponent: the letter, perhaps a sign, and digits. -/
def exponent? : List Char → Option Nat
  | c :: cs =>
    if c = 'e' ∨ c = 'E' then
      (run? Char.isDigit (cs.drop (sign cs))).map fun n => 1 + sign cs + n
    else none
  | [] => none

/-- What makes digits a float: a point with digits behind it and perhaps an exponent, or an exponent. -/
def fraction? : List Char → Option Nat
  | '.' :: cs =>
    (run? Char.isDigit cs).map fun n => 1 + n + (exponent? (cs.drop n)).getD 0
  | cs => exponent? cs

/-- A float literal. -/
def real? (cs : List Char) : Option Nat := do
  let n ← run? Char.isDigit (cs.drop (minus cs))
  let m ← fraction? (cs.drop (minus cs + n))
  return minus cs + n + m

/-- A byte literal in digits: they end in `b`, and no word goes on behind it. -/
def byte? (cs : List Char) : Option Nat := do
  let n ← run? Char.isDigit cs
  match cs.drop n with
  | ['b'] => return n + 1
  | 'b' :: c :: _ => if isWordChar c then none else return n + 1
  | _ => none

/-- An integer literal. -/
def integer? (cs : List Char) : Option Nat :=
  (run? Char.isDigit (cs.drop (minus cs))).map (minus cs + ·)

/-- A word that starts with a letter. -/
def word? : List Char → Option Nat
  | c :: cs => if c.isAlpha then some (1 + run isWordChar cs) else none
  | [] => none

/-- A word behind an underscore. -/
def builtin? : List Char → Option Nat
  | '_' :: cs => (word? cs).map (1 + ·)
  | _ => none

/-- A character between single quotes, plain or escaped. -/
def char? : List Char → Option Nat
  | '\'' :: '\\' :: c :: '\'' :: _ => if (escapes.lookup c).isSome then some 4 else none
  | '\'' :: c :: '\'' :: _ => if c = '\\' ∨ c = '\'' ∨ c = '\n' then none else some 3
  | _ => none

/-- A comment reaches to the end of its line. -/
def comment? : List Char → Option Nat
  | '/' :: '/' :: cs => some (2 + run (· ≠ '\n') cs)
  | _ => none

/-- White space. -/
def space? (cs : List Char) : Option Nat := run? isSpace cs

/-- A mark of one or two characters. -/
def mark? : List Char → Option (Kind × Nat)
  | ':' :: '=' :: _ => some (.assign, 2)
  | ',' :: _ => some (.comma, 1)
  | ';' :: _ => some (.semicolon, 1)
  | '\x7b' :: _ => some (.openBrace, 1)
  | '\x7d' :: _ => some (.closeBrace, 1)
  | ']' :: _ => some (.closeBracket, 1)
  | ')' :: _ => some (.closeParen, 1)
  | '[' :: _ => some (.spacedBracket, 1)
  | '(' :: _ => some (.spacedParen, 1)
  | '*' :: _ => some (.spacedStar, 1)
  | _ => none

/-- The kind of a word: a keyword, or else a name. -/
def wordKind (cs : List Char) : Kind := (Kind.ofKeyword? (String.ofList cs)).getD .name

/-- The kind and the length of the lexeme at the start of a text. -/
def first (cs : List Char) : Option (Kind × Nat) :=
  if let some n := real? cs then some (.real, n)
  else if let some n := byte? cs then some (.byte, n)
  else if let some n := integer? cs then some (.integer, n)
  else if let some n := word? cs then some (wordKind (cs.take n), n)
  else if let some n := builtin? cs then some (.builtin, n)
  else if let some n := char? cs then some (.char, n)
  else if let some n := comment? cs then some (.comment, n)
  else if let some n := space? cs then some (.space, n)
  else mark? cs

/-! ## No lexeme is empty -/

theorem run?_pos {p : Char → Bool} {cs : List Char} {n : Nat} (h : run? p cs = some n) : 0 < n := by
  unfold run? at h; split at h
  · cases h
  · cases h; omega

theorem exponent?_pos {cs : List Char} {n : Nat} (h : exponent? cs = some n) : 0 < n := by
  unfold exponent? at h
  split at h
  · split at h
    · obtain ⟨m, _, rfl⟩ := Option.map_eq_some_iff.1 h; omega
    · cases h
  · cases h

theorem real?_pos {cs : List Char} {n : Nat} (h : real? cs = some n) : 0 < n := by
  simp only [real?, bind, Option.bind_eq_some_iff, pure, Option.some.injEq] at h
  obtain ⟨a, ha, b, _, rfl⟩ := h
  have := run?_pos ha
  omega

theorem byte?_pos {cs : List Char} {n : Nat} (h : byte? cs = some n) : 0 < n := by
  simp only [byte?, bind, Option.bind_eq_some_iff] at h
  obtain ⟨a, _, h⟩ := h
  split at h
  · cases h; omega
  · split at h <;> cases h; omega
  · cases h

theorem integer?_pos {cs : List Char} {n : Nat} (h : integer? cs = some n) : 0 < n := by
  obtain ⟨m, hm, rfl⟩ := Option.map_eq_some_iff.1 h
  have := run?_pos hm
  omega

theorem word?_pos {cs : List Char} {n : Nat} (h : word? cs = some n) : 0 < n := by
  unfold word? at h
  split at h
  · split at h <;> cases h; omega
  · cases h

theorem builtin?_pos {cs : List Char} {n : Nat} (h : builtin? cs = some n) : 0 < n := by
  unfold builtin? at h
  split at h
  · obtain ⟨m, _, rfl⟩ := Option.map_eq_some_iff.1 h; omega
  · cases h

theorem char?_pos {cs : List Char} {n : Nat} (h : char? cs = some n) : 0 < n := by
  unfold char? at h
  split at h
  · split at h <;> cases h; omega
  · split at h <;> cases h; omega
  · cases h

theorem comment?_pos {cs : List Char} {n : Nat} (h : comment? cs = some n) : 0 < n := by
  unfold comment? at h
  split at h
  · cases h; omega
  · cases h

theorem mark?_pos {cs : List Char} {k : Kind} {n : Nat} (h : mark? cs = some (k, n)) : 0 < n := by
  unfold mark? at h
  split at h <;> cases h <;> omega

theorem first_pos {cs : List Char} {k : Kind} {n : Nat} (h : first cs = some (k, n)) : 0 < n := by
  unfold first at h
  split at h
  · cases h; exact real?_pos (by assumption)
  split at h
  · cases h; exact byte?_pos (by assumption)
  split at h
  · cases h; exact integer?_pos (by assumption)
  split at h
  · cases h; exact word?_pos (by assumption)
  split at h
  · cases h; exact builtin?_pos (by assumption)
  split at h
  · cases h; exact char?_pos (by assumption)
  split at h
  · cases h; exact comment?_pos (by assumption)
  split at h
  · cases h; exact run?_pos (by assumption)
  · exact mark?_pos h

end FlatScope.Lexeme
