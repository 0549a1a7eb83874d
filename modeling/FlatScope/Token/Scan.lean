/-
  Scanning: from the characters of a source to its tokens. A scan ends at the first fault and keeps the tokens
  before it. An opener or star touches the token before it when it starts where that token ends.
-/
import FlatScope.Token.Fault

namespace FlatScope

/-- The tokens of a source up to its end or to the first fault. -/
structure Scan where
  tokens : List Token
  error : Option LexError
deriving DecidableEq, Repr

namespace Scan

/-- A scan with one more token in front. -/
def cons (t : Token) (s : Scan) : Scan := { s with tokens := t :: s.tokens }

/-- The tokens of a scan, if there is no fault. -/
def toExcept (s : Scan) : Except LexError (List Token) :=
  match s.error with
  | some e => .error e
  | none => .ok s.tokens

/-- What is seen of a scan by taking at most `limit` tokens from it: the fault lies behind the last token. -/
def take (s : Scan) (limit : Nat) : Scan :=
  if limit ≤ s.tokens.length then ⟨s.tokens.take limit, none⟩ else s

/-- Scans `cs`, which starts at `pos`; `previous` is where the token before ends. -/
def scanFrom (file : Option String) (pos : Position) (previous : Option Nat) (cs : List Char) : Scan :=
  match cs with
  | [] => ⟨[], none⟩
  | c :: rest =>
    match _h : Lexeme.first (c :: rest) with
    | none => ⟨[], some ⟨LexFault.ofCharacter c rest, { file, start := pos.point }⟩⟩
    | some (kind, n) =>
      let lexeme := (c :: rest).take n
      let stop := pos.after lexeme
      if kind.isGap then scanFrom file stop previous ((c :: rest).drop n)
      else
        let kind := if previous = some pos.offset then kind.touching else kind
        let token : Token := { kind, lexeme := String.ofList lexeme, file, start := pos, stop }
        match token.fault? with
        | some fault => ⟨[], some ⟨fault, token.span⟩⟩
        | none => cons token (scanFrom file stop (some stop.offset) ((c :: rest).drop n))
termination_by cs.length
decreasing_by
  all_goals
    have := Lexeme.first_pos _h
    simp only [List.length_drop, List.length_cons]
    omega

end Scan

/-- Scans a source. -/
def scan (source : String) (file : Option String := none) : Scan :=
  Scan.scanFrom file {} none source.toList

end FlatScope
