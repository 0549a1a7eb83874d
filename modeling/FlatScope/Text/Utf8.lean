/-
  Strict UTF-8. `decode` reads all of a byte sequence or names the first fault: where it starts, how many
  bytes belong to it and what is wrong. Overlong forms, surrogates and values past U+10FFFF are refused at the
  first byte that rules them out.
-/
import FlatScope.Text.Quoted

namespace FlatScope.Utf8

/-- What can be wrong with a byte sequence. -/
inductive Reason
  | invalidStart
  | invalidContinuation
  | unexpectedEnd
deriving DecidableEq, Repr

/-- The first place at which a byte sequence is not UTF-8. -/
structure Fault where
  start : Nat
  length : Nat
  first : UInt8
  reason : Reason
deriving DecidableEq, Repr

/-- The wording of a reason. -/
def Reason.text : Reason → String
  | .invalidStart => "invalid start byte"
  | .invalidContinuation => "invalid continuation byte"
  | .unexpectedEnd => "unexpected end of data"

/-- The wording of a fault. A fault of one byte shows the byte, a longer one the places of its first and
last byte. -/
def Fault.message (f : Fault) : String :=
  "'utf-8' codec can't decode " ++
    (if f.length = 1 then s!"byte 0x{hex 2 f.first.toNat} in position {f.start}"
     else s!"bytes in position {f.start}-{f.start + f.length - 1}") ++
    ": " ++ f.reason.text

/-- How many continuation bytes a first byte asks for, with the range of the first of them. -/
def lead (b : UInt8) : Option (Nat × UInt8 × UInt8) :=
  if b < 0x80 then some (0, 0x80, 0xBF)
  else if b < 0xC2 then none
  else if b < 0xE0 then some (1, 0x80, 0xBF)
  else if b = 0xE0 then some (2, 0xA0, 0xBF)
  else if b = 0xED then some (2, 0x80, 0x9F)
  else if b < 0xF0 then some (2, 0x80, 0xBF)
  else if b = 0xF0 then some (3, 0x90, 0xBF)
  else if b < 0xF4 then some (3, 0x80, 0xBF)
  else if b = 0xF4 then some (3, 0x80, 0x8F)
  else none

/-- The bits a first byte contributes, when `more` bytes follow it. -/
def leadBits (more : Nat) (b : UInt8) : Nat :=
  match more with
  | 0 => b.toNat
  | 1 => b.toNat % 0x20
  | 2 => b.toNat % 0x10
  | _ => b.toNat % 0x08

/-- Where the reader stands: between characters, or inside one that started `taken` bytes ago at `first` and
wants `more` further bytes, the next of them between `low` and `high`. -/
inductive State
  | between
  | inside (first : UInt8) (taken more : Nat) (low high : UInt8) (bits : Nat)

/-- Reads on from a state, at the given offset. The characters read so far come in reverse order. -/
def read (offset : Nat) (chars : List Char) : State → List UInt8 → Except Fault (List Char)
  | .between, [] => .ok chars.reverse
  | .inside first taken _ _ _ _, [] => .error ⟨offset - taken, taken, first, .unexpectedEnd⟩
  | .between, b :: bs =>
    match lead b with
    | none => .error ⟨offset, 1, b, .invalidStart⟩
    | some (0, _, _) => read (offset + 1) (Char.ofNat b.toNat :: chars) .between bs
    | some (more, low, high) => read (offset + 1) chars (.inside b 1 more low high (leadBits more b)) bs
  | .inside first taken more low high bits, b :: bs =>
    if b < low ∨ high < b then .error ⟨offset - taken, taken, first, .invalidContinuation⟩
    else
      let bits := bits * 0x40 + b.toNat % 0x40
      if more ≤ 1 then read (offset + 1) (Char.ofNat bits :: chars) .between bs
      else read (offset + 1) chars (.inside first (taken + 1) (more - 1) 0x80 0xBF bits) bs

/-- The characters a byte sequence stands for, or its first fault. -/
def decode (bytes : List UInt8) : Except Fault (List Char) := read 0 [] .between bytes

end FlatScope.Utf8
