/-
  The terminals of the grammar as languages (`Kind.language`), and the longest match among them (`IsMunch`). The scanner
  tries the sorts of lexemes in a fixed order, and each sort takes in as much as it can. Here it is shown that this choice
  is the longest match, so that neither the order nor the way a sort is looked for matters: what is found is a match
  (`Lexeme.matches_of_first`), and where a terminal matches, something at least as long is found (`Kind.Matches.exists_first`).
  Only numbers overlap: an integer goes on as a float or a byte. A keyword is as long as the name it could have been.
-/
import FlatScope.Proofs.Layout.Lexeme
import Mathlib.Computability.Language

namespace FlatScope

open Computability Lexeme

/-! ## Terminals -/

namespace Terminal

/-- The texts of one character of a class. -/
def oneOf (p : Char → Bool) : Language Char := {text | ∃ c, p c = true ∧ text = [c]}

/-- The texts of some characters of a class, at least one. -/
def someOf (p : Char → Bool) : Language Char := oneOf p * (oneOf p)∗

/-- The language of one text. -/
def exactly (s : String) : Language Char := {text | text = s.toList}

def digits : Language Char := someOf Char.isDigit

def minus : Language Char := 1 + exactly "-"

def exponent : Language Char := (exactly "e" + exactly "E") * ((1 + (exactly "-" + exactly "+")) * digits)

/-- Floats: a point with digits behind it and perhaps an exponent, or an exponent. -/
def real : Language Char :=
  minus * (digits * (exactly "." * (digits * (1 + exponent)))) + minus * (digits * exponent)

/-- Bytes in digits, without what the terminal wants to see behind them. -/
def byte : Language Char := digits * exactly "b"

def integer : Language Char := minus * digits

def word : Language Char := oneOf Char.isAlpha * (oneOf isWordChar)∗

def builtin : Language Char := exactly "_" * word

/-- A backslash and one of seven characters, or any character but a backslash, a quote and a newline. -/
def char : Language Char :=
  exactly "'" * ((exactly "\\" * oneOf (fun c => ['n', 't', 'r', '0', '\\', '\'', '"'].contains c)
    + oneOf (fun c => not (['\\', '\'', '\n'].contains c))) * exactly "'")

def space : Language Char := someOf isSpace

def comment : Language Char := exactly "//" * (oneOf fun c => c ≠ '\n')∗

end Terminal

namespace Kind

/-- The text of a terminal that has only one. -/
def fixed? : Kind → Option String
  | constKw => "const"
  | varKw => "var"
  | structKw => "struct"
  | funKw => "fun"
  | ifKw => "if"
  | elseKw => "else"
  | whileKw => "while"
  | breakKw => "break"
  | continueKw => "continue"
  | labelKw => "label"
  | gotoKw => "goto"
  | intKw => "int"
  | floatKw => "float"
  | byteKw => "byte"
  | voidKw => "void"
  | assign => ":="
  | comma => ","
  | semicolon => ";"
  | openBrace => "\x7b"
  | closeBrace => "\x7d"
  | closeBracket => "]"
  | closeParen => ")"
  | spacedBracket => "["
  | spacedParen => "("
  | spacedStar => "*"
  | _ => none

/-- The texts of a terminal. The kinds of openers that touch the token before them have none: these are told apart
when the token is made. -/
def language : Kind → Language Char
  | name => Terminal.word
  | builtin => Terminal.builtin
  | real => Terminal.real
  | byte => Terminal.byte
  | integer => Terminal.integer
  | char => Terminal.char
  | space => Terminal.space
  | comment => Terminal.comment
  | kind => (kind.fixed?.map Terminal.exactly).getD 0

/-- The terminal of a kind matches so many characters at the start of a text. That of a byte in digits looks ahead,
too: no word may go on behind it. -/
structure Matches (kind : Kind) (cs : List Char) (n : Nat) : Prop where
  length : n ≤ cs.length
  text : cs.take n ∈ kind.language
  ahead : kind = .byte → StopsRun isWordChar (cs.drop n)

end Kind

/-- A match is the longest one of all terminals at the start of a text, and its kind the only one of this length.
Beside a keyword there is the name of the same spelling, and the keyword is chosen. -/
structure IsMunch (cs : List Char) (kind : Kind) (n : Nat) : Prop where
  isMatch : kind.Matches cs n
  longest : ∀ (other : Kind) (m : Nat), other.Matches cs m → m ≤ n
  unique : ∀ other : Kind, other.Matches cs n → other = kind ∨ other = .name ∧ Kind.ofKeyword? (String.ofList (cs.take n)) = some kind

/-! ## The texts of terminals -/

namespace Terminal

variable {p : Char → Bool} {text : List Char}

theorem mem_oneOf : text ∈ oneOf p ↔ ∃ c, p c = true ∧ text = [c] := Iff.rfl

theorem mem_exactly {s : String} : text ∈ exactly s ↔ text = s.toList := Iff.rfl

theorem mem_kstar_oneOf : text ∈ (oneOf p)∗ ↔ ∀ c ∈ text, p c = true := by
  rw [Language.mem_kstar]
  constructor
  · rintro ⟨pieces, rfl, h⟩ c hc
    obtain ⟨piece, hpiece, hc⟩ := List.mem_flatten.mp hc
    obtain ⟨d, hd, rfl⟩ := h piece hpiece
    rwa [List.mem_singleton.mp hc]
  · intro h
    refine ⟨text.map ([·]), by rw [← List.flatMap_def, List.flatMap_singleton'], fun piece hpiece => ?_⟩
    obtain ⟨c, hc, rfl⟩ := List.mem_map.mp hpiece
    exact ⟨c, h c hc, rfl⟩

theorem mem_someOf : text ∈ someOf p ↔ text ≠ [] ∧ ∀ c ∈ text, p c = true := by
  unfold someOf
  simp only [Language.mem_mul, mem_oneOf, mem_kstar_oneOf]
  constructor
  · rintro ⟨_, ⟨c, hc, rfl⟩, tail, htail, rfl⟩
    exact ⟨List.cons_ne_nil _ _, List.forall_mem_cons.mpr ⟨hc, htail⟩⟩
  · rintro ⟨hne, h⟩
    cases text with
    | nil => exact absurd rfl hne
    | cons c tail =>
      obtain ⟨hc, htail⟩ := List.forall_mem_cons.mp h
      exact ⟨[c], ⟨c, hc, rfl⟩, tail, htail, rfl⟩

theorem mem_digits : text ∈ digits ↔ Decimal.isDigits text = true := mem_someOf.trans isDigits_iff.symm

theorem mem_minus : text ∈ minus ↔ IsMinus text := Iff.rfl

theorem mem_exponent : text ∈ exponent ↔ IsExponent text := by
  unfold exponent
  simp only [Language.mem_mul, Language.mem_add, Language.mem_one, mem_exactly, mem_digits]
  constructor
  · rintro ⟨letter, hletter, _, ⟨sign, hsign, ds, hd, rfl⟩, rfl⟩
    have hsign : IsSign sign := hsign
    rcases hletter with rfl | rfl
    · exact @IsExponent.intro 'e' sign ds (.inl rfl) hsign hd
    · exact @IsExponent.intro 'E' sign ds (.inr rfl) hsign hd
  · rintro ⟨he, hs, hd⟩
    refine ⟨[_], ?_, _, ⟨_, hs, _, hd, rfl⟩, rfl⟩
    rcases he with rfl | rfl
    · exact .inl rfl
    · exact .inr rfl

theorem mem_real : text ∈ real ↔ IsReal text := by
  unfold real
  simp only [Language.mem_mul, Language.mem_add, Language.mem_one, mem_minus, mem_digits, mem_exactly, mem_exponent]
  constructor
  · rintro (⟨_, hm, _, ⟨_, hd, _, ⟨_, rfl, _, ⟨fs, hf, ex, hex, rfl⟩, rfl⟩, rfl⟩, rfl⟩ | ⟨_, hm, _, ⟨_, hd, _, he, rfl⟩, rfl⟩)
    · rcases hex with rfl | hex
      · rw [List.append_nil]
        exact .intro hm hd (.point hf)
      · exact .intro hm hd (@IsFraction.pointExponent fs ex hf hex)
    · exact .intro hm hd (.exponent he)
  · rintro ⟨hm, hd, hf⟩
    cases hf with
    | point hf => exact .inl ⟨_, hm, _, ⟨_, hd, _, ⟨['.'], rfl, _, ⟨_, hf, [], .inl rfl, List.append_nil _⟩, rfl⟩, rfl⟩, rfl⟩
    | pointExponent hf he => exact .inl ⟨_, hm, _, ⟨_, hd, _, ⟨['.'], rfl, _, ⟨_, hf, _, .inr he, rfl⟩, rfl⟩, rfl⟩, rfl⟩
    | exponent he => exact .inr ⟨_, hm, _, ⟨_, hd, _, he, rfl⟩, rfl⟩

theorem mem_byte : text ∈ byte ↔ IsByte text := by
  unfold byte
  simp only [Language.mem_mul, mem_digits, mem_exactly]
  constructor
  · rintro ⟨ds, hd, _, rfl, rfl⟩
    exact .intro hd
  · rintro ⟨hd⟩
    exact ⟨_, hd, _, rfl, rfl⟩

theorem mem_integer : text ∈ integer ↔ IsInteger text := by
  unfold integer
  simp only [Language.mem_mul, mem_minus, mem_digits]
  constructor
  · rintro ⟨_, hm, _, hd, rfl⟩
    exact .intro hm hd
  · rintro ⟨hm, hd⟩
    exact ⟨_, hm, _, hd, rfl⟩

theorem mem_word : text ∈ word ↔ IsWord text := by
  unfold word
  simp only [Language.mem_mul, mem_oneOf, mem_kstar_oneOf]
  constructor
  · rintro ⟨_, ⟨c, hc, rfl⟩, tail, ht, rfl⟩
    exact .intro hc ht
  · rintro ⟨hc, ht⟩
    exact ⟨_, ⟨_, hc, rfl⟩, _, ht, rfl⟩

theorem mem_builtin : text ∈ builtin ↔ ∃ xs, text = '_' :: xs ∧ IsWord xs := by
  unfold builtin
  simp only [Language.mem_mul, mem_exactly, mem_word]
  constructor
  · rintro ⟨_, rfl, xs, h, rfl⟩
    exact ⟨xs, rfl, h⟩
  · rintro ⟨xs, rfl, h⟩
    exact ⟨['_'], rfl, xs, h, rfl⟩

theorem mem_space : text ∈ space ↔ text ≠ [] ∧ ∀ c ∈ text, isSpace c = true := mem_someOf

theorem mem_comment : text ∈ comment ↔ ∃ body, text = '/' :: '/' :: body ∧ ∀ c ∈ body, c ≠ '\n' := by
  unfold comment
  simp only [Language.mem_mul, mem_exactly, mem_kstar_oneOf, decide_eq_true_eq]
  constructor
  · rintro ⟨_, rfl, body, h, rfl⟩
    exact ⟨body, rfl, h⟩
  · rintro ⟨body, rfl, h⟩
    exact ⟨['/', '/'], rfl, body, h, rfl⟩

/-- The characters of escapes are those that stand for something. -/
theorem isSome_escape (c : Char) : (escapes.lookup c).isSome = ['n', 't', 'r', '0', '\\', '\'', '"'].contains c := by
  simp only [escapes, List.lookup_cons, List.lookup_nil, List.contains_cons, List.contains_nil]
  repeat' split
  all_goals simp_all

theorem mem_char : text ∈ char ↔ char? text = some text.length := by
  unfold char
  rw [char?_eq_some_iff]
  simp only [Language.mem_mul, Language.mem_add, mem_exactly, mem_oneOf, ← isSome_escape]
  constructor
  · rintro ⟨_, rfl, _, ⟨_, ⟨_, rfl, _, ⟨c, hc, rfl⟩, rfl⟩ | ⟨c, hc, rfl⟩, _, rfl, rfl⟩, rfl⟩
    · exact .inl ⟨c, [], rfl, hc, rfl⟩
    · refine .inr ⟨c, [], rfl, ?_, rfl⟩
      simpa using hc
  · rintro (⟨c, tail, rfl, hc, hl⟩ | ⟨c, tail, rfl, hc, hl⟩)
    · obtain rfl : tail = [] := List.length_eq_zero_iff.mp (by simpa using hl)
      exact ⟨['\''], rfl, _, ⟨['\\', c], .inl ⟨['\\'], rfl, [c], ⟨c, hc, rfl⟩, rfl⟩, ['\''], rfl, rfl⟩, rfl⟩
    · obtain rfl : tail = [] := List.length_eq_zero_iff.mp (by simpa using hl)
      exact ⟨['\''], rfl, _, ⟨[c], .inr ⟨c, by simpa using hc, rfl⟩, ['\''], rfl, rfl⟩, rfl⟩

end Terminal

/-! ## What the sorts reach -/

namespace Lexeme

variable {p : Char → Bool} {xs cs : List Char} {kind : Kind} {n : Nat}

/-- Something is found, and it is at least so long. -/
def Reaches (found : Option Nat) (n : Nat) : Prop := ∃ m, found = some m ∧ n ≤ m

theorem le_run (h : ∀ c ∈ xs, p c = true) (rest : List Char) : xs.length ≤ run p (xs ++ rest) := by
  unfold run
  rw [List.takeWhile_append_of_pos h, List.length_append]
  omega

theorem reaches_run? (hne : xs ≠ []) (h : ∀ c ∈ xs, p c = true) (rest : List Char) :
    Reaches (run? p (xs ++ rest)) xs.length := by
  have hle := le_run h rest
  have hpos := List.length_pos_iff.mpr hne
  refine ⟨run p (xs ++ rest), ?_, hle⟩
  rw [run?, if_neg (by omega)]

theorem reaches_digits (h : Decimal.isDigits xs = true) (rest : List Char) :
    Reaches (run? Char.isDigit (xs ++ rest)) xs.length := by
  obtain ⟨hne, hd⟩ := isDigits_iff.mp h
  exact reaches_run? hne hd rest

theorem reaches_exponent? (h : IsExponent xs) (rest : List Char) : Reaches (exponent? (xs ++ rest)) xs.length := by
  obtain @⟨e, sg, ds, he, hs, hd⟩ := h
  obtain ⟨m, hm, hle⟩ := reaches_digits hd rest
  refine ⟨1 + sg.length + m, ?_, ?_⟩
  · rw [List.cons_append, List.append_assoc, exponent?, if_pos he, sign_append hs hd, List.drop_left, hm, Option.map_some]
  · rw [List.length_cons, List.length_append]
    omega

theorem reaches_fraction? (h : IsFraction xs) (rest : List Char) : Reaches (fraction? (xs ++ rest)) xs.length := by
  cases h with
  | @point ds hd =>
    obtain ⟨m, hm, hle⟩ := reaches_digits hd rest
    refine ⟨1 + m + (exponent? ((ds ++ rest).drop m)).getD 0, ?_, ?_⟩
    · rw [List.cons_append, fraction?, hm, Option.map_some]
    · rw [List.length_cons]
      omega
  | @pointExponent ds ex hd he =>
    -- the letter of the exponent ends the digits
    obtain ⟨m, hm, hle⟩ := reaches_exponent? he rest
    refine ⟨1 + ds.length + m, ?_, ?_⟩
    · rw [List.cons_append, fraction?, List.append_assoc, digits_append hd he.stopsDigits, Option.map_some, List.drop_left, hm,
        Option.getD_some]
    · rw [List.length_cons, List.length_append]
      omega
  | exponent he =>
    have hreach := reaches_exponent? he rest
    obtain ⟨he, hs, hd⟩ := he
    rw [List.cons_append] at hreach ⊢
    rwa [fraction?_of_ne (by rcases he with rfl | rfl <;> decide)]

theorem reaches_real? (h : IsReal xs) (rest : List Char) : Reaches (real? (xs ++ rest)) xs.length := by
  obtain @⟨m, ds, fr, hm, hd, hf⟩ := h
  obtain ⟨k, hk, hle⟩ := reaches_fraction? hf rest
  have hdigits : run? Char.isDigit ((m ++ (ds ++ (fr ++ rest))).drop m.length) = some ds.length := by
    rw [List.drop_left]
    exact digits_append hd hf.stopsDigits
  have hfraction : fraction? ((m ++ (ds ++ (fr ++ rest))).drop (m.length + ds.length)) = some k := by
    rw [← List.drop_drop, List.drop_left, List.drop_left]
    exact hk
  refine ⟨m.length + ds.length + k, ?_, ?_⟩
  · rw [real?, List.append_assoc, List.append_assoc, minus_append hm hd, hdigits]
    show (fraction? _).bind _ = _
    rw [hfraction]
    rfl
  · rw [List.length_append, List.length_append]
    omega

theorem reaches_integer? (h : IsInteger xs) (rest : List Char) : Reaches (integer? (xs ++ rest)) xs.length := by
  obtain @⟨m, ds, hm, hd⟩ := h
  obtain ⟨k, hk, hle⟩ := reaches_digits hd rest
  refine ⟨m.length + k, ?_, ?_⟩
  · rw [integer?, List.append_assoc, minus_append hm hd, List.drop_left, hk, Option.map_some]
  · rw [List.length_append]
    omega

theorem reaches_word? (h : IsWord xs) (rest : List Char) : Reaches (word? (xs ++ rest)) xs.length := by
  obtain @⟨c, tail, hc, ht⟩ := h
  have hle := le_run ht rest
  refine ⟨1 + run isWordChar (tail ++ rest), ?_, ?_⟩
  · rw [List.cons_append, word?, if_pos hc]
  · rw [List.length_cons]
    omega

/-- A float is longer than the integer it begins with. -/
theorem integer?_lt_real? (h : real? cs = some n) : ∃ m, integer? cs = some m ∧ m < n := by
  obtain ⟨a, ha, h⟩ := Option.bind_eq_some_iff.mp h
  obtain ⟨b, hb, h⟩ := Option.bind_eq_some_iff.mp h
  obtain rfl := Option.some.inj h
  have hpos := fraction?_pos hb
  refine ⟨minus cs + a, ?_, by omega⟩
  rw [integer?, ha, Option.map_some]

/-- A byte is longer than the integer it begins with. -/
theorem integer?_lt_byte? (h : byte? cs = some n) : ∃ m, integer? cs = some m ∧ m < n := by
  obtain ⟨ds, tail, rfl, hd, -, rfl⟩ := byte?_eq_some_iff.mp h
  refine ⟨ds.length, ?_, by omega⟩
  rw [integer?, minus_of_isDigits hd, List.drop_zero, digits_append hd (.cons rfl), Option.map_some, Nat.zero_add]

/-! ## What is found by one sort is found -/

theorem first_of_word? (h : word? cs = some n) : first cs = some (wordKind (cs.take n), n) := by
  cases cs with
  | nil => cases h
  | cons c tail =>
    have hc : c.isAlpha = true := by
      by_contra hc
      rw [word?, if_neg hc] at h
      cases h
    rw [first_of_stopsRun (minus_eq_zero (by rintro rfl; cases hc)) (.cons (isDigit_of_isAlpha hc)), h]

theorem first_of_builtin? (h : builtin? cs = some n) : first cs = some (.builtin, n) := by
  cases cs with
  | nil => cases h
  | cons c tail =>
    by_cases hc : c = '_'
    · subst hc
      rw [first_of_stopsRun rfl (.cons rfl), show word? ('_' :: tail) = none from rfl, h]
    · rw [builtin?_of_ne hc] at h
      cases h

theorem first_of_char? (h : char? cs = some n) : first cs = some (.char, n) := by
  cases cs with
  | nil => cases h
  | cons c tail =>
    by_cases hc : c = '\''
    · subst hc
      rw [first_quote, h, Option.map_some]
    · rw [char?_of_ne hc] at h
      cases h

/-- A number begins with an integer. If this is all, it is found as an integer. -/
theorem first_of_integer? (h : integer? cs = some n) :
    first cs = some (.integer, n) ∨ ∃ found m, first cs = some (found, m) ∧ n < m := by
  unfold first
  cases hr : real? cs with
  | some m =>
    obtain ⟨k, hk, hlt⟩ := integer?_lt_real? hr
    obtain rfl := Option.some.inj (h.symm.trans hk)
    exact .inr ⟨.real, m, rfl, hlt⟩
  | none =>
  cases hb : byte? cs with
  | some m =>
    obtain ⟨k, hk, hlt⟩ := integer?_lt_byte? hb
    obtain rfl := Option.some.inj (h.symm.trans hk)
    exact .inr ⟨.byte, m, rfl, hlt⟩
  | none =>
    rw [h]
    exact .inl rfl

/-! ## What is found is a match -/

theorem Kind.language_of_fixed? {s : String} (h : kind.fixed? = some s) : kind.language = Terminal.exactly s := by
  cases kind <;> cases h <;> rfl

theorem fixed?_of_keyword {s : String} (h : Kind.ofKeyword? s = some kind) : kind.fixed? = some s := by
  unfold Kind.ofKeyword? at h
  split at h <;> cases h <;> rfl

theorem mem_of_mark? (h : mark? cs = some (kind, n)) : cs.take n ∈ kind.language ∧ kind ≠ .byte := by
  unfold mark? at h
  split at h
  case h_11 => cases h
  all_goals
    cases h
    exact ⟨by rw [Kind.language_of_fixed? rfl]; rfl, nofun⟩

theorem mem_wordKind (h : IsWord xs) : xs ∈ (wordKind xs).language ∧ wordKind xs ≠ .byte := by
  unfold wordKind
  cases hk : Kind.ofKeyword? (String.ofList xs) with
  | none => exact ⟨Terminal.mem_word.mpr h, nofun⟩
  | some kind =>
    have hf := fixed?_of_keyword hk
    refine ⟨?_, ?_⟩
    · rw [Option.getD_some, Kind.language_of_fixed? hf, Terminal.mem_exactly, String.toList_ofList]
    · rintro rfl
      cases hf

/-- What the scanner finds is a match. -/
theorem matches_of_first (h : first cs = some (kind, n)) : kind.Matches cs n := by
  have hlength := first_le h
  unfold first at h
  split at h
  · cases h
    exact ⟨hlength, Terminal.mem_real.mpr (real?_spelled ‹_›), nofun⟩
  split at h
  · cases h
    rename_i hb
    refine ⟨hlength, Terminal.mem_byte.mpr (byte?_spelled hb), fun _ => ?_⟩
    obtain ⟨ds, tail, rfl, -, htail, rfl⟩ := byte?_eq_some_iff.mp hb
    have hdrop : (ds ++ 'b' :: tail).drop (ds.length + 1) = tail := by
      rw [← List.drop_drop, List.drop_left, List.drop_one, List.tail_cons]
    rwa [hdrop]
  split at h
  · cases h
    exact ⟨hlength, Terminal.mem_integer.mpr (integer?_spelled ‹_›), nofun⟩
  split at h
  · cases h
    obtain ⟨htext, hne⟩ := mem_wordKind (word?_spelled ‹_›)
    exact ⟨hlength, htext, fun he => absurd he hne⟩
  split at h
  · cases h
    exact ⟨hlength, Terminal.mem_builtin.mpr (builtin?_spelled ‹_›), nofun⟩
  split at h
  · cases h
    exact ⟨hlength, Terminal.mem_char.mpr (char?_spelled ‹_›), nofun⟩
  split at h
  · cases h
    refine ⟨hlength, Terminal.mem_comment.mpr ?_, nofun⟩
    rename_i hc
    unfold comment? at hc
    split at hc
    · obtain rfl := Option.some.inj hc
      refine ⟨_, by rw [Nat.add_comm, List.take_succ_cons, List.take_succ_cons, take_run], fun c hc => ?_⟩
      simpa using List.mem_takeWhile_imp hc
    · cases hc
  split at h
  · cases h
    exact ⟨hlength, Terminal.mem_space.mpr (run?_spelled ‹_›), nofun⟩
  · obtain ⟨htext, hne⟩ := mem_of_mark? h
    exact ⟨hlength, htext, fun he => absurd he hne⟩

/-! ## What matches is found -/

/-- A terminal with only one text is a keyword or a mark. -/
theorem fixed?_cases {s : String} (h : kind.fixed? = some s) : (IsWord s.toList ∧ Kind.ofKeyword? s = some kind)
    ∨ ∀ rest, first (s.toList ++ rest) = some (kind, s.toList.length) := by
  cases kind <;> cases h
  all_goals
    first
      | exact .inl ⟨.intro rfl (List.all_eq_true.mp rfl), rfl⟩
      | exact .inr fun rest => first_mark rfl rfl

/-- Something is found where a terminal matches a text in front of more text. It is longer, or as long and of the same
kind, or the keyword that is spelled like the name. -/
def IsMet (kind : Kind) (text rest : List Char) : Prop :=
  ∃ found m, first (text ++ rest) = some (found, m) ∧ text.length ≤ m
    ∧ (m = text.length → kind = found ∨ kind = .name ∧ Kind.ofKeyword? (String.ofList text) = some found)

variable {rest : List Char}

theorem isMet_of_eq (h : first (xs ++ rest) = some (kind, n)) (hle : xs.length ≤ n) : IsMet kind xs rest :=
  ⟨kind, n, h, hle, fun _ => .inl rfl⟩

theorem isMet_real (h : IsReal xs) : IsMet .real xs rest := by
  obtain ⟨m, hm, hle⟩ := reaches_real? h rest
  refine isMet_of_eq ?_ hle
  rw [first, hm]

theorem isMet_integer (h : IsInteger xs) : IsMet .integer xs rest := by
  obtain ⟨m, hm, hle⟩ := reaches_integer? h rest
  rcases first_of_integer? hm with hfirst | ⟨found, k, hfirst, hlt⟩
  · exact isMet_of_eq hfirst hle
  · exact ⟨found, k, hfirst, by omega, fun he => by omega⟩

theorem isMet_name (h : IsWord xs) : IsMet .name xs rest := by
  obtain ⟨m, hm, hle⟩ := reaches_word? h rest
  refine ⟨_, m, first_of_word? hm, hle, ?_⟩
  rintro rfl
  rw [List.take_left, wordKind]
  cases hk : Kind.ofKeyword? (String.ofList xs) with
  | none => exact .inl rfl
  | some found => exact .inr ⟨rfl, rfl⟩

theorem isMet_builtin (h : IsWord xs) : IsMet .builtin ('_' :: xs) rest := by
  obtain ⟨m, hm, hle⟩ := reaches_word? h rest
  have hb : builtin? ('_' :: xs ++ rest) = some (1 + m) := by
    rw [List.cons_append, builtin?, hm, Option.map_some]
  refine isMet_of_eq (first_of_builtin? hb) ?_
  rw [List.length_cons]
  omega

theorem isMet_space (hne : xs ≠ []) (h : ∀ c ∈ xs, isSpace c = true) : IsMet .space xs rest := by
  cases xs with
  | nil => exact absurd rfl hne
  | cons c tail =>
    obtain ⟨hc, htail⟩ := List.forall_mem_cons.mp h
    have hle := le_run htail rest
    have hfirst : first (c :: tail ++ rest) = some (.space, run isSpace (tail ++ rest) + 1) := first_space hc
    exact isMet_of_eq hfirst (Nat.succ_le_succ hle)

theorem isMet_comment (h : ∀ c ∈ xs, c ≠ '\n') : IsMet .comment ('/' :: '/' :: xs) rest := by
  have hle := le_run (p := fun c => c ≠ '\n') (fun c hc => decide_eq_true (h c hc)) rest
  have hfirst : first ('/' :: '/' :: xs ++ rest) = some (.comment, 2 + run (· ≠ '\n') (xs ++ rest)) := first_slash _
  refine isMet_of_eq hfirst ?_
  rw [List.length_cons, List.length_cons]
  omega

theorem isMet_fixed {s : String} (h : kind.fixed? = some s) : IsMet kind s.toList rest := by
  rcases fixed?_cases h with ⟨hw, hk⟩ | hfirst
  · obtain ⟨m, hm, hle⟩ := reaches_word? hw rest
    refine ⟨_, m, first_of_word? hm, hle, ?_⟩
    rintro rfl
    rw [List.take_left, wordKind, String.ofList_toList, hk]
    exact .inl rfl
  · exact isMet_of_eq (hfirst rest) (Nat.le_refl _)

theorem isMet (h : xs ∈ kind.language) (hahead : kind = .byte → StopsRun isWordChar rest) : IsMet kind xs rest := by
  cases kind
  case name => exact isMet_name (Terminal.mem_word.mp h)
  case builtin =>
    obtain ⟨xs, rfl, hw⟩ := Terminal.mem_builtin.mp h
    exact isMet_builtin hw
  case real => exact isMet_real (Terminal.mem_real.mp h)
  case byte => exact isMet_of_eq (first_byte (Terminal.mem_byte.mp h) (hahead rfl)) (Nat.le_refl _)
  case integer => exact isMet_integer (Terminal.mem_integer.mp h)
  case char => exact isMet_of_eq (first_of_char? (char?_append (Terminal.mem_char.mp h) rest)) (Nat.le_refl _)
  case space =>
    obtain ⟨hne, hs⟩ := Terminal.mem_space.mp h
    exact isMet_space hne hs
  case comment =>
    obtain ⟨xs, rfl, hc⟩ := Terminal.mem_comment.mp h
    exact isMet_comment hc
  -- no text is matched as an opener that touches, and none as the end of the input
  case bracket | paren | star | endOfInput => exact absurd h (Language.notMem_zero _)
  all_goals
    rw [Kind.language_of_fixed? rfl, Terminal.mem_exactly] at h
    rw [h]
    exact isMet_fixed rfl

end Lexeme

/-- Where a terminal matches, something is found that is longer, or as long and the same, or the keyword that is spelled like the name. -/
theorem Kind.Matches.exists_first {kind : Kind} {cs : List Char} {n : Nat} (h : kind.Matches cs n) :
    ∃ found m, first cs = some (found, m) ∧ n ≤ m
      ∧ (m = n → kind = found ∨ kind = .name ∧ Kind.ofKeyword? (String.ofList (cs.take n)) = some found) := by
  have hmet := isMet h.text h.ahead
  unfold IsMet at hmet
  rwa [List.take_append_drop, List.length_take_of_le h.length] at hmet

namespace IsMunch

variable {cs : List Char} {kind : Kind} {n : Nat}

theorem of_first (h : first cs = some (kind, n)) : IsMunch cs kind n where
  isMatch := matches_of_first h
  longest := by
    intro other m hm
    obtain ⟨found, k, hk, hle, -⟩ := hm.exists_first
    cases h.symm.trans hk
    exact hle
  unique := by
    intro other hother
    obtain ⟨found, k, hk, -, hsame⟩ := hother.exists_first
    cases h.symm.trans hk
    exact hsame rfl

/-- The longest match is found. -/
theorem first (h : IsMunch cs kind n) : Lexeme.first cs = some (kind, n) := by
  obtain ⟨found, m, hm, hle, hsame⟩ := h.isMatch.exists_first
  have hfound := matches_of_first hm
  obtain rfl : m = n := Nat.le_antisymm (h.longest found m hfound) hle
  rcases hsame rfl with rfl | ⟨rfl, -⟩
  · exact hm
  · -- a name that spells a keyword is not the only match
    rcases h.unique found hfound with rfl | ⟨rfl, -⟩
    · exact hm
    · exact hm

end IsMunch

namespace Lexeme

variable {cs : List Char} {kind : Kind} {n : Nat}

theorem first_eq_some_iff : first cs = some (kind, n) ↔ IsMunch cs kind n := ⟨.of_first, IsMunch.first⟩

/-- A word behind a byte in digits is in the way of its match, and an exponent without digits is none. -/
example : first "12bc".toList = some (.integer, 2) ∧ first "-12b".toList = some (.integer, 3) ∧ first "1e+".toList = some (.integer, 1) := by
  decide

theorem first_eq_none_iff : first cs = none ↔ ∀ (kind : Kind) (n : Nat), ¬kind.Matches cs n := by
  constructor
  · intro h kind n hmatch
    obtain ⟨found, m, hm, -⟩ := hmatch.exists_first
    cases h.symm.trans hm
  · intro h
    cases hfirst : first cs with
    | none => rfl
    | some found => exact absurd (matches_of_first hfirst) (h found.1 found.2)

end Lexeme

end FlatScope
