/-
  The command: it reads one unit, resolves it, and reports what is wrong with it. `Command.run` is all of it but
  the reading and printing. Exit code 0 says that the unit is in order, 1 that it is not, and 2 that there is
  no text to read.
-/
import FlatScope.Listing
import FlatScope.Text.Utf8
import FlatScope.Tree.Source

namespace FlatScope.Command

/-- What the command shows besides its verdict. -/
structure Options where
  /-- Report as one JSON object instead of lines. -/
  json : Bool := false
  tokens : Bool := false
  /-- Show the canonical source of a unit that is in order. -/
  tree : Bool := false
  catalog : Bool := false
deriving DecidableEq, Repr

/-- What the command leaves behind. -/
structure Output where
  code : Nat
  out : String := ""
  err : String := ""
deriving DecidableEq, Repr

/-- Why a file cannot be read. -/
inductive ReadError
  | missing
  | undecodable (fault : Utf8.Fault)
  | failed (reason : String)
deriving DecidableEq, Repr

/-- The wording of a failure to read the file of the given name. -/
def ReadError.message (name : String) : ReadError → String
  | missing => "[Errno 2] No such file or directory: " ++ quoted name
  | undecodable fault => fault.message
  | failed reason => reason

/-- A report as a JSON object on a line of its own. -/
def payload (code : Nat) (diagnostics : List Json) : String :=
  (Json.obj [("exit_code", .int code), ("diagnostics", .arr diagnostics)]).text ++ "\n"

/-- The output for a file that cannot be read. -/
def unreadable (options : Options) (name : String) (e : ReadError) : Output :=
  let message := "cannot read source: " ++ e.message name
  if options.json then
    { code := 2,
      out := payload 2 [.obj [("phase", .str "driver"), ("message", .str message), ("severity", .str "error"),
        ("file", .str name), ("line", .null), ("column", .null)]] }
  else { code := 2, err := name ++ ":?:?: error: " ++ message ++ "\n" }

/-- A diagnostic as lines: itself and its notes. -/
def diagnosticLines (name : String) (d : Diagnostic) : List String :=
  d.format (some name) :: d.notes.map fun note => name ++ ":" ++ d.span.place ++ ": note: " ++ note

/-- The output for diagnostics, behind what is shown already. -/
def rejected (options : Options) (name shown : String) (ds : List Diagnostic) : Output :=
  if options.json then { code := 1, out := shown ++ payload 1 (ds.map fun d => d.json (some name)) }
  else { code := 1, out := shown, err := unlines (ds.flatMap (diagnosticLines name)) }

/-- A token as a line. -/
def tokenLine (t : Token) : String := t.span.place ++ "\t" ++ t.kind.code ++ "\t" ++ t.lexeme

/-- The output for a resolved unit, behind what is shown already. -/
def resolved (options : Options) (name shown : String) (r : Resolution) : Output :=
  let shown := shown ++ if options.catalog then unlines r.listing else ""
  if r.isValid then
    { code := 0,
      out := shown ++ (if options.tree then r.program.source else "")
        ++ if options.json then payload 0 [] else "" }
  else rejected options name shown (r.problems.map Problem.diagnostic)

/-- The output for a text. -/
def checked (options : Options) (name text : String) : Output :=
  match (scan text (some name)).toExcept with
  | .error e => rejected options name "" [e.diagnostic]
  | .ok tokens =>
    let shown := if options.tokens then unlines (tokens.map tokenLine) else ""
    match Program.ofTokens (some name) tokens with
    | .error e => rejected options name shown [e.diagnostic]
    | .ok p =>
      match p.resolve with
      | .error m => { code := 1, out := shown, err := m.message ++ "\n" }
      | .ok r => resolved options name shown r

/-- Runs the command on the bytes of a file, or on the reason why there are none. -/
def run (options : Options) (name : String) (content : Except ReadError (List UInt8)) : Output :=
  match content with
  | .error e => unreadable options name e
  | .ok bytes =>
    match Utf8.decode bytes with
    | .error fault => unreadable options name (.undecodable fault)
    | .ok cs => checked options name (String.ofList (normaliseNewlines cs))

end FlatScope.Command
