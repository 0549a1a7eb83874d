/-
  The command line: arguments, the file, and the two output streams.
-/
import FlatScope.Command

open FlatScope

/-- How the command is called. -/
def usage : String := "usage: flatscope [--json] [--tokens] [--dump-ast] [--dump-catalog] source\n"

/-- The options and the file that arguments name, if they are in order. -/
def readArguments (options : Command.Options) (file : Option String) :
    List String → Option (Command.Options × String)
  | [] => file.map (options, ·)
  | "--json" :: rest => readArguments { options with json := true } file rest
  | "--tokens" :: rest => readArguments { options with tokens := true } file rest
  | "--dump-ast" :: rest => readArguments { options with tree := true } file rest
  | "--dump-catalog" :: rest => readArguments { options with catalog := true } file rest
  | argument :: rest =>
    if argument.startsWith "-" || file.isSome then none else readArguments options (some argument) rest

/-- The bytes of a file, or why there are none. -/
def readContent (file : String) : IO (Except Command.ReadError (List UInt8)) := do
  try
    let bytes ← IO.FS.readBinFile file
    return .ok bytes.toList
  catch e =>
    match e with
    | .noFileOrDirectory .. => return .error .missing
    | e => return .error (.failed (toString e))

def main (arguments : List String) : IO UInt32 := do
  match readArguments {} none arguments with
  | none =>
    IO.eprint usage
    return 2
  | some (options, file) =>
    let output := Command.run options file (← readContent file)
    IO.print output.out
    IO.eprint output.err
    return output.code.toUInt32
