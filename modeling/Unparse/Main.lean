import Unparse.Command

/-! The program: the words of the command line, the files and the streams of the machine. -/
namespace Unparse.Main

/-- The variable of the environment that names a dialect. -/
def variableName : String := "ASTKIT_PYTHON_VERSION"

def usage : String :=
  "Usage: astkit [OPTIONS] <render|kinds|adjust|count> [OPTIONS] [TREE]"

def usageCode : UInt32 := 2

def fault : IO.Error → FileFault
  | .noFileOrDirectory .. => .missing
  | _ => .other

def attempt {A : Type} (action : IO A) : IO (Except FileFault A) := do
  try
    return .ok (← action)
  catch e =>
    return .error (fault e)

partial def readAll (stream : IO.FS.Stream) (found : ByteArray) : IO ByteArray := do
  let chunk ← stream.read 65536
  if chunk.isEmpty then return found else readAll stream (found ++ chunk)

def host : Host IO where
  read path := attempt (IO.FS.readFile path)
  write path text := attempt (IO.FS.writeFile path text)
  input := return String.fromUTF8? (← readAll (← IO.getStdin) .empty)
  setting := IO.getEnv variableName

def perform (inv : Invocation) : IO UInt32 := do
  let ending := Command.ending (← (Command.run host inv).run)
  IO.print ending.output
  IO.eprint ending.errors
  return ending.code.toUInt32

end Unparse.Main

def main (words : List String) : IO UInt32 := do
  match Unparse.Arguments.parse words with
  | .job inv => Unparse.Main.perform inv
  | .help =>
    IO.println Unparse.Main.usage
    return 0
  | .refused =>
    IO.eprintln Unparse.Main.usage
    return Unparse.Main.usageCode
