import Unparse.Failure

/-! What a job asks of the place it runs in: files, the standard input, the environment. -/
namespace Unparse

/-- Why a file cannot be read or written. -/
inductive FileFault where
  | missing
  | other
deriving DecidableEq, Repr

def FileFault.failure (path : String) : FileFault → Failure
  | missing => .fileNotFound path
  | other => .io

structure Host (m : Type → Type) where
  read : String → m (Except FileFault String)
  write : String → String → m (Except FileFault Unit)
  /-- All of the standard input, if it is text. -/
  input : m (Option String)
  /-- The dialect that the environment asks for. -/
  setting : m (Option String)

namespace Host

variable {m : Type → Type} [Monad m]

def load (host : Host m) (path : String) : ExceptT Failure m String := do
  match ← host.read path with
  | .ok text => return text
  | .error fault => throw (fault.failure path)

def save (host : Host m) (path text : String) : ExceptT Failure m Unit := do
  match ← host.write path text with
  | .ok _ => return
  | .error fault => throw (fault.failure path)

/-- A hyphen stands for the standard input. -/
def document (host : Host m) (path : String) : ExceptT Failure m String := do
  if path = "-" then
    match ← host.input with
    | some text => return text
    | none => throw .io
  else host.load path

end Host

end Unparse
