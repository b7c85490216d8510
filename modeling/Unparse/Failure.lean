import Unparse.Render.Fault

/-! What can go wrong with a job, its exit code and its message. -/
namespace Unparse

inductive Failure where
  | invalidArguments (message : String)
  | fileNotFound (path : String)
  | render (error : RenderError)
  | dialect (error : DialectError)
  /-- A settings file that cannot be read as settings. -/
  | config (path : String)
  /-- A document that is not one, or does not describe a tree. -/
  | json
  | processor (name message : String)
  /-- A file that exists but cannot be read or written. -/
  | io
  | internal (message : String)
deriving DecidableEq, Repr

namespace Failure

def code : Failure → Nat
  | invalidArguments _ | dialect _ | config _ | json => 2
  | fileNotFound _ => 3
  | render _ => 4
  | processor _ _ => 5
  | io | internal _ => 10

def message : Failure → String
  | invalidArguments message => "invalid arguments: " ++ message
  | fileNotFound path => "file not found: " ++ path
  | render error => "render error: " ++ error.message
  | dialect error => error.message
  | config path => "invalid config " ++ path
  | json => "JSON error"
  | processor name message => "processor '" ++ name ++ "' failed: " ++ message
  | io => "IO error"
  | internal message => "internal error: " ++ message

end Failure

end Unparse
