import Unparse.Grammar.Kind
import Unparse.Traversal.Shift

/-! The command line as data. Options may be written `--name value` or `--name=value`;
the general ones stand before or after the name of the command. -/
namespace Unparse

inductive Command where
  | render (tree : String) (width : Option Nat) (output : Option String)
  | kinds (family : Option Family)
  | adjust (tree : String) (offset : Offset) (check : Bool)
  | count (tree : String)
deriving DecidableEq, Repr

structure Invocation where
  dialect : Option Dialect
  config : Option String
  command : Command
deriving DecidableEq, Repr

/-- What a command line asks for. -/
inductive Request where
  | job (inv : Invocation)
  /-- To be told about the program. -/
  | help
  /-- Nothing that the program knows. -/
  | refused
deriving DecidableEq, Repr

namespace Arguments

/-- An option, whether it has a value, and which values it takes. -/
structure Spec where
  long : String
  short : Option Char := none
  valued : Bool := true
  accepts : String → Bool := fun _ => true

def isPath (s : String) : Bool :=
  s != ""

def isNumber (bound : Nat) (s : String) : Bool :=
  (Text.unsigned? bound s.toList).isSome

def general : List Spec :=
  [{ long := "python-version", accepts := fun s => (Dialect.ofText? s).isSome },
    { long := "config", accepts := isPath },
    { long := "log-level", accepts := (["trace", "debug", "info", "warn", "error"].contains ·) },
    { long := "log-format", accepts := (["text", "json"].contains ·) },
    { long := "help", short := some 'h', valued := false }]

/-- Only before the name of a command. -/
def aboutProgram : Spec :=
  { long := "version", short := some 'V', valued := false }

/-- The options of each command. -/
def ofCommand? : String → Option (List Spec)
  | "render" => some [{ long := "indent-width", accepts := isNumber UInt64.size },
      { long := "output", short := some 'o', accepts := isPath }]
  | "kinds" => some [{ long := "family", accepts := fun s => (Family.ofName? s).isSome }]
  | "adjust" => some [{ long := "lines", accepts := isNumber UInt32.size },
      { long := "cols", accepts := isNumber UInt32.size }, { long := "check", valued := false }]
  | "count" => some []
  | _ => none

/-- The options found so far with their values, the words that are none, and what is left. -/
structure Scan where
  given : List (String × String) := []
  words : List String := []
  rest : List String := []
deriving DecidableEq, Repr

namespace Scan

def get? (s : Scan) (option : String) : Option String :=
  s.given.lookup option

def has (s : Scan) (option : String) : Bool :=
  (s.get? option).isSome

/-- An option may be given only once, and only with a value that it takes. -/
def note? (spec : Spec) (value : String) (s : Scan) : Option Scan :=
  if s.has spec.long || (spec.valued && !spec.accepts value) then none
  else some { s with given := s.given ++ [(spec.long, value)] }

def number? (s : Scan) (option : String) (bound : Nat) : Option Nat :=
  (s.get? option).bind fun value => Text.unsigned? bound value.toList

def isHelp (s : Scan) : Bool :=
  s.has "help" || s.has "version"

end Scan

/-- A word that begins like an option cannot be the value of one. -/
def isOptionLike (s : String) : Bool :=
  Text.startsWith s "-" && s != "-"

/-- The name and the attached value of a long option. -/
def long? (s : String) : Option (String × Option String) :=
  match s.toList with
  | '-' :: '-' :: cs =>
    let name := String.ofList (cs.takeWhile (· != '='))
    match cs.dropWhile (· != '=') with
    | [] => some (name, none)
    | _ :: value => some (name, some (String.ofList value))
  | _ => none

/-- The letter and the attached value of a short option. -/
def short? (s : String) : Option (Char × Option String) :=
  match s.toList with
  | ['-', c] => some (c, none)
  | '-' :: c :: '=' :: value => some (c, some (String.ofList value))
  | '-' :: c :: value => some (c, some (String.ofList value))
  | _ => none

/-- The option that a word names, and the value attached to it. -/
def option? (specs : List Spec) (s : String) : Option (Spec × Option String) :=
  match long? s with
  | some (name, value) => (specs.find? (·.long == name)).map (·, value)
  | none => do
    let (c, value) ← short? s
    let spec ← specs.find? (·.short == some c)
    some (spec, value)

/-- Reads words up to the end or to a call for help, with `stop` only to the first word that is
no option. Two hyphens end the options. -/
def scan (specs : List Spec) (stop : Bool) (found : Scan) : List String → Option Scan
  | [] => some found
  | word :: more =>
    if word = "--" then
      if stop then none else some { found with words := found.words ++ more }
    else if isOptionLike word then
      match option? specs word with
      | none => none
      | some (spec, some value) =>
        if spec.valued then (found.note? spec value).bind (scan specs stop · more) else none
      | some (spec, none) =>
        if !spec.valued then
          (found.note? spec "").bind fun found =>
            if found.isHelp then some found else scan specs stop found more
        else match more with
          | [] => none
          | value :: more =>
            if isOptionLike value then none
            else (found.note? spec value).bind (scan specs stop · more)
    else if stop then some { found with words := [word], rest := more }
    else scan specs stop { found with words := found.words ++ [word] } more

def offset (s : Scan) : Offset :=
  ⟨.ofNat ((s.number? "lines" UInt32.size).getD 0),
    .ofNat ((s.number? "cols" UInt32.size).getD 0)⟩

def command? (name : String) (s : Scan) : Option Command :=
  match name, s.words with
  | "render", [tree] => some (.render tree (s.number? "indent-width" UInt64.size) (s.get? "output"))
  | "kinds", [] => some (.kinds ((s.get? "family").bind Family.ofName?))
  | "adjust", [tree] => some (.adjust tree (offset s) (s.has "check"))
  | "count", [tree] => some (.count tree)
  | _, _ => none

/-- A general option after the name of the command counts before one in front of it. -/
def invocation? (outer inner : Scan) (name : String) : Option Invocation := do
  if !inner.words.all isPath then none
  let command ← command? name inner
  let value (option : String) : Option String := (inner.get? option).or (outer.get? option)
  some ⟨(value "python-version").bind Dialect.ofText?, value "config", command⟩

/-- Help may be asked for about one command. -/
def isHelpTopic : List String → Bool
  | [] => true
  | [name] => name == "help" || (ofCommand? name).isSome
  | _ => false

def afterName (outer : Scan) (name : String) : Request :=
  match ofCommand? name with
  | none => if name == "help" && isHelpTopic outer.rest then .help else .refused
  | some specs =>
    match scan (specs ++ general) false {} outer.rest with
    | none => .refused
    | some inner =>
      if inner.isHelp then .help
      else match invocation? outer inner name with
        | some inv => .job inv
        | none => .refused

def parse (words : List String) : Request :=
  match scan (aboutProgram :: general) true {} words with
  | none => .refused
  | some outer =>
    if outer.isHelp then .help
    else match outer.words with
      | [name] => afterName outer name
      | _ => .refused

end Arguments

end Unparse
