import Unparse.Command.Arguments
import Unparse.Config
import Unparse.Grammar.Index
import Unparse.Json.Reader
import Unparse.Json.Writer
import Unparse.Pipeline
import Unparse.Traversal.Tally
import Unparse.Tree.Decode
import Unparse.Tree.Encode

/-! The commands: render a tree, list node kinds, shift positions, count nodes. -/
namespace Unparse.Command

/-- A document on lines of its own. -/
def page (j : Json) : String :=
  j.pretty ++ "\n"

def kindJson (k : Kind) : Json :=
  .obj [("name", .str k.name), ("fields", .arr (k.fields.map .str))]

def familyJson (i : Index) (f : Family) : Json :=
  .obj [("family", .str f.name), ("kinds", .arr ((i.leavesOf f).map kindJson))]

/-- The kinds of a dialect by family, or of the one family that was asked for. -/
def kindsJson (d : Dialect) (family : Option Family) : Json :=
  let i := Index.build d
  let families := match family with
    | some f => [f]
    | none => i.families
  .obj [("version", .str d.text), ("families", .arr (families.map (familyJson i)))]

def tallyJson (t : Tally) : Json :=
  .obj [("total", .int t.total), ("kinds", .obj (t.byName.map fun (k, n) => (k.name, .int n)))]

/-- The tree that a text describes. -/
def treeOf (text : String) : Except Failure (Node .mod) :=
  match (Json.ofText? text).bind (Node.ofJson? .mod) with
  | some t => .ok t
  | none => .error .json

/-- A width that is asked for must not be zero. -/
def withWidth (options : Options) : Option Nat → Except Failure Options
  | none => .ok options
  | some 0 => .error (.invalidArguments "--indent-width must be at least 1")
  | some n => .ok { options with width := n }

/-- Shifts positions; to check a tree is to render it after that. -/
def adjusting (offset : Offset) (check : Option Options) : Pipeline :=
  let line := Pipeline.empty.add (.shift offset)
  match check with
  | some options => line.addTap options
  | none => line

section

variable {m : Type → Type} [Monad m]

def lift {A : Type} (result : Except Failure A) : ExceptT Failure m A :=
  ExceptT.mk (pure result)

def options (host : Host m) (config : Config) (asked : Option Dialect) :
    ExceptT Failure m Options := do
  lift (config.options asked (← host.setting))

def readTree (host : Host m) (path : String) : ExceptT Failure m (Node .mod) := do
  lift (treeOf (← host.document path))

/-- A text goes to the file that was asked for, or to the standard output. -/
def deliver (host : Host m) (text : String) : Option String → ExceptT Failure m String
  | none => return text
  | some path => do
    host.save path text
    return ""

/-- What a command writes to the standard output. -/
def output (host : Host m) (config : Config) (asked : Option Dialect) :
    Command → ExceptT Failure m String
  | .render tree width target => do
    let options ← lift (withWidth (← options host config asked) width)
    let t ← readTree host tree
    deliver host (← lift ((t.render options).mapError .render)) target
  | .kinds family => do
    return page (kindsJson (← options host config asked).dialect family)
  | .adjust tree offset check => do
    let checking ← if check then some <$> options host config asked else pure none
    let t ← readTree host tree
    return page (← lift ((adjusting offset checking).run t).2).toJson
  | .count tree => do
    return page (tallyJson (← readTree host tree).tally)

/-- Settings are read before anything else is done. -/
def run (host : Host m) (inv : Invocation) : ExceptT Failure m String := do
  let config ← Config.discover host inv.config
  output host config inv.dialect inv.command

end

/-- What is said of a failure. -/
def report (e : Failure) : Json :=
  .obj [("status", .str "error"), ("code", .int e.code), ("message", .str e.message)]

/-- How a job ends: its exit code, and what it writes to the standard streams. -/
structure Ending where
  code : Nat
  output : String
  errors : String
deriving DecidableEq, Repr

/-- A failure is reported where errors are, and nothing else is written. -/
def ending : Except Failure String → Ending
  | .ok text => ⟨0, text, ""⟩
  | .error e => ⟨e.code, "", page (report e)⟩

end Unparse.Command
