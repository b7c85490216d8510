import Unparse.Host
import Unparse.Render
import Unparse.Toml.Reader

/-! Settings: the file they come from, and how they become options. -/
namespace Unparse

structure Config where
  dialect? : Option Dialect := none
  width : Nat := ({} : Options).width
deriving DecidableEq, Repr

namespace Config

/-- The name under which settings are looked for. -/
def fileName : String := "astkit.toml"

def dialectOf? : Toml → Option Dialect
  | .text s => Dialect.ofText? s
  | _ => none

def widthOf? : Toml → Option Nat
  | .integer (.ofNat n) => some n
  | _ => none

/-- A setting may be missing, but not be wrong. -/
def setting? {A : Type} (read : Toml → Option A) (absent : A) : Option Toml → Option A
  | none => some absent
  | some v => read v

def ofSettings? (dialect width : Option Toml) : Option Config := do
  let dialect? ← setting? (fun v => (dialectOf? v).map some) none dialect
  let width ← setting? widthOf? ({} : Config).width width
  some ⟨dialect?, width⟩

/-- The settings for rendering: a table, or their values in order. A date has none. -/
def ofRender? : Toml → Option Config
  | .table _ ms => ofSettings? (ms.lookup "python_version") (ms.lookup "indent_width")
  | .array items => ofSettings? items[0]? items[1]?
  | .moment => some {}
  | _ => none

/-- Other tables and keys do not matter. -/
def ofToml? (ms : Toml.Members) : Option Config :=
  setting? ofRender? {} (ms.lookup "render")

/-- The settings in the text of the file at `path`. -/
def ofText (path text : String) : Except Failure Config :=
  match (Toml.ofText? text).bind ofToml? with
  | none => .error (.config path)
  | some config =>
    if config.width = 0 then
      .error (.invalidArguments (path ++ ": indent_width must be at least 1"))
    else .ok config

section

variable {m : Type → Type} [Monad m]

def load (host : Host m) (path : String) : ExceptT Failure m Config := do
  let text ← host.load path
  ExceptT.mk (pure (ofText path text))

/-- The file of the usual name need not be there. -/
def loadUsual (host : Host m) : ExceptT Failure m Config := do
  match ← host.read fileName with
  | .ok text => ExceptT.mk (pure (ofText fileName text))
  | .error .missing => return {}
  | .error .other => throw .io

def discover (host : Host m) : Option String → ExceptT Failure m Config
  | some path => load host path
  | none => loadUsual host

end

/-- The dialect is the one asked for, else the one of the environment unless that is blank,
else the one of the settings, else the permissive one. -/
def dialect (config : Config) (asked : Option Dialect) (setting : Option String) :
    Except DialectError Dialect :=
  match asked with
  | some d => .ok d
  | none =>
    match setting.filter (Text.trim · != "") with
    | some s => Dialect.ofText s
    | none => .ok (config.dialect?.getD .permissive)

def options (config : Config) (asked : Option Dialect) (setting : Option String) :
    Except Failure Options :=
  match config.dialect asked setting with
  | .ok d => .ok ⟨d, config.width⟩
  | .error e => .error (.dialect e)

end Config

end Unparse
