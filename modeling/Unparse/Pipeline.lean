import Unparse.Failure
import Unparse.Render
import Unparse.Text.DefaultIgnorable
import Unparse.Text.GraphemeExtend
import Unparse.Text.Unprintable
import Unparse.Traversal.Shift

/-! Pipelines of tree processors. Each processor gets what the one before it returned;
the first failure ends the run. -/
namespace Unparse

inductive Processor where
  | shift (offset : Offset)
  /-- Renders what passes through and keeps the text in a slot of its own. -/
  | tap (slot : Nat) (options : Options)
  | custom (name : String) (action : Node .mod → Except Failure (Node .mod))

/-- Names need not be unique. -/
def Processor.name : Processor → String
  | shift _ => "adjust-location"
  | tap _ _ => "render-tap"
  | custom name _ => name

/-- The processors in the order of running, and the last text of every tap ever added. -/
structure Pipeline where
  processors : List Processor
  taps : List (Option String)

namespace Pipeline

def empty : Pipeline := ⟨[], []⟩

def add (p : Processor) (line : Pipeline) : Pipeline :=
  { line with processors := line.processors ++ [p] }

/-- Adds a tap with a slot that is still empty. -/
def addTap (options : Options) (line : Pipeline) : Pipeline :=
  ⟨line.processors ++ [.tap line.taps.length options], line.taps ++ [none]⟩

def names (line : Pipeline) : List String :=
  line.processors.map Processor.name

def contains (name : String) (line : Pipeline) : Bool :=
  line.names.contains name

/-- Removes the first processor of a name. -/
def remove (name : String) (line : Pipeline) : Pipeline :=
  { line with processors := line.processors.eraseP (·.name == name) }

/-- A run under way: the texts of the taps, and the tree or the failure so far. -/
def step (p : Processor) (taps : List (Option String)) (t : Node .mod) :
    List (Option String) × Except Failure (Node .mod) :=
  match p with
  | .shift offset => (taps, .ok (t.adjust offset).1)
  | .tap slot options =>
    match t.render options with
    | .ok text => (taps.set slot (some text), .ok t)
    | .error e => (taps, .error (.render e))
  | .custom _ action => (taps, action t)

def runAll : List Processor → List (Option String) → Node .mod →
    List (Option String) × Except Failure (Node .mod)
  | [], taps, t => (taps, .ok t)
  | p :: more, taps, t =>
    match step p taps t with
    | (taps, .ok t) => runAll more taps t
    | (taps, .error e) => (taps, .error e)

def run (line : Pipeline) (t : Node .mod) : Pipeline × Except Failure (Node .mod) :=
  let (taps, result) := runAll line.processors line.taps t
  ({ line with taps := taps }, result)

/-- The characters that cannot be told apart by sight, or that join the one before them. -/
def isObscure (c : Char) : Bool :=
  Text.isUnprintable c || Text.isGraphemeExtend c || Text.isDefaultIgnorable c

/-- A character of a quoted name: quotes, backslashes and obscure characters are escaped. -/
def quotedChar (c : Char) : List Char :=
  if c = '\x22' ∨ c = '\\' then ['\\', c]
  else if c = '\n' then ['\\', 'n']
  else if c = '\r' then ['\\', 'r']
  else if c = '\t' then ['\\', 't']
  else if c = '\x00' then ['\\', '0']
  else if isObscure c then
    ['\\', 'u', '\x7b'] ++ Nat.toDigits 16 c.toNat ++ ['\x7d']
  else [c]

def quotedName (s : String) : String :=
  String.ofList ('\x22' :: (s.toList.flatMap quotedChar ++ ['\x22']))

/-- The pipeline as a text, for people who look for a mistake. -/
def description (line : Pipeline) : String :=
  let names := String.intercalate ", " (line.names.map quotedName)
  "ProcessorChain \x7b processors: [" ++ names ++ "] \x7d"

end Pipeline

end Unparse
