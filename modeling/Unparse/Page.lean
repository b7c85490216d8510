import Unparse.Text

/-! Pages: lines laid out by block level. A page holds its lines already indented and
ended, and an entry, once on it, never changes. -/
namespace Unparse

structure Page where
  lines : List String
  level : Nat
  unit : String
deriving DecidableEq, Repr

namespace Page

/-- An empty page with so many spaces a level. -/
def blank (width : Nat) : Page :=
  ⟨[], 0, Text.copies width " "⟩

def indentation (p : Page) : String :=
  Text.copies p.level p.unit

/-- Adds a text as one entry, of which only the first line is indented. -/
def verbatim (p : Page) (text : String) : Page :=
  { p with lines := p.lines ++ [p.indentation ++ text ++ "\n"] }

/-- Adds the lines of a text, each of them indented. -/
def emit (p : Page) (text : String) : Page :=
  (Text.lines text).foldl verbatim p

/-- The page inside of a block. -/
def enter (p : Page) : Page :=
  { p with level := p.level + 1 }

/-- The page behind the block that it is in. -/
def leave (p : Page) : Page :=
  { p with level := p.level - 1 }

def text (p : Page) : String :=
  String.join p.lines

end Page

end Unparse
