import Unparse.Render.Rule

/-! Trees as source text. -/
namespace Unparse

/-- The dialect to write, and how many spaces a block is indented. -/
structure Options where
  dialect : Dialect := .permissive
  width : Nat := 4
deriving DecidableEq, Repr

/-- The rendering of a node, for any dialect. -/
def Node.draft {f : Family} (t : Node f) : Draft String :=
  Render.standalone f (Render.view t)

/-- The source text of a node, or the reason why there is none. Statements, handlers, cases
and roots are lines that end in a newline, all other nodes are fragments of a line. -/
def Node.render {f : Family} (options : Options) (t : Node f) : Except RenderError String :=
  let (page, result) := t.draft.run options.dialect (Page.blank options.width)
  result.map (page.text ++ ·)

/-- Prints a statement on a page, at its current level. -/
def Node.print (dialect : Dialect) (t : Node .stmt) (page : Page) :
    Page × Except RenderError Unit :=
  let (page, result) := t.draft.run dialect page
  (page, result.map fun _ => ())

end Unparse
