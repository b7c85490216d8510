import Unparse.Render

/-! Scripts of page operations, and the log of running one. A failure inside of a block
ends that block and is the block's own failure; between the outermost steps the script
goes on. -/
namespace Unparse

inductive Step where
  | emit (text : String)
  | verbatim (text : String)
  | stmt (t : Node .stmt)
  | block (steps : List Step)
  | fail (kind : Kind) (reason : String)

/-- What a step left behind: the level and the lines it added, out of how many. -/
structure Outcome where
  action : String
  level : Nat
  added : List String
  total : Nat
  error : Option RenderError
deriving DecidableEq, Repr

inductive LogEntry where
  | enter (level : Nat)
  | done (outcome : Outcome)
deriving DecidableEq, Repr

/-- A script under way. -/
structure Run where
  page : Page
  log : List LogEntry
  error : Option RenderError

namespace Script

def failure? {A : Type} : Except RenderError A → Option RenderError
  | .ok _ => none
  | .error e => some e

/-- Logs what came of an operation on a page. -/
def report (action : String) (page : Page) (done : Page × Except RenderError Unit) : Run :=
  let (after, result) := done
  let error := failure? result
  let added := after.lines.drop page.lines.length
  ⟨after, [.done ⟨action, after.level, added, after.lines.length, error⟩], error⟩

/-- Leaves the block that was entered on a page. -/
def close (page : Page) (inside : Run) : Run :=
  let after := inside.page.leave
  let outcome : Outcome := ⟨"block", after.level, [], after.lines.length, inside.error⟩
  ⟨after, .enter page.level :: (inside.log ++ [.done outcome]), inside.error⟩

mutual

def runStep (d : Dialect) : Step → Page → Run
  | .emit text, page => report "emit" page (page.emit text, .ok ())
  | .verbatim text, page => report "verbatim" page (page.verbatim text, .ok ())
  | .stmt t, page => report "stmt" page (t.print d page)
  | .fail kind reason, page => report "fail" page (page, .error (.malformed ⟨kind, .stated reason⟩))
  | .block steps, page => close page (runBlock d steps page.enter)

/-- The steps of a block, up to the first one that fails. -/
def runBlock (d : Dialect) : List Step → Page → Run
  | [], page => ⟨page, [], none⟩
  | step :: more, page =>
    let first := runStep d step page
    match first.error with
    | some _ => first
    | none =>
      let rest := runBlock d more first.page
      ⟨rest.page, first.log ++ rest.log, rest.error⟩

end

/-- The outermost steps, all of them. -/
def run (d : Dialect) : List Step → Page → Page × List LogEntry
  | [], page => (page, [])
  | step :: more, page =>
    let first := runStep d step page
    let (after, log) := run d more first.page
    (after, first.log ++ log)

end Script

end Unparse
