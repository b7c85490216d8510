import Unparse.Proofs.Draft.Lines
import Unparse.Script

/-! Layout does not depend on where it begins. A script of page operations has an error, or
none, and a list of lines, each at some depth, and whatever page it is run on, it leaves that
error and those lines, below what the page held before, and nothing else. -/
namespace Unparse

namespace Script

variable {d : Dialect} {error : Option RenderError} {ls : List Line}

/-- On every page the run ends with this error, or none, and leaves these lines. -/
def Leaves (error : Option RenderError) (ls : List Line) (run : Page → Run) : Prop :=
  ∀ p, (run p).page = p.print ls ∧ (run p).error = error

namespace Leaves

theorem emit (text : String) :
    Leaves none ((Text.lines text).map fun piece => ⟨0, piece⟩) (runStep d (.emit text)) := by
  intro p
  exact ⟨p.emit_eq_print text, rfl⟩

theorem verbatim (text : String) : Leaves none [⟨0, text⟩] (runStep d (.verbatim text)) := by
  intro p
  exact ⟨p.verbatim_eq_print text, rfl⟩

theorem stmt (t : Node .stmt) :
    Leaves (failure? (t.draft.result d)) (t.draft.lines d) (runStep d (.stmt t)) := by
  intro p
  rw [runStep, t.print_eq]
  refine ⟨rfl, ?_⟩
  cases t.draft.result d <;> rfl

theorem fail (kind : Kind) (reason : String) :
    Leaves (some (.malformed ⟨kind, .stated reason⟩)) [] (runStep d (.fail kind reason)) := by
  intro p
  exact ⟨p.print_nil.symm, rfl⟩

/-- The level goes up again by as much as it went down, failure or not. -/
theorem block {steps : List Step} (h : Leaves error ls (runBlock d steps)) :
    Leaves error (ls.map Line.deeper) (runStep d (.block steps)) := by
  intro p
  obtain ⟨hpage, herror⟩ := h p.enter
  refine ⟨?_, herror⟩
  rw [runStep, close, hpage]
  exact p.leave_print_enter ls

theorem nil : Leaves none [] (runBlock d []) := by
  intro p
  exact ⟨p.print_nil.symm, rfl⟩

theorem cons_of_error {step : Step} {e : RenderError} (h : Leaves (some e) ls (runStep d step))
    (more : List Step) : Leaves (some e) ls (runBlock d (step :: more)) := by
  intro p
  have hrun : runBlock d (step :: more) p = runStep d step p := by
    simp only [runBlock, (h p).2]
  rw [hrun]
  exact h p

theorem cons {step : Step} {more : List Step} {ms : List Line}
    (h : Leaves none ls (runStep d step)) (hmore : Leaves error ms (runBlock d more)) :
    Leaves error (ls ++ ms) (runBlock d (step :: more)) := by
  intro p
  obtain ⟨hpage, herror⟩ := h p
  obtain ⟨hafter, hend⟩ := hmore (p.print ls)
  simp only [runBlock, herror, hpage, hafter, hend, Page.print_append, and_self]

end Leaves

mutual

/-- What a step comes to on any page: the lines that it leaves, and its error if it has one. -/
def plan (d : Dialect) : Step → List Line × Option RenderError
  | .emit text => ((Text.lines text).map fun piece => ⟨0, piece⟩, none)
  | .verbatim text => ([⟨0, text⟩], none)
  | .stmt t => (t.draft.lines d, failure? (t.draft.result d))
  | .fail kind reason => ([], some (.malformed ⟨kind, .stated reason⟩))
  | .block steps =>
    let (ls, error) := planBlock d steps
    (ls.map Line.deeper, error)

def planBlock (d : Dialect) : List Step → List Line × Option RenderError
  | [] => ([], none)
  | step :: more =>
    match plan d step with
    | (ls, some e) => (ls, some e)
    | (ls, none) =>
      let (ms, error) := planBlock d more
      (ls ++ ms, error)

end

mutual

theorem leaves_plan (d : Dialect) : (step : Step) →
    Leaves (plan d step).2 (plan d step).1 (runStep d step)
  | .emit text => .emit text
  | .verbatim text => .verbatim text
  | .stmt t => .stmt t
  | .fail kind reason => .fail kind reason
  | .block steps => (leaves_planBlock d steps).block

theorem leaves_planBlock (d : Dialect) : (steps : List Step) →
    Leaves (planBlock d steps).2 (planBlock d steps).1 (runBlock d steps)
  | [] => .nil
  | step :: more => by
    have hstep := leaves_plan d step
    have hmore := leaves_planBlock d more
    rw [planBlock]
    rcases hplan : plan d step with ⟨ls, _ | e⟩
    · rw [hplan] at hstep
      exact hstep.cons hmore
    · rw [hplan] at hstep
      exact hstep.cons_of_error more

end

/-- Whatever a script does, it ends in the same way on every page: with the error that it has by
itself or none, the lines that were there kept, its own lines added below them, each as many
levels deeper than the page as the script alone says, and level and unit as they were. -/
theorem runBlock_layout (d : Dialect) (steps : List Step) :
    ∃ (ls : List Line) (error : Option RenderError), planBlock d steps = (ls, error) ∧
      ∀ (lines : List String) (level : Nat) (unit : String),
        (runBlock d steps ⟨lines, level, unit⟩).error = error ∧
        (runBlock d steps ⟨lines, level, unit⟩).page =
          ⟨lines ++ ls.map fun l => Text.copies (level + l.depth) unit ++ l.text ++ "\n",
            level, unit⟩ := by
  refine ⟨_, _, rfl, ?_⟩
  intro lines level unit
  obtain ⟨hpage, herror⟩ := leaves_planBlock d steps ⟨lines, level, unit⟩
  exact ⟨herror, hpage⟩

end Script

end Unparse
