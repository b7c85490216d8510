import Unparse.Proofs.Draft.Running
import Unparse.Proofs.Tree.Erase
import Unparse.Tree.Build

/-! Compound statements of older dialects. A try statement with handlers inside of one with a
final block, a try statement without a final block and a statement with one context are printed
as the newer statements that hold the same parts, whatever becomes of these parts. -/
namespace Unparse

open Draft Render

namespace Render.Statement

variable {body orelse final : List StmtView} {handlers : List (Bool → Draft Unit)}

/-- With handlers, a try statement is its clauses and then its final block. -/
theorem run_tryBlock (hhandlers : handlers ≠ []) (p : Page) :
    (tryBlock .tryBlock false body handlers orelse final).draft.run .permissive p =
      (tryClauses body handlers false orelse >>= fun _ =>
        finallyBlock final).run .permissive p := by
  obtain ⟨handler, more, rfl⟩ := List.exists_cons_of_ne_nil hhandlers
  exact run_demand_bind rfl _ p

theorem run_tryExcept (hhandlers : handlers ≠ []) (p : Page) :
    (tryExcept body handlers orelse).draft.run .permissive p =
      (tryBlock .tryBlock false body handlers orelse []).draft.run .permissive p := by
  rw [run_tryBlock hhandlers]
  obtain ⟨handler, more, rfl⟩ := List.exists_cons_of_ne_nil hhandlers
  refine (run_demand_bind rfl _ p).trans ?_
  exact congrArg (run .permissive · p) (bind_pure_unit _).symm

/-- The clauses of a nested try statement stand at the level of the outer one. -/
theorem run_tryFinally (hhandlers : handlers ≠ []) (hfinal : final ≠ []) (p : Page) :
    (tryFinally [tryExcept body handlers orelse] final).draft.run .permissive p =
      (tryBlock .tryBlock false body handlers orelse final).draft.run .permissive p := by
  rw [run_tryBlock hhandlers]
  obtain ⟨handler, more, rfl⟩ := List.exists_cons_of_ne_nil hhandlers
  obtain ⟨first, rest, rfl⟩ := List.exists_cons_of_ne_nil hfinal
  have hnested : (finallyBody [tryExcept body (handler :: more) orelse]).run .permissive p =
      (tryClauses body (handler :: more) false orelse).run .permissive p :=
    run_demand_bind rfl _ p
  refine (run_demand_bind rfl _ p).trans ?_
  rw [run_bind, run_bind, hnested]
  rfl

/-- A single context is written alike as a part of the statement and as an item of its own. -/
theorem run_legacyWith (expr : ExprView) (vars : Option ExprView) (p : Page) :
    (legacyWith expr vars body).draft.run .permissive p =
      (withBlock .withBlock "with" [withItem expr vars] body).draft.run .permissive p := by
  have hitem : (withItem expr vars).run .permissive p = (context expr vars).run .permissive p :=
    run_demand_bind rfl _ p
  refine (run_demand_bind rfl _ p).trans (.trans ?_ (run_demand_bind rfl _ p).symm)
  change _ = ((withItem expr vars >>= fun text => pure [text]) >>= fun items =>
    Draft.emit ("with" ++ " " ++ String.intercalate ", " items ++ ":") >>= fun _ =>
      block body).run .permissive p
  rw [run_bind, run_bind, run_bind, hitem]
  rcases (context expr vars).run .permissive p with ⟨q, _ | text⟩
  · rfl
  · dsimp only
    rw [run_pure]
    rfl

end Render.Statement

namespace Node

section Parts

variable (body orelse final : List (Node .stmt)) (handlers : List (Node .handler))
  (expr : Node .expr) (vars : Option (Node .expr)) (inner mark : Mark .stmt)

theorem view_tryBlock :
    view (marked .tryBlock (body, handlers, orelse, final, ()) mark) =
      Statement.tryBlock .tryBlock false (body.map fun t => view t) (handlers.map fun t => view t)
        (orelse.map fun t => view t) (final.map fun t => view t) :=
  view_marked .tryBlock (body, handlers, orelse, final, ()) mark

theorem view_tryExcept :
    view (marked .tryExcept (body, handlers, orelse, ()) mark) =
      Statement.tryExcept (body.map fun t => view t) (handlers.map fun t => view t)
        (orelse.map fun t => view t) :=
  view_marked .tryExcept (body, handlers, orelse, ()) mark

theorem view_tryFinally :
    view (marked .tryFinally ([marked .tryExcept (body, handlers, orelse, ()) inner], final, ())
      mark) =
      Statement.tryFinally [Statement.tryExcept (body.map fun t => view t)
        (handlers.map fun t => view t) (orelse.map fun t => view t)]
        (final.map fun t => view t) := by
  rw [← view_tryExcept body orelse handlers inner]
  exact view_marked .tryFinally ([marked .tryExcept (body, handlers, orelse, ()) inner], final, ())
    mark

theorem view_legacyWith :
    view (marked .legacyWith (expr, vars, body, ()) mark) =
      Statement.legacyWith (view expr) (vars.map fun t => view t) (body.map fun t => view t) :=
  view_marked .legacyWith (expr, vars, body, ()) mark

theorem view_withBlock :
    view (marked .withBlock ([Stmt.withItem expr vars], body, ()) mark) =
      Statement.withBlock .withBlock "with"
        [Statement.withItem (view expr) (vars.map fun t => view t)] (body.map fun t => view t) := by
  have hitem : view (Stmt.withItem expr vars) =
      Statement.withItem (view expr) (vars.map fun t => view t) :=
    view_marked .withItem (expr, vars, ()) .none
  rw [← hitem]
  exact view_marked .withBlock ([Stmt.withItem expr vars], body, ()) mark

end Parts

/-- Where every kind is supported, a try statement that is all of the body of one with a final
block, a try statement without a final block and a statement with a single context do on every
page what the newer statement with the same parts does: the same lines are printed, and if some
part fails they end at the same place with the same error. -/
theorem legacy_compounds_print (page : Page) :
    (∀ (body orelse final : List (Node .stmt)) (handlers : List (Node .handler))
      (inner outer mark : Mark .stmt), handlers ≠ [] → final ≠ [] →
      (marked .tryFinally ([marked .tryExcept (body, handlers, orelse, ()) inner], final, ())
        outer).print .permissive page =
        (marked .tryBlock (body, handlers, orelse, final, ()) mark).print .permissive page) ∧
    (∀ (body orelse : List (Node .stmt)) (handlers : List (Node .handler))
      (outer mark : Mark .stmt), handlers ≠ [] →
      (marked .tryExcept (body, handlers, orelse, ()) outer).print .permissive page =
        (marked .tryBlock (body, handlers, orelse, [], ()) mark).print .permissive page) ∧
    (∀ (expr : Node .expr) (vars : Option (Node .expr)) (body : List (Node .stmt))
      (outer mark : Mark .stmt),
      (marked .legacyWith (expr, vars, body, ()) outer).print .permissive page =
        (marked .withBlock ([Stmt.withItem expr vars], body, ()) mark).print .permissive page) := by
  refine ⟨?_, ?_, ?_⟩
  · intro body orelse final handlers inner outer mark hhandlers hfinal
    refine (print_of_view (view_tryFinally ..) page).trans
      (.trans ?_ (print_of_view (view_tryBlock ..) page).symm)
    exact Statement.run_tryFinally (by simpa using hhandlers) (by simpa using hfinal) page
  · intro body orelse handlers outer mark hhandlers
    refine (print_of_view (view_tryExcept ..) page).trans
      (.trans ?_ (print_of_view (view_tryBlock ..) page).symm)
    exact Statement.run_tryExcept (by simpa using hhandlers) page
  · intro expr vars body outer mark
    refine (print_of_view (view_legacyWith ..) page).trans
      (.trans ?_ (print_of_view (view_withBlock ..) page).symm)
    exact Statement.run_legacyWith _ _ page

/-- A handler that binds what it catches, but does not say what that is. -/
def nameless : Node .handler :=
  .of .exceptHandler (none, some "e", [], ())

/-- The page after the failure of the handler still has the lines before it. -/
theorem nameless_print :
    [nameless] ≠ [] ∧ [Stmt.pass] ≠ [] ∧
    (marked .tryFinally ([marked .tryExcept ([Stmt.pass], [nameless], [], ()) .none],
      [Stmt.pass], ()) .none).print .permissive ⟨["def f():\n"], 1, "\t"⟩ =
      (⟨["def f():\n", "\ttry:\n", "\t\tpass\n"], 1, "\t"⟩,
        .error (.malformed ⟨.exceptHandler, .nameWithoutType⟩)) ∧
    (marked .tryExcept ([Stmt.pass], [nameless], [], ()) .none).print .permissive
      ⟨["def f():\n"], 1, "\t"⟩ =
      (⟨["def f():\n", "\ttry:\n", "\t\tpass\n"], 1, "\t"⟩,
        .error (.malformed ⟨.exceptHandler, .nameWithoutType⟩)) := by
  have hhandlers : [nameless] ≠ [] := List.cons_ne_nil _ _
  have hfinal : [Stmt.pass] ≠ [] := List.cons_ne_nil _ _
  obtain ⟨hnested, halone, -⟩ := legacy_compounds_print ⟨["def f():\n"], 1, "\t"⟩
  refine ⟨hhandlers, hfinal, ?_, ?_⟩
  · exact (hnested [Stmt.pass] [] [Stmt.pass] [nameless] .none .none .none hhandlers hfinal).trans
      rfl
  · exact (halone [Stmt.pass] [] [nameless] .none .none hhandlers).trans rfl

end Node

end Unparse
