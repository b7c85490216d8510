import Unparse.Proofs.Form.Rule
import Unparse.Proofs.Outline.Statement
import Unparse.Tree.Build

/-! Indentation. The lines of a statement follow the outline of its tree, so that every suite
stands right under its header and one level deeper. -/
namespace Unparse

open Draft Render

/-- Statements, handlers and cases lay out what their sketches say. -/
def View.Sketched : (f : Family) → View f → Sketch → Prop
  | .stmt, v, k => StmtView.Sketched v k
  | .handler, draft, k => ∀ star, Draft.Draws k.outline (draft star)
  | .matchCase, draft, k => Draft.Draws k.outline draft
  | _, _, _ => True

namespace Render

/-- What rules lay out is what the sketches of their kinds say. -/
theorem rule_sketched (k : Kind) {v : Value View k.shape} {t : Value Node k.shape}
    {w : Value (fun _ => Sketch) k.shape} (hj : Value.Judged k.shape v t)
    (hs : Value.Related View.Sketched k.shape v w) :
    View.Sketched k.place (rule k v) (k.sketch w) := by
  cases k with
  | functionDef =>
    obtain ⟨_, hargs, _, hdecorators, hreturns, hparams, _⟩ := hj
    obtain ⟨_, _, hbody, hsketches, _⟩ := hs
    exact .plain (Statement.functionDef_draws hargs hbody hdecorators hsketches.length_eq hreturns
      hparams) rfl rfl
  | asyncFunctionDef =>
    obtain ⟨_, hargs, _, hdecorators, hreturns, hparams, _⟩ := hj
    obtain ⟨_, _, hbody, hsketches, _⟩ := hs
    exact .plain (Statement.functionDef_draws hargs hbody hdecorators hsketches.length_eq hreturns
      hparams) rfl rfl
  | classDef =>
    obtain ⟨_, hbases, hkeywords, _, hdecorators, hparams, _⟩ := hj
    obtain ⟨_, _, _, hbody, hsketches, _⟩ := hs
    exact .plain (Statement.classDef_draws hbases hkeywords hbody hdecorators hsketches.length_eq
      hparams) rfl rfl
  | forLoop =>
    obtain ⟨htarget, hiter, _⟩ := hj
    obtain ⟨_, _, hbody, horelse, _⟩ := hs
    exact .plain (Statement.forLoop_draws htarget hiter hbody horelse) rfl rfl
  | asyncFor =>
    obtain ⟨htarget, hiter, _⟩ := hj
    obtain ⟨_, _, hbody, horelse, _⟩ := hs
    exact .plain (Statement.forLoop_draws htarget hiter hbody horelse) rfl rfl
  | whileLoop =>
    obtain ⟨htest, _⟩ := hj
    obtain ⟨_, hbody, horelse, _⟩ := hs
    exact .plain (Statement.tested_draws htest hbody horelse) rfl rfl
  | conditional =>
    obtain ⟨htest, _⟩ := hj
    obtain ⟨_, hbody, horelse, _⟩ := hs
    exact .plain (Statement.tested_draws htest hbody horelse) rfl rfl
  | withBlock =>
    obtain ⟨hitems, _⟩ := hj
    obtain ⟨_, hbody, _⟩ := hs
    exact .plain (Statement.withBlock_draws hitems hbody) rfl rfl
  | asyncWith =>
    obtain ⟨hitems, _⟩ := hj
    obtain ⟨_, hbody, _⟩ := hs
    exact .plain (Statement.withBlock_draws hitems hbody) rfl rfl
  | legacyWith =>
    obtain ⟨hexpr, hvars, _⟩ := hj
    obtain ⟨_, _, hbody, _⟩ := hs
    exact .plain (Statement.legacyWith_draws hexpr hvars hbody) rfl rfl
  | tryBlock =>
    obtain ⟨hbody, hhandlers, horelse, hfinal, _⟩ := hs
    exact .plain (Statement.tryBlock_draws false hbody hhandlers horelse hfinal) rfl rfl
  | tryStar =>
    obtain ⟨hbody, hhandlers, horelse, hfinal, _⟩ := hs
    exact .plain (Statement.tryBlock_draws true hbody hhandlers horelse hfinal) rfl rfl
  | tryExcept =>
    obtain ⟨hbody, hhandlers, horelse, _⟩ := hs
    exact Statement.tryExcept_sketched hbody hhandlers horelse
  | tryFinally =>
    obtain ⟨hbody, hfinal, _⟩ := hs
    exact .plain (Statement.tryFinally_draws hbody hfinal) rfl rfl
  | matchBlock =>
    obtain ⟨hsubject, _⟩ := hj
    obtain ⟨_, hcases, _⟩ := hs
    exact .plain (Statement.matchBlock_draws hsubject hcases) rfl rfl
  | returnStmt =>
    obtain ⟨hvalue, _⟩ := hj
    exact .plain (Statement.returnStmt_draws hvalue) rfl rfl
  | delete =>
    obtain ⟨htargets, _⟩ := hj
    exact .plain (Statement.delete_draws htargets) rfl rfl
  | assign =>
    obtain ⟨htargets, hvalue, _⟩ := hj
    exact .plain (Statement.assign_draws htargets hvalue) rfl rfl
  | augAssign =>
    obtain ⟨htarget, _, hvalue, _⟩ := hj
    exact .plain (Statement.augAssign_draws htarget hvalue) rfl rfl
  | annAssign =>
    obtain ⟨htarget, htype, hvalue, _⟩ := hj
    exact .plain (Statement.annAssign_draws htarget htype hvalue) rfl rfl
  | print =>
    obtain ⟨hdest, hvalues, _⟩ := hj
    exact .plain (Statement.print_draws hdest hvalues) rfl rfl
  | raise =>
    obtain ⟨hexc, hcause, _⟩ := hj
    exact .plain (Statement.raise_draws hexc hcause) rfl rfl
  | legacyRaise =>
    obtain ⟨htype, hinst, htback, _⟩ := hj
    exact .plain (Statement.legacyRaise_draws htype hinst htback) rfl rfl
  | assert =>
    obtain ⟨htest, hmessage, _⟩ := hj
    exact .plain (Statement.assert_draws htest hmessage) rfl rfl
  | importNames =>
    obtain ⟨hnames, _⟩ := hj
    exact .plain (Statement.importNames_draws hnames) rfl rfl
  | exec =>
    obtain ⟨hcode, hglobals, hlocals, _⟩ := hj
    exact .plain (Statement.exec_draws hcode hglobals hlocals) rfl rfl
  | typeAlias =>
    obtain ⟨hname, hparams, hvalue, _⟩ := hj
    exact .plain (Statement.typeAlias_draws hname hparams hvalue) rfl rfl
  | importFrom =>
    obtain ⟨_, hnames, _⟩ := hj
    exact Statement.importFrom_sketched hnames
  | exprStmt =>
    obtain ⟨hvalue, _⟩ := hj
    exact Statement.exprStmt_sketched hvalue
  | global => exact .plain Statement.declaration_draws rfl rfl
  | nonlocal => exact .plain Statement.declaration_draws rfl rfl
  | pass => exact .plain Statement.word_draws rfl rfl
  | breakLoop => exact .plain Statement.word_draws rfl rfl
  | continueLoop => exact .plain Statement.word_draws rfl rfl
  | exceptHandler =>
    obtain ⟨htype, _⟩ := hj
    obtain ⟨_, _, hbody, _⟩ := hs
    exact Statement.exceptHandler_draws htype hbody
  | legacyExceptHandler =>
    obtain ⟨htype, htarget, _⟩ := hj
    obtain ⟨_, _, hbody, _⟩ := hs
    exact Statement.legacyExceptHandler_draws htype htarget hbody
  | matchCase =>
    obtain ⟨hpattern, hguard, _⟩ := hj
    obtain ⟨_, _, hbody, _⟩ := hs
    exact Statement.matchCase_draws hpattern hguard hbody
  -- Nothing is said of the other families.
  | _ => trivial

end Render

theorem Tree.fold_sketched {s : Shape} (t : Tree s) :
    Value.Related View.Sketched s (t.fold fun k v _ => rule k v)
      (t.fold fun k v _ => k.sketch v) := by
  induction t with
  | node k fields mark ih => exact rule_sketched k (Tree.fold_related node_judged fields) ih
  | scalar value => rfl
  | absent => exact Option.Rel.none
  | present content ih => exact Option.Rel.some ih
  | nil => exact List.Forall₂.nil
  | cons head tail ihHead ihTail => exact List.Forall₂.cons ihHead ihTail
  | done => trivial
  | field value more ihValue ihMore => exact ⟨ihValue, ihMore⟩

namespace Node

theorem draft_draws (t : Node .stmt) : t.draft.Draws t.outline := by
  have hview : StmtView.Sketched (view t) (t.fold fun k v _ => k.sketch v) := Tree.fold_sketched t
  have hdraft := hview.draft.bind fun _ => Draws.pure (a := "")
  rwa [List.append_nil] at hdraft

theorem outline_ne_nil (t : Node .stmt) : t.outline ≠ [] :=
  Sketch.nonempty _

/-- A statement that can be printed has lines, each at a level of its own, and on whatever page it
is printed, those are added at those levels. The first line is at the level of the page. From each
line to the next one the level rises by one at most, and only after a colon. Every suite of the
tree, empty ones included, is there: it has a line, and its first line comes right after the header
and one level deeper. -/
theorem print_indented (t : Node .stmt) (d : Dialect) (start : Page)
    (h : (t.print d start).2 = .ok ()) :
    ∃ first rest, t.draft.lines d = first :: rest ∧
      first.depth = 0 ∧
      (first :: rest).IsChain (fun a b => b.depth ≤ a.depth + 1 ∧
        (b.depth = a.depth + 1 → a.opens = true)) ∧
      Follows t.outline (first :: rest) ∧
      ∀ page : Page, t.print d page = ({ page with
        lines := page.lines ++ (first :: rest).map fun l =>
          Text.copies (page.level + l.depth) page.unit ++ l.text ++ "\n" }, .ok ()) := by
  obtain ⟨text, hresult⟩ : ∃ text, t.draft.result d = .ok text := by
    rw [print_eq] at h
    cases hr : t.draft.result d with
    | error e => simp [hr, Except.map] at h
    | ok text => exact ⟨text, rfl⟩
  have hlines : t.draft.lines d = t.draft.layout := lines_of_result_ok hresult
  have hfollows := t.draft_draws text (result_eq_ok_iff.mp hresult).1
  obtain ⟨first, rest, hlayout, hfirst⟩ := hfollows.exists_first t.outline_ne_nil
  rw [hlayout] at hlines hfollows
  refine ⟨first, rest, hlines, hfirst, hfollows.indented.chain, hfollows, fun page => ?_⟩
  rw [print_eq, hlines, hresult]
  rfl

/-- A function whose body is a choice between doing nothing and returning. -/
def guarded : Node .stmt :=
  Stmt.functionDef "f" (Stmt.positional ["x"])
    [Stmt.conditional (Expr.name "x") [] [Stmt.returns none]]

/-- The function is printed inside of a block, and its suites are nested as in the tree. -/
theorem guarded_indented :
    (guarded.print (.version ⟨3, 8⟩) ⟨["class A:\n"], 1, "\t"⟩).2 = .ok () ∧
    guarded.draft.lines (.version ⟨3, 8⟩) =
      [⟨0, "def f(x):"⟩, ⟨1, "if x:"⟩, ⟨2, "pass"⟩, ⟨1, "else:"⟩, ⟨2, "return"⟩] ∧
    Follows [.clause [.clause [.plain], .clause [.plain]]]
      [⟨0, "def f(x):"⟩, ⟨1, "if x:"⟩, ⟨2, "pass"⟩, ⟨1, "else:"⟩, ⟨2, "return"⟩] ∧
    (guarded.print (.version ⟨3, 8⟩) ⟨["class A:\n"], 1, "\t"⟩).1.lines =
      ["class A:\n", "\tdef f(x):\n", "\t\tif x:\n", "\t\t\tpass\n", "\t\telse:\n",
        "\t\t\treturn\n"] := by
  obtain ⟨first, rest, hlines, -, -, hfollows, hprint⟩ :=
    print_indented guarded (.version ⟨3, 8⟩) ⟨["class A:\n"], 1, "\t"⟩ rfl
  rw [← hlines] at hfollows hprint
  refine ⟨rfl, rfl, hfollows, ?_⟩
  rw [hprint]
  rfl

end Node

end Unparse
