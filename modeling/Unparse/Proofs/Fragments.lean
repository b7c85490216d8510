import Unparse.Proofs.Scanner.Expression
import Unparse.Render
import Unparse.Tree.Build

/-! The text of an expression is one logical line: brackets match, literals end where they
should, and a line ends only inside of brackets. -/
namespace Unparse

open Scanner

namespace Render

theorem rule_scans (k : Kind) (v : Value View k.shape) (h : Value.Scans k.isNaming k.shape v) :
    View.Scans k.place (rule k v) := by
  cases k with
  | boolOp => exact Expression.boolOp_scans h.2.1
  | namedExpr => exact Expression.namedExpr_scans h.1 h.2.1
  | binOp => exact Expression.binOp_scans h.1 h.2.2.1
  | unaryOp => exact Expression.unaryOp_scans h.2.1
  | lambda => exact Expression.lambda_scans h.1 h.2.1
  | ifExp => exact Expression.ifExp_scans h.1 h.2.1 h.2.2.1
  | dict => exact Expression.dict_scans h.1 h.2.1
  | set => exact Expression.set_scans h.1
  | listComp =>
    exact Expression.comprehended_scans (fun _ => Reads.fixed (by decide) rfl)
      (fun _ => Reads.fixed (by decide) rfl) h.1.text h.2.1
  | setComp =>
    exact Expression.comprehended_scans (fun _ => Reads.fixed (by decide) rfl)
      (fun _ => Reads.fixed (by decide) rfl) h.1.text h.2.1
  | dictComp =>
    exact Expression.comprehended_scans (fun _ => Reads.fixed (by decide) rfl)
      (fun _ => Reads.fixed (by decide) rfl) (Expression.keyed_gives h.1 h.2.1) h.2.2.1
  | generatorExp =>
    exact Expression.comprehended_scans (fun _ => Reads.fixed (by decide) rfl)
      (fun _ => Reads.fixed (by decide) rfl) h.1.text h.2.1
  | await => exact Expression.await_scans h.1
  | yield => exact Expression.yield_scans h.1
  | yieldFrom => exact Expression.yieldFrom_scans h.1
  | compare => exact Expression.compare_scans h.1 h.2.2.1
  | call => exact Expression.call_scans h.1 h.2.1 h.2.2.1 h.2.2.2.1 h.2.2.2.2.1
  | repr => exact Expression.repr_scans h.1
  | formattedValue =>
    have hfield : (FString.field v.1 v.2.1 v.2.2.1).Gives Fits :=
      FString.field_gives h.1 h.2.2.1
    exact ExprView.formed_scans (hfield.bind fun _ hs => FString.joined_gives hs) hfield
  | joinedStr =>
    have hparts := FString.parts_gives h.1
    exact ExprView.formed_scans (hparts.bind fun _ hs => FString.joined_gives hs) hparts
  | constant => exact Expression.constant_scans _
  | num => exact Expression.num_scans _
  | str => exact Expression.str_scans _
  | bytes => exact Expression.bytes_scans _
  | nameConstant => exact Expression.nameConstant_scans _
  | ellipsis => exact Expression.ellipsis_scans
  | «attribute» => exact Expression.attributeOf_scans h.1 (h.2.1 rfl)
  | subscript => exact Expression.subscript_scans h.1 h.2.1
  | starred => exact Expression.starred_scans h.1
  | nameExpr => exact Expression.name_scans (h.1 rfl)
  | list => exact Expression.list_scans h.1
  | tuple => exact Expression.tuple_scans h.1
  | slice => exact Expression.slice_scans h.1 h.2.1 h.2.2.1
  | index => exact Expression.index_scans h.1
  | extSlice => exact Expression.extSlice_scans h.1
  | comprehension => exact Expression.comprehension_gives h.1 h.2.1 h.2.2.1
  | arguments =>
    intro allowed
    exact Parameters.arguments_gives (fun a ha => h.1 a ha allowed)
      (fun a ha => h.2.1 a ha allowed) (fun a ha => h.2.2.1 a ha allowed)
      (fun a ha => h.2.2.2.1 a ha allowed) h.2.2.2.2.1
      (fun a ha => h.2.2.2.2.2.1 a ha allowed) h.2.2.2.2.2.2.1
  | arg => exact Parameters.arg_gives (h.1 rfl) h.2.1
  | keyword => exact Expression.keyword_gives (fun n hn => h.1 n hn rfl) h.2.1
  | _ => trivial

end Render

namespace Node

theorem draft_scans {e : Node .expr} (h : ∀ n ∈ e.preorder, n.Inert) :
    e.draft.Gives Fragment := by
  have hview : View.Scans .expr (Render.view e) :=
    Tree.fold_scans (fun k v _ => Render.rule_scans k v) e false (by simp) h
  exact hview.text

/-- If the identifiers of an expression are inert, its text leaves the scanner where it was:
outside of literals, with the same brackets open, whichever these are. -/
theorem render_balanced (e : Node .expr) (options : Options) (text : String)
    (stack : List Char) (hinert : ∀ n, AnyNode.Reaches ⟨.expr, e⟩ n → n.Inert)
    (h : e.render options = .ok text) :
    (Scanner.code stack).run text.toList = some (Scanner.code stack) := by
  have hdraft : e.draft.Gives Fragment := by
    apply draft_scans
    intro n hn
    exact hinert n (AnyNode.reaches_iff_mem_preorder.mpr hn)
  have hfragment := holds_of_render_ok hdraft h
  have hrun := (hfragment stack).run [] trivial
  rw [List.append_nil] at hrun
  exact hrun

/-- An f-string with a comprehension of two lines in it, and a quote and a bracket beside it. -/
def listing : Node .expr :=
  .of .joinedStr ([Expr.str "it's [", .of .formattedValue
    (Expr.listComp (Expr.name "x") [Expr.comprehension (Expr.name "x") (Expr.name "xs") []],
      none, none, ())], ())

theorem listing_balanced :
    listing.render {} = .ok "f'''it\\'s [\x7b[ x\n  for x in xs ]\x7d'''" ∧
    (∀ n, AnyNode.Reaches ⟨.expr, listing⟩ n → n.Inert) ∧
    (Scanner.code []).run "f'''it\\'s [\x7b[ x\n  for x in xs ]\x7d'''".toList =
      some (Scanner.code []) := by
  have hinert : ∀ n, AnyNode.Reaches ⟨.expr, listing⟩ n → n.Inert := by
    intro n hn
    have hall : ∀ m ∈ listing.preorder, m.Inert := by decide
    exact hall n (AnyNode.reaches_iff_mem_preorder.mp hn)
  exact ⟨rfl, hinert, render_balanced listing {} _ [] hinert rfl⟩

end Node

end Unparse
