import Unparse.Proofs.Reader.View

/-! Unique readability. The expressions of the core stand in parentheses wherever an operator
could bind them otherwise, so the reader finds each of them again, except for its positions, and
two of them with the same text have the same structure. -/
namespace Unparse

open Reader

/-- Names, numbers, strings and what is built of them by attributes, calls, subscripts, lists,
tuples and operators. -/
inductive Core : Node .expr → Prop where
  | name {id : String} (mark) (hid : isIdentifier id = true) :
    Core (Node.marked .nameExpr (id, ()) mark)
  | int (n : Nat) (mark) : Core (Node.marked .constant (.int n, ()) mark)
  | str (s : String) (mark) : Core (Node.marked .constant (.str s, ()) mark)
  | attributeOf {value : Node .expr} {attr : String} (mark) (hvalue : Core value)
    (hattr : isIdentifier attr = true) : Core (Node.marked .attribute (value, attr, ()) mark)
  | call {func : Node .expr} {args : List (Node .expr)} (mark) (hfunc : Core func)
    (hargs : ∀ a ∈ args, Core a) :
    Core (Node.marked .call (func, args, [], none, none, ()) mark)
  | subscript {value slice : Node .expr} (mark) (hvalue : Core value) (hslice : Core slice) :
    Core (Node.marked .subscript (value, slice, ()) mark)
  | list {elements : List (Node .expr)} (mark) (h : ∀ a ∈ elements, Core a) :
    Core (Node.marked .list (elements, ()) mark)
  | tuple {elements : List (Node .expr)} (mark) (h : ∀ a ∈ elements, Core a) :
    Core (Node.marked .tuple (elements, ()) mark)
  | binOp {left right : Node .expr} (op : Node .operator) (mark) (hleft : Core left)
    (hright : Core right) : Core (Node.marked .binOp (left, op, right, ()) mark)
  | boolOp {values : List (Node .expr)} (op : Node .boolOp) (mark)
    (h : ∀ a ∈ values, Core a) : Core (Node.marked .boolOp (op, values, ()) mark)
  | unaryOp {operand : Node .expr} (op : Node .unaryOp) (mark) (h : Core operand) :
    Core (Node.marked .unaryOp (op, operand, ()) mark)
  | compare {left : Node .expr} {comparators : List (Node .expr)} (ops : List (Node .cmpOp))
    (mark) (hleft : Core left) (h : ∀ a ∈ comparators, Core a) :
    Core (Node.marked .compare (left, ops, comparators, ()) mark)
  | ifExp {test body orelse : Node .expr} (mark) (htest : Core test) (hbody : Core body)
    (horelse : Core orelse) : Core (Node.marked .ifExp (test, body, orelse, ()) mark)
  | namedExpr {target value : Node .expr} (mark) (htarget : Core target) (hvalue : Core value) :
    Core (Node.marked .namedExpr (target, value, ()) mark)

namespace Node

/-- An operator is seen as its kind. -/
theorem view_operator {f : Family} (hf : f.isOperator = true) (n : Node f) :
    HEq (Render.view n) n.kind := by
  cases n with
  | node k fields mark =>
    cases k with
    | and | or | add | sub | mult | matMult | div | mod | pow | lShift | rShift | bitOr | bitXor
    | bitAnd | floorDiv | invert | not | uAdd | uSub | eq | notEq | lt | ltE | gt | gtE | is
    | isNot | isIn | notIn => exact HEq.rfl
    | _ => exact absurd hf (by decide)

end Node

namespace View

def Spells : (f : Family) → Node f → View f → Prop
  | .expr, e, v => ExprView.Spells e v
  | _, _, _ => True

theorem spells_marked (k : Kind) (fields : Value Node k.shape) (mark : Mark k.place)
    (h : Spells k.place (Node.of k (Value.mapNodes (fun _ t => Tree.erase t) k.shape fields))
      (Render.rule k (Value.mapNodes (fun _ t => Render.view t) k.shape fields))) :
    Spells k.place (Node.marked k fields mark).erase (Render.view (Node.marked k fields mark)) := by
  rw [Node.view_marked, Node.erase_marked]
  exact h

end View

theorem spells_each {es : List (Node .expr)}
    (h : ∀ e ∈ es, View.Spells .expr e.erase (Render.view e)) :
    List.Forall₂ ExprView.Spells (es.map Tree.erase) (es.map Render.view) := by
  rw [List.forall₂_map_left_iff, List.forall₂_map_right_iff, List.forall₂_same]
  exact h

open Render.Expression in
/-- What the rules do for the parts of an expression, the rendering does for all of it. -/
theorem Core.spells {e : Node .expr} (h : Core e) : View.Spells .expr e.erase (Render.view e) := by
  induction h with
  | name mark hid => exact View.spells_marked .nameExpr _ mark (name_spells hid)
  | int n mark => exact View.spells_marked .constant _ mark (int_spells n)
  | str s mark => exact View.spells_marked .constant _ mark (str_spells s)
  | attributeOf mark _ hattr ih =>
    exact View.spells_marked .attribute _ mark (attributeOf_spells ih hattr)
  | call mark _ _ ih ihs =>
    exact View.spells_marked .call _ mark (call_spells ih (spells_each ihs))
  | subscript mark _ _ ih ihslice =>
    exact View.spells_marked .subscript _ mark (subscript_spells ih ihslice)
  | list mark _ ihs => exact View.spells_marked .list _ mark (list_spells (spells_each ihs))
  | tuple mark _ ihs => exact View.spells_marked .tuple _ mark (tuple_spells (spells_each ihs))
  | binOp op mark _ _ ih ihright =>
    have hop : Render.view op = op.kind := eq_of_heq (Node.view_operator rfl op)
    have hspells := binOp_spells op ih ihright
    rw [← hop] at hspells
    exact View.spells_marked .binOp _ mark hspells
  | boolOp op mark _ ihs =>
    have hop : Render.view op = op.kind := eq_of_heq (Node.view_operator rfl op)
    have hspells := boolOp_spells op (spells_each ihs)
    rw [← hop] at hspells
    exact View.spells_marked .boolOp _ mark hspells
  | unaryOp op mark _ ih =>
    have hop : Render.view op = op.kind := eq_of_heq (Node.view_operator rfl op)
    have hspells := unaryOp_spells op ih
    rw [← hop] at hspells
    exact View.spells_marked .unaryOp _ mark hspells
  | compare ops mark _ _ ih ihs =>
    have hops : ops.map Render.view = ops.map Node.kind :=
      List.map_congr_left fun op _ => eq_of_heq (Node.view_operator rfl op)
    have hspells := compare_spells ops ih (spells_each ihs)
    rw [← hops] at hspells
    exact View.spells_marked .compare _ mark hspells
  | ifExp mark _ _ _ ih ihbody ihorelse =>
    exact View.spells_marked .ifExp _ mark (ifExp_spells ih ihbody ihorelse)
  | namedExpr mark _ _ ih ihvalue =>
    exact View.spells_marked .namedExpr _ mark (namedExpr_spells ih ihvalue)

namespace Node

/-- The reader finds an expression of the core in its text, and nothing beside it. -/
theorem read_of_render {e : Node .expr} (he : Core e) {options : Options} {text : String}
    (h : e.render options = .ok text) :
    Reader.read ⟨[], []⟩ text.toList = some ⟨[.expr e.erase], []⟩ := by
  have hdraft : e.draft.Gives (Spelled e.erase) := ExprView.Spells.text he.spells
  have hspelled := holds_of_render_ok hdraft h
  have hread := hspelled ⟨[], []⟩ [] trivial trivial
  rw [List.append_nil, read_nil] at hread
  exact hread

/-- Two expressions of the core with the same text differ in their positions only, and it takes
no table of precedences to find their structure in the text. -/
theorem erase_eq_of_render_eq (a b : Node .expr) (ha : Core a) (hb : Core b)
    (options others : Options) (text : String) (hra : a.render options = .ok text)
    (hrb : b.render others = .ok text) :
    a.erase = b.erase ∧ Reader.read ⟨[], []⟩ text.toList = some ⟨[.expr a.erase], []⟩ := by
  have hread := read_of_render ha hra
  have hsame := hread.symm.trans (read_of_render hb hrb)
  refine ⟨?_, hread⟩
  simpa using hsame

/-- A chain of comparisons with a negation in it, after an attribute of a number. -/
def comparing (mark : Mark .expr) : Node .expr :=
  .marked .compare (Expr.attributeOf (Expr.int 5) "real", [.of .lt (), .of .isNot ()],
    [Expr.unaryOp (.of .not ()) (Expr.name "x"),
      Expr.call (Expr.name "f") [Expr.subscript (Expr.name "a") (Expr.tuple [Expr.name "i"]),
        Expr.str "it's"]], ()) mark

theorem core_comparing (mark : Mark .expr) : Core (comparing mark) := by
  have hname (id : String) (hid : isIdentifier id = true) : Core (Expr.name id) := .name .none hid
  have hreal : Core (Expr.attributeOf (Expr.int 5) "real") := .attributeOf .none (.int 5 .none) rfl
  have hnot : Core (Expr.unaryOp (.of .not ()) (Expr.name "x")) :=
    .unaryOp _ .none (hname "x" rfl)
  have hindex : Core (Expr.subscript (Expr.name "a") (Expr.tuple [Expr.name "i"])) :=
    .subscript .none (hname "a" rfl) (.tuple .none (by simpa using hname "i" rfl))
  have hstr : Core (Expr.str "it's") := .str _ .none
  have hcall : Core (Expr.call (Expr.name "f")
      [Expr.subscript (Expr.name "a") (Expr.tuple [Expr.name "i"]), Expr.str "it's"]) :=
    .call .none (hname "f" rfl) (by simp [hindex, hstr])
  exact .compare _ mark hreal (by simp [hnot, hcall])

theorem comparing_erase_eq :
    (comparing .none).render {} = .ok "((5).real < (not x) is not f(a[i,], \"it's\"))" ∧
    (comparing (.at ⟨1, 0⟩ rfl)).render {} =
      .ok "((5).real < (not x) is not f(a[i,], \"it's\"))" ∧
    comparing .none ≠ comparing (.at ⟨1, 0⟩ rfl) ∧
    (comparing .none).erase = (comparing (.at ⟨1, 0⟩ rfl)).erase := by
  refine ⟨rfl, rfl, ?_, ?_⟩
  · intro h
    have hposition : (none : Option Position) = some ⟨1, 0⟩ := congrArg Node.position? h
    cases hposition
  · exact (erase_eq_of_render_eq _ _ (core_comparing _) (core_comparing _) {} {} _ rfl rfl).1

end Node

end Unparse
