import Mathlib.Algebra.Group.Nat.Defs
import Unparse.Proofs.Positions
import Unparse.Proofs.Traversal.Revisions
import Unparse.Proofs.Traversal.Walks
import Unparse.Tree.Build

/-! Shifting a tree. Every recorded position is moved exactly once, whatever field its node is
found in, and nothing else changes; no rendering sees that it was moved. -/
namespace Unparse

theorem toNat_addCapped (a b : UInt32) :
    (addCapped a b).toNat = min (a.toNat + b.toNat) (2 ^ 32 - 1) := by
  have hsize : UInt32.size = 2 ^ 32 := rfl
  have hgreatest : (UInt32.ofNat (UInt32.size - 1)).toNat = 2 ^ 32 - 1 := rfl
  unfold addCapped
  split
  next hfits =>
    rw [UInt32.toNat_add]
    omega
  next hfull =>
    rw [hgreatest]
    omega

theorem Mark.position?_map {f : Family} (change : Position → Position) (mark : Mark f) :
    (mark.map change).position? = mark.position?.map change := by
  cases mark <;> rfl

theorem AnyNode.position?_of_isOperator {n : AnyNode} (hoperator : n.isOperator = true) :
    n.position? = none := by
  obtain ⟨f, t⟩ := n
  cases t with
  | node k fields mark => exact congrArg Mark.position? (mark.eq_none hoperator)

namespace Tree

theorem map_position?_mapPositions (change : Position → Position) {s : Shape} (t : Tree s) :
    (t.mapPositions change).preorder.map AnyNode.position? =
      t.preorder.map fun n => n.position?.map change := by
  induction t with
  | node k fields mark ih => exact congrArg₂ List.cons (mark.position?_map change) ih
  | scalar value => rfl
  | absent => rfl
  | present content ih => exact ih
  | nil => rfl
  | cons head tail ihHead ihTail =>
    rw [mapPositions, preorder, preorder, List.map_append, List.map_append, ihHead, ihTail]
  | done => rfl
  | field value more ihValue ihMore =>
    rw [mapPositions, preorder, preorder, List.map_append, List.map_append, ihValue, ihMore]

/-- Operators have no position, so that none is missed by leaving them out. -/
theorem countP_replaceable {s : Shape} (t : Tree s) :
    t.replaceable.countP (·.position?.isSome) = t.preorder.countP (·.position?.isSome) := by
  rw [replaceable, List.countP_filter]
  apply List.countP_congr
  intro n _
  cases hoperator : n.isOperator with
  | true => simp [AnyNode.position?_of_isOperator hoperator]
  | false => simp

end Tree

namespace Node

variable {f : Family}

theorem adjust_eq (o : Offset) (t : Node f) :
    t.adjust o = (t.shift o, t.preorder.countP (·.position?.isSome)) := by
  have hcount (ns : List AnyNode) (count : Nat) :
      ns.foldl (fun count n => (o.reviser.visit count n).1) count =
        count + ns.countP (·.position?.isSome) := by
    induction ns generalizing count with
    | nil => rfl
    | cons n more ih =>
      rw [List.foldl_cons, ih, List.countP_cons]
      simp only [Offset.reviser]
      split <;> omega
  rw [adjust, revise_eq_reviseFrom, Tree.reviseFrom_of_proceeds (fun _ _ => rfl), hcount,
    Tree.rewrite_eq_mapPositions rfl, Tree.countP_replaceable, Nat.zero_add]
  rfl

theorem adjust_fst (o : Offset) (t : Node f) : (t.adjust o).1 = t.shift o :=
  congrArg Prod.fst (t.adjust_eq o)

/-- The shifted tree is the same but for positions; each recorded position is moved by the offset
as far as the numbers go, none appears or disappears, and the number of those that were moved is
the number of those recorded. -/
theorem adjust_moves_each (o : Offset) (t : Node f) :
    (t.adjust o).1.erase = t.erase ∧
    ((t.adjust o).1.observed fun n => n.position?.map fun p => (p.line.toNat, p.column.toNat)) =
      (t.observed fun n => n.position?.map fun p =>
        (min (p.line.toNat + o.lines.toNat) (2 ^ 32 - 1),
          min (p.column.toNat + o.columns.toNat) (2 ^ 32 - 1))) ∧
    (t.adjust o).2 = (t.observed AnyNode.position?).countP Option.isSome := by
  rw [adjust_eq]
  refine ⟨Tree.erase_mapPositions _ t, ?_, ?_⟩
  · rw [observed_eq_map, observed_eq_map]
    have hmoved := congrArg (List.map (Option.map fun p => (p.line.toNat, p.column.toNat)))
      (Tree.map_position?_mapPositions (Position.shift o) t)
    simpa [Tree.shift, Function.comp_def, Position.shift, toNat_addCapped] using hmoved
  · rw [observed_eq_map, List.countP_map]
    rfl

/-- Trees that are the same but for positions have the same text, or fail for the same reason. In
particular a tree may be shifted before it is rendered. -/
theorem render_blind {f : Family} (options : Options) (t u : Node f) :
    (t.erase = u.erase → t.render options = u.render options) ∧
      ∀ offset, Node.render options (t.shift offset) = t.render options ∧
        (t.adjust offset).1.render options = t.render options := by
  constructor
  · intro h
    rw [← render_erase options t, ← render_erase options u, h]
  · intro offset
    rw [adjust_fst]
    exact ⟨t.render_shift options offset, t.render_shift options offset⟩

/-- A function with a docstring, each of them somewhere in the source. -/
def documented (p q : Position) : Node .stmt :=
  withPosition p (Stmt.functionDef "f" (Stmt.positional ["x"])
    [Stmt.expr (withPosition q (Expr.str "Doc."))])

theorem documented_blind :
    (documented ⟨1, 0⟩ ⟨2, 4⟩).erase = (documented ⟨30, 8⟩ ⟨31, 12⟩).erase ∧
    (documented ⟨1, 0⟩ ⟨2, 4⟩).render {} = (documented ⟨30, 8⟩ ⟨31, 12⟩).render {} ∧
    (documented ⟨30, 8⟩ ⟨31, 12⟩).render {} =
      .ok "def f(x):\n    \x22\x22\x22Doc.\x22\x22\x22\n" := by
  refine ⟨rfl, ?_, rfl⟩
  exact (render_blind {} (documented ⟨1, 0⟩ ⟨2, 4⟩) (documented ⟨30, 8⟩ ⟨31, 12⟩)).1 rfl

end Node

end Unparse
