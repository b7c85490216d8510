import Mathlib.Logic.Basic
import Unparse.Proofs.Tree.Erase
import Unparse.Traversal.Shift
import Unparse.Tree.Build

/-! Rendering is blind to positions. What a node becomes is computed from its kind and its
fields alone, so that trees which differ only in positions have the same text, or fail in the
same way. -/
namespace Unparse

namespace Tree

/-- A computation that makes no use of positions gives the same without them. -/
theorem fold_erase {V : Family → Type} (rule : (k : Kind) → Value V k.shape → V k.place)
    {s : Shape} (t : Tree s) :
    t.erase.fold (fun k fields _ => rule k fields) = t.fold fun k fields _ => rule k fields := by
  induction t with
  | node k fields mark ih => exact congrArg (rule k) ih
  | scalar value => rfl
  | absent => rfl
  | present content ih => exact congrArg some ih
  | nil => rfl
  | cons head tail ihHead ihTail => exact congrArg₂ List.cons ihHead ihTail
  | done => rfl
  | field value more ihValue ihMore => exact congrArg₂ Prod.mk ihValue ihMore

theorem erase_mapPositions (change : Position → Position) {s : Shape} (t : Tree s) :
    (t.mapPositions change).erase = t.erase := by
  induction t with
  | node k fields mark ih => exact congrArg (node k · .none) ih
  | scalar value => rfl
  | absent => rfl
  | present content ih => exact congrArg present ih
  | nil => rfl
  | cons head tail ihHead ihTail => exact congrArg₂ cons ihHead ihTail
  | done => rfl
  | field value more ihValue ihMore => exact congrArg₂ field ihValue ihMore

end Tree

namespace Node

variable {f : Family}

theorem view_erase (t : Node f) : Render.view t.erase = Render.view t :=
  Tree.fold_erase Render.rule t

theorem render_erase (options : Options) (t : Node f) :
    Node.render options t.erase = t.render options := by
  unfold render draft
  rw [view_erase]

/-- A tree that has been shifted has the same text, or fails in the same way. -/
theorem render_shift (options : Options) (o : Offset) (t : Node f) :
    Node.render options (t.shift o) = t.render options := by
  rw [← render_erase options (t.shift o), ← render_erase options t, Tree.shift,
    Tree.erase_mapPositions]

end Node

end Unparse
