import Unparse.Render

/-! Trees without recorded positions. Two trees that differ only in positions become the
same tree; rendering does not tell them apart. -/
namespace Unparse

namespace Tree

def erase : {s : Shape} → Tree s → Tree s
  | _, node k fields _ => node k fields.erase .none
  | _, scalar value => scalar value
  | _, absent => absent
  | _, present content => present content.erase
  | _, nil => nil
  | _, cons head tail => cons head.erase tail.erase
  | _, done => done
  | _, field value more => field value.erase more.erase

theorem ofValue_values {s : Shape} (t : Tree s) : ofValue s t.values = t := by
  induction t with
  | node k fields mark ih => rfl
  | scalar value => rfl
  | absent => rfl
  | present content ih => exact congrArg present ih
  | nil => rfl
  | cons head tail ihHead ihTail =>
    change cons (ofValue _ head.values) (ofValue _ tail.values) = _
    rw [ihHead, ihTail]
  | done => rfl
  | field value more ihValue ihMore =>
    change field (ofValue _ value.values) (ofValue _ more.values) = _
    rw [ihValue, ihMore]

theorem fold_ofValue {V : Family → Type}
    (rule : (k : Kind) → Value V k.shape → Mark k.place → V k.place)
    (s : Shape) (v : Value Node s) :
    (ofValue s v).fold rule = Value.mapNodes (fun _ t => Tree.fold rule t) s v := by
  induction s with
  | node f => rfl
  | scalar a => rfl
  | option s ih =>
    cases v with
    | none => rfl
    | some v => exact congrArg some (ih v)
  | list s ih =>
    induction v with
    | nil => rfl
    | cons v vs ihs =>
      change Tree.fold rule (ofValue s v) :: Tree.fold rule (ofValue (.list s) vs) = _
      rw [ih, ihs]
      rfl
  | done => rfl
  | field name presence s rest ihs ihrest =>
    change (Tree.fold rule (ofValue s v.1), Tree.fold rule (ofValue rest v.2)) = _
    rw [ihs, ihrest]
    rfl

theorem erase_ofValue (s : Shape) (v : Value Node s) :
    (ofValue s v).erase = ofValue s (Value.mapNodes (fun _ t => Tree.erase t) s v) := by
  induction s with
  | node f => rfl
  | scalar a => rfl
  | option s ih =>
    cases v with
    | none => rfl
    | some v => exact congrArg present (ih v)
  | list s ih =>
    induction v with
    | nil => rfl
    | cons v vs ihs =>
      change cons (ofValue s v).erase (ofValue (.list s) vs).erase = _
      rw [ih, ihs]
      rfl
  | done => rfl
  | field name presence s rest ihs ihrest =>
    change field (ofValue s v.1).erase (ofValue rest v.2).erase = _
    rw [ihs, ihrest]
    rfl

theorem erase_of_done {s : Shape} (t : Tree s) (h : s = .done) : t.erase = h ▸ done := by
  subst h
  cases t with
  | done => rfl

end Tree

namespace Node

/-- The node of a kind with the given fields and position. -/
def marked (k : Kind) (fields : Value Node k.shape) (mark : Mark k.place) : Node k.place :=
  .node k (Tree.ofValue k.shape fields) mark

theorem view_marked (k : Kind) (fields : Value Node k.shape) (mark : Mark k.place) :
    Render.view (marked k fields mark) =
      Render.rule k (Value.mapNodes (fun _ t => Render.view t) k.shape fields) :=
  congrArg (Render.rule k) (Tree.fold_ofValue _ k.shape fields)

theorem view_node (k : Kind) (fields : Tree k.shape) (mark : Mark k.place) :
    Render.view (.node k fields mark) =
      Render.rule k (Value.mapNodes (fun _ t => Render.view t) k.shape fields.values) := by
  rw [← view_marked k fields.values mark, marked, Tree.ofValue_values]

theorem erase_marked (k : Kind) (fields : Value Node k.shape) (mark : Mark k.place) :
    (marked k fields mark).erase =
      Node.of k (Value.mapNodes (fun _ t => Tree.erase t) k.shape fields) :=
  congrArg (Tree.node k · .none) (Tree.erase_ofValue k.shape fields)

theorem erase_node (k : Kind) (fields : Tree k.shape) (mark : Mark k.place) :
    (Tree.node k fields mark).erase =
      Node.of k (Value.mapNodes (fun _ t => Tree.erase t) k.shape fields.values) := by
  rw [← erase_marked k fields.values mark, marked, Tree.ofValue_values]

theorem place_kind {f : Family} (n : Node f) : n.kind.place = f := by
  cases n with
  | node k fields mark => rfl

/-- The node of a kind without fields, if the kind is one and may take a place of the family. -/
def bare? (f : Family) (k : Kind) : Option (Node f) :=
  if h : k.place = f ∧ k.shape = .done then some (h.1 ▸ .node k (h.2 ▸ .done) .none) else none

theorem bare?_kind {f : Family} (n : Node f) (h : n.kind.shape = .done) :
    bare? f n.kind = some n.erase := by
  cases n with
  | node k fields mark =>
    have hshape : k.shape = .done := h
    have hfields := Tree.erase_of_done fields hshape
    rw [bare?, dif_pos ⟨place_kind (.node k fields mark), h⟩, Tree.erase, hfields]
    rfl

end Node

end Unparse
