import Unparse.Traversal.Shift
import Unparse.Proofs.Traversal.Children

/-! Revisions by shape. Going through the places of the children, kind by kind, changes the same
nodes in the same order as one pass over the tree that leaves out the operators. -/
namespace Unparse

variable {S : Type} {r : Reviser S}

namespace Tree

/-- Revises the nodes of a tree from the first to the last. After a stop, and in an operator,
everything stays as it is. -/
def reviseFrom (r : Reviser S) : {s : Shape} → Tree s → Progress S → Tree s × Progress S
  | _, node k fields mark, p =>
    if p.stopped || k.isOperator then (node k fields mark, p)
    else
      match r.visit p.state ⟨k.place, node k fields mark⟩ with
      | (st, .stop) => (r.revised k fields mark, ⟨st, true⟩)
      | (st, .skip) => (r.revised k fields mark, ⟨st, false⟩)
      | (st, .proceed) =>
        let inside := fields.reviseFrom r ⟨st, false⟩
        (r.revised k inside.1 mark, inside.2)
  | _, scalar value, p => (scalar value, p)
  | _, absent, p => (absent, p)
  | _, present content, p =>
    let inside := content.reviseFrom r p
    (present inside.1, inside.2)
  | _, nil, p => (nil, p)
  | _, cons head tail, p =>
    let first := head.reviseFrom r p
    let others := tail.reviseFrom r first.2
    (cons first.1 others.1, others.2)
  | _, done, p => (done, p)
  | _, field value more, p =>
    let first := value.reviseFrom r p
    let others := more.reviseFrom r first.2
    (field first.1 others.1, others.2)

/-- Entering the places in a tree one after the other leaves there what one pass over the tree
makes of it. -/
def Followed (r : Reviser S) {s : Shape} (t : Tree s) : Prop :=
  ∀ p, ∃ handles,
    (Value.each Handle.enter s (t.foldWith r.around)).run p = (handles, (t.reviseFrom r p).2) ∧
    ofValue s (Value.mapNodes (fun _ => Handle.node) s handles) = (t.reviseFrom r p).1

theorem revise_around {k : Kind} {fields : Tree k.shape} {mark : Mark k.place}
    (hoperator : k.isOperator = false) (hfields : fields.Followed r) (st : S) :
    (r.around k fields mark (fields.foldWith r.around)).revise st =
      reviseFrom r (node k fields mark) ⟨st, false⟩ := by
  rw [reviseFrom, hoperator]
  cases hvisit : r.visit st ⟨k.place, node k fields mark⟩ with
  | mk st' control =>
    simp only [Reviser.around, hvisit]
    cases control with
    | stop => rfl
    | skip => rfl
    | proceed =>
      obtain ⟨handles, hrun, hrebuilt⟩ := hfields ⟨st', false⟩
      simp only [Kind.eachChild_eq_each, hrun, hrebuilt]
      rfl

theorem followed {s : Shape} (t : Tree s) : t.Followed r := by
  intro p
  induction t generalizing p with
  | node k fields mark ih =>
    by_cases hoperator : k.isOperator = true
    -- An operator is passed by, whether or not there has been a stop.
    · have hplace : k.place.isOperator = true := k.isOperator_place.trans hoperator
      refine ⟨r.around k fields mark (fields.foldWith r.around), ?_, ?_⟩
      · rw [reviseFrom, hoperator, Bool.or_true, foldWith, Value.each, if_pos hplace]
        rfl
      · rw [reviseFrom, hoperator, Bool.or_true]
        rfl
    · have hoperator : k.isOperator = false := Bool.eq_false_iff.mpr hoperator
      have hplace : k.place.isOperator = false := k.isOperator_place.trans hoperator
      rw [foldWith, Value.each, hplace]
      obtain ⟨st, stopped⟩ := p
      cases stopped with
      | true => exact ⟨r.around k fields mark (fields.foldWith r.around), rfl, rfl⟩
      | false =>
        rw [← revise_around hoperator ih]
        exact ⟨_, rfl, rfl⟩
  | scalar value => exact ⟨value, rfl, rfl⟩
  | absent => exact ⟨none, rfl, rfl⟩
  | present content ih =>
    obtain ⟨handles, hrun, hcontent⟩ := ih p
    exact ⟨some handles, StateM.run_map some hrun, congrArg present hcontent⟩
  | nil => exact ⟨[], rfl, rfl⟩
  | cons head tail ihHead ihTail =>
    obtain ⟨first, hfirst, hhead⟩ := ihHead p
    obtain ⟨others, hothers, htail⟩ := ihTail (head.reviseFrom r p).2
    refine ⟨first :: others, ?_, congr (congrArg cons hhead) htail⟩
    rw [foldWith, Value.each_cons]
    exact StateM.run_both List.cons hfirst hothers
  | done => exact ⟨(), rfl, rfl⟩
  | field value more ihValue ihMore =>
    obtain ⟨first, hfirst, hvalue⟩ := ihValue p
    obtain ⟨others, hothers, hmore⟩ := ihMore (value.reviseFrom r p).2
    exact ⟨(first, others), StateM.run_both Prod.mk hfirst hothers,
      congr (congrArg field hvalue) hmore⟩

end Tree

/-- A revision is one pass over the tree. -/
theorem Node.revise_eq_reviseFrom {f : Family} (t : Node f) (st : S) :
    t.revise r st = Tree.reviseFrom r t ⟨st, false⟩ := by
  cases t with
  | node k fields mark =>
    change (if k.isOperator then _ else _) = _
    cases hoperator : k.isOperator with
    | true =>
      rw [Tree.reviseFrom, hoperator]
      rfl
    | false => exact Tree.revise_around hoperator (Tree.followed fields) st

/-! Revisions that go through to the end. -/
namespace Tree

/-- A tree with the changes that a reviser makes to every node but the operators. -/
def rewrite (r : Reviser S) : {s : Shape} → Tree s → Tree s
  | _, node k fields mark =>
    if k.isOperator then node k fields mark else r.revised k (fields.rewrite r) mark
  | _, scalar value => scalar value
  | _, absent => absent
  | _, present content => present (content.rewrite r)
  | _, nil => nil
  | _, cons head tail => cons (head.rewrite r) (tail.rewrite r)
  | _, done => done
  | _, field value more => field (value.rewrite r) (more.rewrite r)

/-- The nodes that can be replaced, each before those inside of it. -/
def replaceable {s : Shape} (t : Tree s) : List AnyNode :=
  t.preorder.filter (!·.isOperator)

theorem of_done {P : (s : Shape) → Tree s → Prop} (hdone : P .done done) {s : Shape} (t : Tree s)
    (h : s = .done) : P s t := by
  subst h
  cases t with
  | done => exact hdone

theorem replaceable_node (k : Kind) (fields : Tree k.shape) (mark : Mark k.place) :
    (node k fields mark).replaceable =
      if k.isOperator then [] else ⟨k.place, node k fields mark⟩ :: fields.replaceable := by
  have hself : (AnyNode.mk k.place (node k fields mark)).isOperator = k.isOperator := rfl
  rw [replaceable, preorder, List.filter_cons, hself]
  cases hoperator : k.isOperator with
  | false => rfl
  | true =>
    have hfields : fields.preorder = [] :=
      of_done (P := fun _ t => t.preorder = []) rfl fields (Kind.shape_of_isOperator hoperator)
    rw [hfields]
    rfl

theorem replaceable_cons {s : Shape} (head : Tree s) (tail : Tree (.list s)) :
    (cons head tail).replaceable = head.replaceable ++ tail.replaceable :=
  List.filter_append ..

theorem replaceable_field {name : String} {presence : Presence} {s rest : Shape} (value : Tree s)
    (more : Tree rest) : (@field name presence s rest value more).replaceable =
      value.replaceable ++ more.replaceable :=
  List.filter_append ..

theorem mapTexts_self {s : Shape} (t : Tree s) : t.mapTexts (fun text => text) = t := by
  induction t with
  | node k fields mark ih => rfl
  | @scalar a value => cases a <;> rfl
  | absent => rfl
  | present content ih => exact congrArg present ih
  | nil => rfl
  | cons head tail ihHead ihTail => rw [mapTexts, ihHead, ihTail]
  | done => rfl
  | field value more ihValue ihMore => rw [mapTexts, ihValue, ihMore]

/-- There is nothing to be moved in an operator. -/
theorem mapPositions_of_isOperator (change : Position → Position) {k : Kind}
    (hoperator : k.isOperator = true) (fields : Tree k.shape) (mark : Mark k.place) :
    (node k fields mark).mapPositions change = node k fields mark := by
  have hfields : fields.mapPositions change = fields :=
    of_done (P := fun _ t => t.mapPositions change = t) rfl fields
      (Kind.shape_of_isOperator hoperator)
  rw [mapPositions, hfields, mark.eq_none hoperator]
  rfl

theorem rewrite_eq_mapPositions (htext : r.text = fun _ text => text) {s : Shape} (t : Tree s) :
    t.rewrite r = t.mapPositions r.position := by
  induction t with
  | node k fields mark ih =>
    cases hoperator : k.isOperator with
    | true =>
      rw [mapPositions_of_isOperator _ hoperator, rewrite, hoperator]
      rfl
    | false =>
      rw [rewrite, hoperator, Reviser.revised, htext, mapTexts_self, ih]
      rfl
  | scalar value => rfl
  | absent => rfl
  | present content ih => exact congrArg present ih
  | nil => rfl
  | cons head tail ihHead ihTail => rw [rewrite, mapPositions, ihHead, ihTail]
  | done => rfl
  | field value more ihValue ihMore => rw [rewrite, mapPositions, ihValue, ihMore]

theorem reviseFrom_of_proceeds (hproceed : ∀ st n, (r.visit st n).2 = .proceed) {s : Shape}
    (t : Tree s) (st : S) :
    t.reviseFrom r ⟨st, false⟩ =
      (t.rewrite r, ⟨t.replaceable.foldl (fun st n => (r.visit st n).1) st, false⟩) := by
  induction t generalizing st with
  | node k fields mark ih =>
    rw [replaceable_node, reviseFrom, rewrite]
    cases hoperator : k.isOperator with
    | true => rfl
    | false =>
      have hvisit := hproceed st ⟨k.place, node k fields mark⟩
      cases hnode : r.visit st ⟨k.place, node k fields mark⟩ with
      | mk st' control =>
        rw [hnode] at hvisit
        cases hvisit
        simp [ih, hnode]
  | scalar value => rfl
  | absent => rfl
  | present content ih => simp [reviseFrom, rewrite, ih, replaceable, preorder]
  | nil => rfl
  | cons head tail ihHead ihTail =>
    simp only [reviseFrom, rewrite, ihHead, ihTail, replaceable_cons, List.foldl_append]
  | done => rfl
  | field value more ihValue ihMore =>
    simp only [reviseFrom, rewrite, ihValue, ihMore, replaceable_field, List.foldl_append]

end Tree

end Unparse
