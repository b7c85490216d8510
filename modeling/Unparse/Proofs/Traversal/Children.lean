import Unparse.Traversal.Listing

/-! The tables of children against the layout of nodes. Both tables go through the nodes of a
record from its first field to its last, and neither leaves a field out or takes one twice. -/
namespace Unparse

namespace StateM

variable {S A B C : Type} {x : StateM S A} {y : StateM S B} {s s' s'' : S} {a : A} {b : B}

theorem run_map (g : A → C) (hx : x.run s = (a, s')) : (g <$> x).run s = (g a, s') := by
  rw [StateT.run_map, hx]
  rfl

theorem run_both (g : A → B → C) (hx : x.run s = (a, s')) (hy : y.run s' = (b, s'')) :
    (do return g (← x) (← y) : StateM S C).run s = (g a b, s'') := by
  rw [StateT.run_bind, hx]
  change (y >>= fun b => pure (g a b)).run s' = _
  rw [StateT.run_bind, hy]
  rfl

end StateM

/-- Whether there may be a node of such a family in there. -/
def Shape.holds (p : Family → Bool) : Shape → Bool
  | node f => p f
  | scalar _ => false
  | option s => s.holds p
  | list s => s.holds p
  | done => false
  | field _ _ s rest => s.holds p || rest.holds p

section Looking

variable {V : Family → Type} {A : Type} (give : {f : Family} → V f → A)

namespace Value

/-- What the nodes in a value give, from the first to the last. -/
def listed : (s : Shape) → Value V s → List A
  | .node _, v => [give v]
  | .scalar _, _ => []
  | .option s, v => (Option.toList v).flatMap (listed s)
  | .list s, vs => List.flatMap (listed s) vs
  | .done, _ => []
  | .field _ _ s rest, (v, more) => listed s v ++ listed rest more

/-- What a field gives, in the terms of the table; nothing at all if no node can be in it. -/
def portion : (s : Shape) → Value V s → Option (List A)
  | .node _, v => some [give v]
  | .option (.node _), v => some ((Option.toList v).map give)
  | .list (.node _), vs => some (List.map give vs)
  | .list (.option (.node _)), vs => some ((List.flatMap Option.toList vs).map give)
  | s, v => if s.holds (fun _ => true) then some (listed give s v) else none

def portions : (s : Shape) → Value V s → List (List A)
  | .field _ _ s rest, (v, more) => (portion give s v).toList ++ portions rest more
  | .done, _ => []
  | s, v => [listed give s v]

theorem listed_eq_nil {s : Shape} (v : Value V s) (h : s.holds (fun _ => true) = false) :
    listed give s v = [] := by
  induction s with
  | node f => cases h
  | scalar a => rfl
  | option s ih =>
    apply List.flatMap_eq_nil_iff.mpr
    intro w _
    exact ih w h
  | list s ih =>
    apply List.flatMap_eq_nil_iff.mpr
    intro w _
    exact ih w h
  | done => rfl
  | field name presence s rest ihs ihrest =>
    obtain ⟨hs, hrest⟩ := Bool.or_eq_false_iff.mp h
    obtain ⟨w, more⟩ := v
    exact List.append_eq_nil_iff.mpr ⟨ihs w hs, ihrest more hrest⟩

theorem flatten_portion (s : Shape) (v : Value V s) :
    (portion give s v).toList.flatten = listed give s v := by
  unfold portion
  split
  next => rfl
  next v => cases v <;> rfl
  next vs =>
    rw [Option.toList_some, List.flatten_singleton]
    exact List.map_eq_flatMap
  next vs =>
    rw [Option.toList_some, List.flatten_singleton, List.map_flatMap]
    congr 1
    funext v
    cases v <;> rfl
  next =>
    cases h : s.holds (fun _ => true) with
    | true => simp
    | false => simp [listed_eq_nil give v h]

theorem flatten_portions (s : Shape) (v : Value V s) :
    (portions give s v).flatten = listed give s v := by
  induction s with
  | field name presence s rest ihs ihrest =>
    obtain ⟨w, more⟩ := v
    rw [portions, listed, List.flatten_append, flatten_portion, ihrest]
  | done => rfl
  | _ => exact List.append_nil _

end Value

namespace Kind

theorem childLists_eq_portions (k : Kind) (v : Value V k.shape) :
    k.childLists give v = Value.portions give k.shape v := by
  cases k <;> rfl

/-- The children are the nodes in the fields, from the first to the last. -/
theorem children_eq_listed (k : Kind) (v : Value V k.shape) :
    k.children give v = Value.listed give k.shape v := by
  unfold children
  rw [childLists_eq_portions]
  exact Value.flatten_portions give k.shape v

end Kind

end Looking

section Replacing

variable {M : Type → Type} [Monad M] {V : Family → Type} (act : {f : Family} → V f → M (V f))

namespace Value

/-- Acts on the nodes in a value that can be replaced, from the first to the last. -/
def each : (s : Shape) → Value V s → M (Value V s)
  | .node f, v => if f.isOperator then return v else act v
  | .scalar _, v => return v
  | .option s, v => Option.mapM (each s) v
  | .list s, vs => List.mapM (each s) vs
  | .done, v => return v
  | .field _ _ s rest, (v, more) => return (← each s v, ← each rest more)

/-- Acts on the fields of a record and goes on with what comes of them, in the terms of the table:
a field without a node to be replaced is not touched. -/
def eachThen {R : Type} : (s : Shape) → Value V s → (Value V s → M R) → M R
  | .field _ _ s rest, (v, more), next =>
    if s.holds (!·.isOperator) then do
      let v ← each act s v
      eachThen rest more fun more => next (v, more)
    else eachThen rest more fun more => next (v, more)
  | .done, v, next => next v
  | s, v, next => each act s v >>= next

theorem each_eq_pure [LawfulMonad M] {s : Shape} (v : Value V s)
    (h : s.holds (!·.isOperator) = false) : each act s v = pure v := by
  induction s with
  | node f =>
    have hf : f.isOperator = true := by simpa [Shape.holds] using h
    simp [each, hf]
  | scalar a => rfl
  | option s ih =>
    have hs : each act s = pure := funext fun w => ih w h
    change Option.mapM (each act s) v = pure v
    rw [hs]
    cases v <;> simp
  | list s ih =>
    have hs : each act s = pure := funext fun w => ih w h
    change List.mapM (each act s) v = pure v
    rw [hs]
    exact List.mapM_pure.trans (congrArg pure (List.map_id v))
  | done => rfl
  | field name presence s rest ihs ihrest =>
    obtain ⟨hs, hrest⟩ := Bool.or_eq_false_iff.mp h
    obtain ⟨w, more⟩ := v
    simp [each, ihs w hs, ihrest more hrest]

theorem each_cons [LawfulMonad M] {s : Shape} (v : Value V s) (vs : List (Value V s)) :
    each act (.list s) (v :: vs) = do return (← each act s v) :: (← each act (.list s) vs) :=
  List.mapM_cons

theorem eachThen_eq_bind [LawfulMonad M] {R : Type} {s : Shape} (v : Value V s)
    (next : Value V s → M R) : eachThen act s v next = each act s v >>= next := by
  induction s with
  | field name presence s rest ihs ihrest =>
    obtain ⟨w, more⟩ := v
    simp only [eachThen, each, ihrest, bind_assoc, pure_bind]
    cases h : s.holds (!·.isOperator) with
    | true => rfl
    | false => simp [each_eq_pure act w h]
  | done => exact (pure_bind v next).symm
  | _ => rfl

end Value

namespace Kind

theorem eachChild_eq_eachThen (k : Kind) (v : Value V k.shape) :
    k.eachChild act v = Value.eachThen act k.shape v pure := by
  cases k <;> rfl

/-- The children that can be replaced are the nodes in the fields that are not operators, from the
first to the last. -/
theorem eachChild_eq_each [LawfulMonad M] (k : Kind) (v : Value V k.shape) :
    k.eachChild act v = Value.each act k.shape v := by
  rw [eachChild_eq_eachThen]
  exact (Value.eachThen_eq_bind act v pure).trans (bind_pure _)

end Kind

end Replacing

namespace Tree

/-- The outermost nodes, in field order. -/
def roots : {s : Shape} → Tree s → List AnyNode
  | _, node k fields mark => [⟨k.place, node k fields mark⟩]
  | _, scalar _ => []
  | _, absent => []
  | _, present content => content.roots
  | _, nil => []
  | _, cons head tail => head.roots ++ tail.roots
  | _, done => []
  | _, field value more => value.roots ++ more.roots

theorem listed_foldWith {V : Family → Type} {A : Type} (give : {f : Family} → V f → A)
    (rule : (k : Kind) → Tree k.shape → Mark k.place → Value V k.shape → V k.place)
    {s : Shape} (t : Tree s) :
    Value.listed give s (t.foldWith rule) =
      t.roots.map fun n => give (Tree.foldWith rule n.node) := by
  induction t with
  | node k fields mark ih => rfl
  | scalar value => rfl
  | absent => rfl
  | present content ih => exact (List.append_nil _).trans ih
  | nil => rfl
  | cons head tail ihHead ihTail =>
    rw [roots, List.map_append, ← ihHead, ← ihTail]
    rfl
  | done => rfl
  | field value more ihValue ihMore =>
    rw [roots, List.map_append, ← ihValue, ← ihMore]
    rfl

theorem listed_values {s : Shape} (t : Tree s) :
    Value.listed (fun n => (⟨_, n⟩ : AnyNode)) s t.values = t.roots := by
  induction t with
  | node k fields mark ih => rfl
  | scalar value => rfl
  | absent => rfl
  | present content ih => exact (List.append_nil _).trans ih
  | nil => rfl
  | cons head tail ihHead ihTail =>
    rw [roots, ← ihHead, ← ihTail]
    rfl
  | done => rfl
  | field value more ihValue ihMore =>
    rw [roots, ← ihValue, ← ihMore]
    rfl

/-- Taking note of the nodes in a tree that can be replaced leaves the tree as it is. -/
theorem each_note {s : Shape} (t : Tree s) (seen : List AnyNode) :
    (Value.each Node.note s t.values).run seen =
      (t.values, seen ++ t.roots.filter (!·.isOperator)) := by
  induction t generalizing seen with
  | node k fields mark ih =>
    have hroot : (AnyNode.mk k.place (.node k fields mark)).isOperator = k.place.isOperator :=
      k.isOperator_place.symm
    cases h : k.place.isOperator with
    | true =>
      rw [roots, List.filter_cons, hroot, h, values, Value.each, if_pos h]
      exact congrArg (Prod.mk (node k fields mark)) (List.append_nil seen).symm
    | false =>
      rw [roots, List.filter_cons, hroot, h, values, Value.each, h]
      rfl
  | scalar value => exact congrArg (Prod.mk value) (List.append_nil seen).symm
  | absent => exact congrArg (Prod.mk none) (List.append_nil seen).symm
  | present content ih => exact StateM.run_map some (ih seen)
  | nil => exact congrArg (Prod.mk []) (List.append_nil seen).symm
  | cons head tail ihHead ihTail =>
    rw [roots, List.filter_append, ← List.append_assoc, values, Value.each_cons]
    exact StateM.run_both List.cons (ihHead seen) (ihTail _)
  | done => exact congrArg (Prod.mk ()) (List.append_nil seen).symm
  | field value more ihValue ihMore =>
    rw [roots, List.filter_append, ← List.append_assoc]
    exact StateM.run_both Prod.mk (ihValue seen) (ihMore _)

end Tree

namespace Node

variable {k : Kind} {fields : Tree k.shape} {mark : Mark k.place}

theorem children_eq_roots : children (.node k fields mark) = fields.roots := by
  rw [children, Kind.children_eq_listed, Tree.listed_values]

/-- What has been computed of the children of a node, in their order. -/
theorem children_foldWith {V : Family → Type} {A : Type} (give : {f : Family} → V f → A)
    (rule : (k : Kind) → Tree k.shape → Mark k.place → Value V k.shape → V k.place) :
    k.children give (fields.foldWith rule) =
      (children (.node k fields mark)).map fun n => give (Tree.foldWith rule n.node) := by
  rw [Kind.children_eq_listed, Tree.listed_foldWith, children_eq_roots]

/-- The children that can be replaced are those that are not operators. -/
theorem mutableChildren_eq_filter {f : Family} (t : Node f) :
    t.mutableChildren = t.children.filter (!·.isOperator) := by
  cases t with
  | node k fields mark =>
    rw [mutableChildren, Kind.eachChild_eq_each, Tree.each_note, List.nil_append,
      children_eq_roots]

end Node

namespace AnyNode

/-- What holds of a node whenever it holds of the children, holds of every node. -/
theorem induction_children {P : AnyNode → Prop} (step : ∀ n, (∀ c ∈ n.children, P c) → P n)
    (n : AnyNode) : P n := by
  have hroots {s : Shape} (t : Tree s) : ∀ c ∈ t.roots, P c := by
    induction t with
    | node k fields mark ih =>
      intro c hc
      rw [List.mem_singleton.mp hc]
      apply step
      intro c hc
      rw [children, Node.children_eq_roots] at hc
      exact ih c hc
    | scalar value => nofun
    | absent => nofun
    | present content ih => exact ih
    | nil => nofun
    | cons head tail ihHead ihTail => exact List.forall_mem_append.mpr ⟨ihHead, ihTail⟩
    | done => nofun
    | field value more ihValue ihMore => exact List.forall_mem_append.mpr ⟨ihValue, ihMore⟩
  obtain ⟨f, t⟩ := n
  cases t with
  | node k fields mark => exact hroots (.node k fields mark) _ (List.mem_singleton.mpr rfl)

end AnyNode

end Unparse
