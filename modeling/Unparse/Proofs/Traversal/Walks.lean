import Mathlib.Data.List.Basic
import Unparse.Traversal.Walk
import Unparse.Proofs.Tree.Reachable

/-! What the walkers do at a node, given what they do at its children, and visitors that are seen
only through the events that they are called with. -/
namespace Unparse

namespace AnyNode

variable {S T : Type}

theorem accumulate_eq (step : S → AnyNode → S) (n : AnyNode) (st : S) :
    n.node.accumulate step st =
      n.children.foldl (fun st c => c.node.accumulate step st) (step st n) := by
  obtain ⟨f, t⟩ := n
  cases t with
  | node k fields mark =>
    rw [Node.accumulate, Tree.foldWith, Node.children_foldWith, List.foldl_map]
    rfl

/-- A state is passed through the nodes in the order of their listing. -/
theorem accumulate_eq_foldl (step : S → AnyNode → S) (n : AnyNode) (st : S) :
    n.node.accumulate step st = n.node.preorder.foldl step st := by
  induction n using induction_children generalizing st with
  | step n ih =>
    rw [accumulate_eq, preorder_node, List.foldl_cons, List.foldl_flatMap]
    apply List.foldl_ext
    intro st c hc
    exact ih c hc st

theorem walk_eq (v : Visitor S) (n : AnyNode) :
    n.node.walk v = v.around n (n.children.map fun c => c.node.walk v) := by
  obtain ⟨f, t⟩ := n
  cases t with
  | node k fields mark =>
    rw [Node.walk, Tree.foldWith, Node.children_foldWith]
    rfl

theorem inTurn_simulated {v : Visitor S} {w : Visitor T} {g : S → T} {ns : List AnyNode}
    (hns : ∀ n ∈ ns, ∀ st,
      n.node.walk w (g st) = (g (n.node.walk v st).1, (n.node.walk v st).2)) (st : S) :
    Visitor.inTurn (ns.map fun n => n.node.walk w) (g st) =
      (g (Visitor.inTurn (ns.map fun n => n.node.walk v) st).1,
        (Visitor.inTurn (ns.map fun n => n.node.walk v) st).2) := by
  induction ns generalizing st with
  | nil => rfl
  | cons n more ih =>
    obtain ⟨hn, hmore⟩ := List.forall_mem_cons.mp hns
    simp only [List.map_cons, Visitor.inTurn, hn]
    cases hwalk : n.node.walk v st with
    | mk st' control =>
      cases control with
      | stop => rfl
      | skip => exact ih hmore st'
      | proceed => exact ih hmore st'

/-- A map between the states of two visitors that agrees with everything they do takes the walks
of one to those of the other. -/
theorem walk_simulated {v : Visitor S} {w : Visitor T} {g : S → T}
    (hvisit : ∀ st n, w.visit (g st) n = (g (v.visit st n).1, (v.visit st n).2))
    (hleave : ∀ st n, w.leave (g st) n = g (v.leave st n)) (n : AnyNode) (st : S) :
    n.node.walk w (g st) = (g (n.node.walk v st).1, (n.node.walk v st).2) := by
  induction n using induction_children generalizing st with
  | step n ih =>
    rw [walk_eq w, walk_eq v]
    simp only [Visitor.around, hvisit]
    cases v.visit st n with
    | mk st' control =>
      cases control with
      | stop => rfl
      | skip => simp only [hleave]
      | proceed =>
        simp only [inTurn_simulated ih]
        cases Visitor.inTurn (n.children.map fun c => c.node.walk v) st' with
        | mk st'' control => cases control <;> simp only [hleave]

end AnyNode

namespace Node

variable {A : Type} {f : Family}

/-- What is seen of the nodes, one after the other, on the way from each node to its children. -/
def observed (see : AnyNode → A) (t : Node f) : List A :=
  t.accumulate (fun seen n => seen ++ [see n]) []

theorem observed_eq_map (see : AnyNode → A) (t : Node f) :
    t.observed see = t.preorder.map see := by
  rw [observed, AnyNode.accumulate_eq_foldl _ ⟨f, t⟩, List.foldl_append_eq_append,
    List.nil_append, ← List.flatMap_def]
  exact List.map_eq_flatMap.symm

end Node

namespace Visitor

variable {S : Type} (v : Visitor S)

/-- The state that some events lead to. -/
def replay (start : S) (events : List Event) : S :=
  events.foldl (fun
    | st, .visit n => (v.visit st n).1
    | st, .leave n => v.leave st n) start

/-- The decisions of a visitor, as they depend on what it has been called with. -/
def strategy (start : S) : Strategy := fun past n =>
  (v.visit (v.replay start past) n).2

end Visitor

/-- A walk takes the visitor through the events that its decisions lead to. -/
theorem Node.walk_eq_replay {S : Type} {f : Family} (v : Visitor S) (t : Node f) (start : S) :
    t.walk v start =
      (v.replay start (t.trace (v.strategy start)).1, (t.trace (v.strategy start)).2) := by
  apply AnyNode.walk_simulated (g := v.replay start) _ _ ⟨f, t⟩ []
  · intro past n
    simp [Visitor.replay, Visitor.strategy, Strategy.visitor]
  · intro past n
    simp [Visitor.replay, Strategy.visitor]

/-- After what is past, walking through these nodes one after the other leads to these events and
ends in this way. -/
inductive Walked (σ : Strategy) : List Event → List AnyNode → List Event → Control → Prop where
  | nil {past : List Event} : Walked σ past [] [] .proceed
  | stop {past : List Event} {n : AnyNode} {more : List AnyNode} (decision : σ past n = .stop) :
    Walked σ past (n :: more) [.visit n] .stop
  | skip {past events : List Event} {n : AnyNode} {more : List AnyNode} {control : Control}
      (decision : σ past n = .skip)
      (later : Walked σ (past ++ [.visit n, .leave n]) more events control) :
    Walked σ past (n :: more) (.visit n :: .leave n :: events) control
  | within {past events : List Event} {n : AnyNode} {more : List AnyNode}
      (decision : σ past n = .proceed)
      (inside : Walked σ (past ++ [.visit n]) n.children events .stop) :
    Walked σ past (n :: more) (.visit n :: events) .stop
  | through {past inner events : List Event} {n : AnyNode} {more : List AnyNode}
      {control : Control} (decision : σ past n = .proceed)
      (inside : Walked σ (past ++ [.visit n]) n.children inner .proceed)
      (later : Walked σ (past ++ .visit n :: (inner ++ [.leave n])) more events control) :
    Walked σ past (n :: more) (.visit n :: (inner ++ .leave n :: events)) control

namespace Walked

variable {σ : Strategy} {past events : List Event} {ns : List AnyNode} {control : Control}

theorem ne_skip (h : Walked σ past ns events control) : control ≠ .skip := by
  induction h with
  | nil => simp
  | stop decision => simp
  | skip decision later ih => exact ih
  | within decision inside ih => simp
  | through decision inside later ihInside ihLater => exact ihLater

theorem cons_stop {n : AnyNode} (h : Walked σ past [n] events .stop) (more : List AnyNode) :
    Walked σ past (n :: more) events .stop := by
  cases h with
  | stop decision => exact .stop decision
  | skip decision later => cases later
  | within decision inside => exact .within decision inside
  | through decision inside later => cases later

theorem cons_proceed {n : AnyNode} {more : List AnyNode} {others : List Event}
    (h : Walked σ past [n] events .proceed)
    (hmore : Walked σ (past ++ events) more others control) :
    Walked σ past (n :: more) (events ++ others) control := by
  cases h with
  | skip decision later =>
    cases later
    exact .skip decision hmore
  | @through _ inner _ _ _ _ decision inside later =>
    cases later
    rw [List.cons_append, List.append_assoc]
    exact .through decision inside hmore

theorem of_inTurn (hns : ∀ n ∈ ns, ∀ past, ∃ events control,
      n.node.walk σ.visitor past = (past ++ events, control) ∧ Walked σ past [n] events control)
    (past : List Event) : ∃ events control,
      Visitor.inTurn (ns.map fun n => n.node.walk σ.visitor) past = (past ++ events, control) ∧
      Walked σ past ns events control := by
  induction ns generalizing past with
  | nil => exact ⟨[], .proceed, by simp [Visitor.inTurn], .nil⟩
  | cons n more ih =>
    obtain ⟨hn, hmore⟩ := List.forall_mem_cons.mp hns
    obtain ⟨events, control, hwalk, hevents⟩ := hn past
    rw [List.map_cons, Visitor.inTurn, hwalk]
    -- A node that is skipped has still been gone through: no walk ends by skipping.
    cases control with
    | stop => exact ⟨events, .stop, rfl, hevents.cons_stop more⟩
    | skip => exact absurd rfl hevents.ne_skip
    | proceed =>
      obtain ⟨others, control, hturn, hothers⟩ := ih hmore (past ++ events)
      refine ⟨events ++ others, control, ?_, hevents.cons_proceed hothers⟩
      rw [← List.append_assoc]
      exact hturn

/-- The walk of a node, whatever is decided on the way. -/
theorem of_walk (σ : Strategy) (n : AnyNode) (past : List Event) : ∃ events control,
    n.node.walk σ.visitor past = (past ++ events, control) ∧
    Walked σ past [n] events control := by
  induction n using AnyNode.induction_children generalizing past with
  | step n ih =>
    rw [AnyNode.walk_eq]
    simp only [Visitor.around, Strategy.visitor]
    cases hdecision : σ past n with
    | stop => exact ⟨[.visit n], .stop, rfl, .stop hdecision⟩
    | skip => exact ⟨[.visit n, .leave n], .proceed, by simp, .skip hdecision .nil⟩
    | proceed =>
      obtain ⟨inner, control, hturn, hinner⟩ := of_inTurn ih (past ++ [.visit n])
      rw [Strategy.visitor] at hturn
      simp only [hturn]
      cases control with
      | stop => exact ⟨.visit n :: inner, .stop, by simp, .within hdecision hinner⟩
      | skip => exact absurd rfl hinner.ne_skip
      | proceed =>
        exact ⟨.visit n :: (inner ++ [.leave n]), .proceed, by simp, .through hdecision hinner .nil⟩

theorem of_trace (σ : Strategy) {f : Family} (t : Node f) :
    Walked σ [] [⟨f, t⟩] (t.trace σ).1 (t.trace σ).2 := by
  obtain ⟨events, control, hwalk, hevents⟩ := of_walk σ ⟨f, t⟩ []
  rw [Node.trace, hwalk]
  exact hevents

end Walked

end Unparse
