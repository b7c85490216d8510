import Unparse.Proofs.Traversal.Walks
import Unparse.Tree.Build

/-! The events of walks. A walk through to the end is well nested; a walk that is stopped is the
beginning of another one, up to the visit at which it was stopped. -/
namespace Unparse

namespace Event

@[simp, grind =] theorem visits_append (past events : List Event) :
    visits (past ++ events) = visits past + visits events :=
  List.countP_append

@[simp, grind =] theorem visits_nil : visits [] = 0 := rfl

@[simp, grind =] theorem visits_cons_visit (n : AnyNode) (events : List Event) :
    visits (.visit n :: events) = visits events + 1 :=
  List.countP_cons_of_pos rfl

@[simp, grind =] theorem visits_cons_leave (n : AnyNode) (events : List Event) :
    visits (.leave n :: events) = visits events :=
  List.countP_cons_of_neg (by simp [isVisit])

end Event

namespace Strategy

/-- What is decided at the visits among some events, after what is past. -/
def decisions (σ : Strategy) (past : List Event) : List Event → List Control
  | [] => []
  | .visit n :: events => σ past n :: decisions σ (past ++ [.visit n]) events
  | .leave n :: events => decisions σ (past ++ [.leave n]) events

theorem decisions_append (σ : Strategy) (past events later : List Event) :
    σ.decisions past (events ++ later) =
      σ.decisions past events ++ σ.decisions (past ++ events) later := by
  induction events generalizing past with
  | nil => simp [decisions]
  | cons event events ih => cases event <;> simp [decisions, ih]

/-- The two decide alike as long as there have been less visits than that. -/
def Agree (σ σ' : Strategy) (visits : Nat) : Prop :=
  ∀ past n, Event.visits past < visits → σ' past n = σ past n

theorem Agree.mono {σ σ' : Strategy} {visits fewer : Nat} (h : σ.Agree σ' visits)
    (hfewer : fewer ≤ visits) : σ.Agree σ' fewer :=
  fun past n hpast => h past n (Nat.lt_of_lt_of_le hpast hfewer)

/-- Decides alike before the given visit, the first one being the visit 1, and goes on from
then on. -/
def upTo (σ : Strategy) (visit : Nat) : Strategy := fun past n =>
  if Event.visits past + 1 < visit then σ past n else .proceed

theorem agree_upTo (σ : Strategy) (visit : Nat) : σ.Agree (σ.upTo visit) (visit - 1) := by
  intro past n hpast
  rw [upTo, if_pos (by omega)]

end Strategy

/-- The events of a walk through these nodes that is not stopped. Between the visit of a node and
its leave lie the events of its children, from the first to the last, or nothing if they are to be
skipped. -/
inductive Nested (σ : Strategy) : List Event → List AnyNode → List Event → Prop where
  | nil {past : List Event} : Nested σ past [] []
  | skip {past events : List Event} {n : AnyNode} {more : List AnyNode}
      (decision : σ past n = .skip)
      (later : Nested σ (past ++ [.visit n, .leave n]) more events) :
    Nested σ past (n :: more) (.visit n :: .leave n :: events)
  | proceed {past inner events : List Event} {n : AnyNode} {more : List AnyNode}
      (decision : σ past n = .proceed)
      (inside : Nested σ (past ++ [.visit n]) n.children inner)
      (later : Nested σ (past ++ .visit n :: (inner ++ [.leave n])) more events) :
    Nested σ past (n :: more) (.visit n :: (inner ++ .leave n :: events))

namespace Walked

variable {σ σ' : Strategy} {past events events' : List Event} {ns : List AnyNode}
  {control control' : Control}

theorem nested (h : Walked σ past ns events control) (hcontrol : control ≠ .stop) :
    Nested σ past ns events := by
  induction h with
  | nil => exact .nil
  | stop decision => exact absurd rfl hcontrol
  | skip decision later ih => exact .skip decision (ih hcontrol)
  | within decision inside ih => exact absurd rfl hcontrol
  | through decision inside later ihInside ihLater =>
    exact .proceed decision (ihInside (by simp)) (ihLater hcontrol)

/-- If nothing has stopped the walk, no visit has decided to. -/
theorem stop_not_mem (h : Walked σ past ns events control) (hcontrol : control ≠ .stop) :
    .stop ∉ σ.decisions past events := by
  induction h with
  | nil => simp [Strategy.decisions]
  | stop decision => exact absurd rfl hcontrol
  | skip decision later ih => simpa [Strategy.decisions, decision] using ih hcontrol
  | within decision inside ih => exact absurd rfl hcontrol
  | through decision inside later ihInside ihLater =>
    simpa [Strategy.decisions, Strategy.decisions_append, decision]
      using ⟨ihInside (by simp), ihLater hcontrol⟩

/-- A walk ends with the first visit that decides to stop. -/
theorem stopped_last (h : Walked σ past ns events control) (hcontrol : control = .stop) :
    ∃ before n, events = before ++ [.visit n] ∧ .stop ∉ σ.decisions past before ∧
      σ (past ++ before) n = .stop := by
  induction h with
  | nil => cases hcontrol
  | @stop past n more decision => exact ⟨[], n, rfl, by simp [Strategy.decisions], by simpa⟩
  | @skip past events n more control decision later ih =>
    obtain ⟨before, m, rfl, hbefore, hstop⟩ := ih hcontrol
    refine ⟨.visit n :: .leave n :: before, m, rfl, ?_, by simpa using hstop⟩
    simpa [Strategy.decisions, decision] using hbefore
  | @within past events n more decision inside ih =>
    obtain ⟨before, m, rfl, hbefore, hstop⟩ := ih rfl
    refine ⟨.visit n :: before, m, rfl, ?_, by simpa using hstop⟩
    simpa [Strategy.decisions, decision] using hbefore
  | @through past inner events n more control decision inside later ihInside ihLater =>
    obtain ⟨before, m, rfl, hbefore, hstop⟩ := ihLater hcontrol
    refine ⟨.visit n :: (inner ++ .leave n :: before), m, by simp, ?_, by simpa using hstop⟩
    have hinner := inside.stop_not_mem (by simp)
    simpa [Strategy.decisions, Strategy.decisions_append, decision] using ⟨hinner, hbefore⟩

theorem deterministic (h : Walked σ past ns events control)
    (h' : Walked σ past ns events' control') : events = events' ∧ control = control' := by
  induction h generalizing events' control' with
  | nil => cases h' with | nil => exact ⟨rfl, rfl⟩
  | stop decision => cases h' <;> simp_all
  | skip decision later ih =>
    cases h' with
    | skip decision' later' => simpa using ih later'
    | _ => simp_all
  | within decision inside ih =>
    cases h' with
    | within decision' inside' => simpa using ih inside'
    | through decision' inside' later' => exact absurd (ih inside').2 (by simp)
    | _ => simp_all
  | through decision inside later ihInside ihLater =>
    cases h' with
    | within decision' inside' => exact absurd (ihInside inside').2 (by simp)
    | through decision' inside' later' =>
      obtain ⟨rfl, _⟩ := ihInside inside'
      simpa using ihLater later'
    | _ => simp_all

/-- Only the decisions at the visits that take place have a part in a walk. -/
theorem of_agree (h : Walked σ past ns events control)
    (hagree : σ.Agree σ' (Event.visits past + Event.visits events)) :
    Walked σ' past ns events control := by
  induction h with
  | nil => exact .nil
  | stop decision => exact .stop ((hagree _ _ (by grind)).trans decision)
  | skip decision later ih =>
    exact .skip ((hagree _ _ (by grind)).trans decision) (ih (hagree.mono (by grind)))
  | within decision inside ih =>
    exact .within ((hagree _ _ (by grind)).trans decision) (ih (hagree.mono (by grind)))
  | through decision inside later ihInside ihLater =>
    exact .through ((hagree _ _ (by grind)).trans decision)
      (ihInside (hagree.mono (by grind))) (ihLater (hagree.mono (by grind)))

theorem visits_pos (h : Walked σ past ns events control) (hcontrol : control = .stop) :
    0 < Event.visits events := by
  obtain ⟨before, n, rfl, _⟩ := h.stopped_last hcontrol
  simp

/-- A walk that is stopped is the beginning of every walk with the same decisions before the last
visit, whatever is decided there. -/
theorem isPrefix (h : Walked σ past ns events control) (hcontrol : control = .stop)
    (hagree : σ.Agree σ' (Event.visits past + Event.visits events - 1))
    (h' : Walked σ' past ns events' control') : events <+: events' := by
  -- On the walk that is stopped. The other one takes the same turn at each visit but the last,
  -- since one more visit is still to come.
  induction h generalizing events' control' with
  | nil => cases hcontrol
  | stop decision => cases h' <;> simp
  | @skip past events n more control decision later ih =>
    have hlater := later.visits_pos hcontrol
    have hdecision : σ' past n = .skip := (hagree past n (by grind)).trans decision
    cases h' with
    | skip decision' later' =>
      have hprefix := ih hcontrol (hagree.mono (by grind)) later'
      simpa using hprefix
    | _ => simp_all
  | @within past events n more decision inside ih =>
    have hinside := inside.visits_pos rfl
    have hdecision : σ' past n = .proceed := (hagree past n (by grind)).trans decision
    have hchildren : σ.Agree σ' (Event.visits (past ++ [.visit n]) + Event.visits events - 1) :=
      hagree.mono (by grind)
    cases h' with
    | within decision' inside' => simpa using ih rfl hchildren inside'
    | through decision' inside' later' =>
      rw [List.cons_prefix_cons]
      exact ⟨rfl, (ih rfl hchildren inside').trans (List.prefix_append ..)⟩
    | _ => simp_all
  | @through past inner events n more control decision inside later ihInside ihLater =>
    have hlater := later.visits_pos hcontrol
    have hdecision : σ' past n = .proceed := (hagree past n (by grind)).trans decision
    have hinside := inside.of_agree (hagree.mono (by grind))
    cases h' with
    | within decision' inside' => exact absurd (hinside.deterministic inside').2 (by simp)
    | through decision' inside' later' =>
      obtain ⟨rfl, _⟩ := hinside.deterministic inside'
      have hprefix := ihLater hcontrol (hagree.mono (by grind)) later'
      simpa [List.prefix_append_right_inj] using hprefix
    | _ => simp_all

end Walked

namespace Node

variable {f : Family}

/-- Every visitor that decides in the same way is taken through the same events. A walk is stopped
just if one of its visits decides so, and this visit is the last event; it never ends by skipping.
Otherwise it is well nested. The events of a walk that is stopped are the first ones, up to the
visit that stops it, of the walk that goes on there and from then on. -/
theorem trace_disciplined (σ : Strategy) (t : Node f) :
    (∀ {S : Type} (v : Visitor S) (start : S), v.strategy start = σ →
      t.walk v start = (v.replay start (t.trace σ).1, (t.trace σ).2)) ∧
    ((t.trace σ).2 = .stop ↔ .stop ∈ σ.decisions [] (t.trace σ).1) ∧
    ((t.trace σ).2 = .stop → ∃ past n, (t.trace σ).1 = past ++ [.visit n] ∧
      .stop ∉ σ.decisions [] past ∧ σ past n = .stop) ∧
    (t.trace σ).2 ≠ .skip ∧
    ((t.trace σ).2 ≠ .stop → Nested σ [] [⟨f, t⟩] (t.trace σ).1) ∧
    ((t.trace σ).2 = .stop →
      (t.trace σ).1 <+: (t.trace (σ.upTo (Event.visits (t.trace σ).1))).1) := by
  have hwalked := Walked.of_trace σ t
  refine ⟨?_, ⟨?_, ?_⟩, hwalked.stopped_last, hwalked.ne_skip, hwalked.nested, ?_⟩
  · rintro S v start rfl
    exact walk_eq_replay v t start
  · intro hstop
    obtain ⟨before, n, hevents, _, hdecision⟩ := hwalked.stopped_last hstop
    rw [hevents, Strategy.decisions_append]
    simpa [Strategy.decisions] using Or.inr hdecision.symm
  · intro hmem
    by_contra hcontrol
    exact hwalked.stop_not_mem hcontrol hmem
  · intro hstop
    have hagree := σ.agree_upTo (Event.visits (t.trace σ).1)
    exact hwalked.isPrefix hstop (hagree.mono (by simp)) (Walked.of_trace _ t)

/-- Skips calls and stops at the first operator. -/
def untilOperator : Strategy := fun _ n =>
  if n.isOperator then .stop else if n.kind = .call then .skip else .proceed

/-- The expression `f(x) + y`. -/
def callSum : Node .expr :=
  Expr.binOp (Expr.call (Expr.name "f") [Expr.name "x"]) (Node.of .add ()) (Expr.name "y")

theorem callSum_disciplined :
    (callSum.trace untilOperator).2 = .stop ∧
    Event.visits (callSum.trace untilOperator).1 = 3 ∧
    (callSum.trace untilOperator).1 <+: (callSum.trace (untilOperator.upTo 3)).1 ∧
    (callSum.trace (untilOperator.upTo 3)).2 ≠ .stop ∧
    Nested (untilOperator.upTo 3) [] [⟨.expr, callSum⟩]
      (callSum.trace (untilOperator.upTo 3)).1 := by
  have hstopped : (callSum.trace untilOperator).2 = .stop := rfl
  have hended : (callSum.trace (untilOperator.upTo 3)).2 ≠ .stop := by decide
  obtain ⟨_, _, _, _, _, hprefix⟩ := trace_disciplined untilOperator callSum
  obtain ⟨_, _, _, _, hnested, _⟩ := trace_disciplined (untilOperator.upTo 3) callSum
  exact ⟨hstopped, rfl, hprefix hstopped, hended, hnested hended⟩

end Node

end Unparse
