import Unparse.Page
import Unparse.Render.Fault

/-! Drafts. A draft is what rendering a node means before a dialect is chosen: the
demands it makes on the dialect and what it does to a page, in order, and the value or
the flaw it ends with. A dialect only decides how much of the draft is used. -/
namespace Unparse

inductive Demand where
  | kind (k : Kind)
  /-- A replacement field of an f-string of this kind holds a backslash. -/
  | backslash (k : Kind)
deriving DecidableEq, Repr

namespace Demand

def met (d : Dialect) : Demand → Bool
  | kind k => d.supports k
  | backslash _ => d.allowsBackslash

/-- What is said when the dialect does not meet the demand. -/
def refusal (d : Dialect) : Demand → RenderError
  | kind k => .unsupported k d
  | backslash k => .malformed ⟨k, .backslash⟩

end Demand

/-- What a draft does to a page. -/
inductive Action where
  | demand (need : Demand)
  | emit (text : String)
  | verbatim (text : String)
  | block (body : List Action)

namespace Action

mutual

/-- Does an action, unless it is a demand that the dialect does not meet. A block is done one
level deeper, and is left again whatever comes of it. -/
def perform (d : Dialect) : Action → Page → Page × Except RenderError Unit
  | .demand need, page => (page, if need.met d then .ok () else .error (need.refusal d))
  | .emit text, page => (page.emit text, .ok ())
  | .verbatim text, page => (page.verbatim text, .ok ())
  | .block body, page =>
    let (inside, result) := performAll d body page.enter
    (inside.leave, result)

/-- Does actions in turn, up to the first one that fails. -/
def performAll (d : Dialect) : List Action → Page → Page × Except RenderError Unit
  | [], page => (page, .ok ())
  | action :: more, page =>
    match perform d action page with
    | (after, .ok ()) => performAll d more after
    | (after, .error e) => (after, .error e)

end

end Action

structure Draft (A : Type) where
  actions : List Action
  outcome : Except Flaw A

namespace Draft

instance : Monad Draft where
  pure a := ⟨[], .ok a⟩
  bind x f :=
    match x.outcome with
    | .ok a =>
      let y := f a
      ⟨x.actions ++ y.actions, y.outcome⟩
    | .error flaw => ⟨x.actions, .error flaw⟩

theorem bind_of_ok {A B : Type} {x : Draft A} {a : A} (h : x.outcome = .ok a) (f : A → Draft B) :
    x >>= f = ⟨x.actions ++ (f a).actions, (f a).outcome⟩ := by
  simp [Bind.bind, h]

theorem bind_of_error {A B : Type} {x : Draft A} {flaw : Flaw} (h : x.outcome = .error flaw)
    (f : A → Draft B) : x >>= f = ⟨x.actions, .error flaw⟩ := by
  simp [Bind.bind, h]

def demand (k : Kind) : Draft Unit :=
  ⟨[.demand (.kind k)], .ok ()⟩

def demandBackslash (k : Kind) : Draft Unit :=
  ⟨[.demand (.backslash k)], .ok ()⟩

def fail {A : Type} (k : Kind) (fault : Fault) : Draft A :=
  ⟨[], .error ⟨k, fault⟩⟩

/-- Fails if the condition holds. -/
def refuse (condition : Bool) (k : Kind) (fault : Fault) : Draft Unit :=
  if condition then fail k fault else pure ()

/-- Lays out a text, each of its lines indented. -/
def emit (text : String) : Draft Unit :=
  ⟨[.emit text], .ok ()⟩

/-- Lays out a text as one entry, of which only the first line is indented. -/
def verbatim (text : String) : Draft Unit :=
  ⟨[.verbatim text], .ok ()⟩

/-- Everything one level deeper. -/
def block {A : Type} (x : Draft A) : Draft A :=
  ⟨[.block x.actions], x.outcome⟩

/-- One draft after the other. -/
def all {A : Type} : List (Draft A) → Draft (List A)
  | [] => pure []
  | x :: more => do
    let a ← x
    let rest ← all more
    return a :: rest

def each : List (Draft Unit) → Draft Unit
  | [] => pure ()
  | x :: more => do
    x
    each more

/-- Runs a draft on a page. What was laid out before a failure stays. -/
def run {A : Type} (d : Dialect) (x : Draft A) (page : Page) : Page × Except RenderError A :=
  match Action.performAll d x.actions page with
  | (after, .ok ()) => (after, x.outcome.mapError .malformed)
  | (after, .error e) => (after, .error e)

end Draft

end Unparse
