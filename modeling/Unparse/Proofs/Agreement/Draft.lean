import Unparse.Proofs.Outline.Draft

/-! Agreement of drafts. Where every demand is met, all that is left of a draft are its lines and
its value, or that it fails. Two drafts that are left the same may take each other's place in
every larger draft. -/
namespace Unparse

namespace Draft

variable {A B : Type} {x y : Draft A}

/-- The lines and the value of a draft that ends in one. -/
def yield? (x : Draft A) : Option (List Line × A) :=
  x.outcome.toOption.map (x.layout, ·)

theorem yield?_eq_some_iff {ls : List Line} {a : A} :
    x.yield? = some (ls, a) ↔ x.outcome = .ok a ∧ x.layout = ls := by
  unfold yield?
  cases x.outcome <;> simp [Except.toOption, and_comm]

theorem yield?_eq_none_iff : x.yield? = none ↔ ∃ flaw, x.outcome = .error flaw := by
  unfold yield?
  cases x.outcome <;> simp [Except.toOption]

theorem yield?_bind (f : A → Draft B) :
    (x >>= f).yield? =
      x.yield?.bind fun (ls, a) => (f a).yield?.map fun (ms, b) => (ls ++ ms, b) := by
  cases hx : x.outcome with
  | error flaw =>
    rw [bind_of_error hx, yield?_eq_none_iff.mpr ⟨flaw, hx⟩, Option.bind_none]
    exact yield?_eq_none_iff.mpr ⟨flaw, rfl⟩
  | ok a =>
    rw [yield?_eq_some_iff.mpr ⟨hx, rfl⟩, Option.bind_some]
    simp only [yield?, outcome_bind_of_ok hx, layout_bind_of_ok hx, Option.map_map]
    rfl

/-- The drafts have the same lines and the same value, or they both fail. -/
def Agrees (x y : Draft A) : Prop :=
  x.yield? = y.yield?

namespace Agrees

variable {f g : A → Draft B} {k k' : Kind} {xs ys : List (Draft A)}

theorem refl (x : Draft A) : x.Agrees x :=
  rfl

theorem bind (hx : x.Agrees y) (hf : ∀ a, (f a).Agrees (g a)) : (x >>= f).Agrees (y >>= g) := by
  have hrest (a : A) : (f a).yield? = (g a).yield? := hf a
  unfold Agrees
  rw [yield?_bind, yield?_bind, hx]
  simp only [hrest]

/-- What only uses the value does not tell the drafts apart. -/
theorem before (hx : x.Agrees y) (f : A → Draft B) : (x >>= f).Agrees (y >>= f) :=
  hx.bind fun _ => refl _

/-- Which kinds are demanded makes no difference. -/
theorem demand_bind {f g : Unit → Draft B} (hf : (f ()).Agrees (g ())) :
    (Draft.demand k >>= f).Agrees (Draft.demand k' >>= g) :=
  bind rfl fun _ => hf

/-- Neither does the reason for a failure. -/
theorem fail {fault fault' : Fault} :
    (Draft.fail k fault : Draft A).Agrees (Draft.fail k' fault') :=
  rfl

theorem refuse_bind {c c' : Bool} {fault fault' : Fault} {f g : Unit → Draft B} (hc : c = c')
    (hf : (f ()).Agrees (g ())) :
    (Draft.refuse c k fault >>= f).Agrees (Draft.refuse c' k' fault' >>= g) := by
  subst hc
  refine bind ?_ fun _ => hf
  cases c <;> rfl

theorem all (h : List.Forall₂ Agrees xs ys) : (Draft.all xs).Agrees (Draft.all ys) := by
  induction h with
  | nil => exact refl _
  | cons hx _ ih => exact hx.bind fun _ => ih.before _

theorem each {xs ys : List (Draft Unit)} (h : List.Forall₂ Agrees xs ys) :
    (Draft.each xs).Agrees (Draft.each ys) := by
  induction h with
  | nil => exact refl _
  | cons hx _ ih => exact hx.bind fun _ => ih

theorem block (hx : x.Agrees y) : (Draft.block x).Agrees (Draft.block y) := by
  have hblock (z : Draft A) : (Draft.block z).yield? =
      z.yield?.map fun (ls, a) => (ls.map Line.deeper, a) := by
    simp only [yield?, layout_block, Option.map_map]
    rfl
  unfold Agrees
  rw [hblock, hblock, hx]

end Agrees

end Draft

end Unparse
