import Unparse.Proofs.Draft.Giving
import Unparse.Proofs.Scanner.Literal
import Unparse.Proofs.Tree.Reachable
import Unparse.Render.FString

/-! Views under the scanner: what the texts of expressions, and of what expressions are made
of, have to be so that rules can put them together. -/
namespace Unparse

open Scanner Render

namespace Scanner

/-- The segments can stand in a literal whose quote is not in their code; in a short one
their code must not have several lines either. -/
structure Fits (segments : List Segment) : Prop where
  short : ∀ mark, isQuote mark = true →
    (∀ c ∈ FString.codes segments, mark ∉ c.toList ∧ '\n' ∉ c.toList) →
    Escaped mark (FString.body ⟨mark, false⟩ segments).toList
  long : ∀ mark, isQuote mark = true →
    (∀ c ∈ FString.codes segments, Text.occursIn [mark, mark, mark] c.toList = false) →
    ∀ stack rest, run ⟨.long mark, stack, 0⟩
      ((FString.body ⟨mark, true⟩ segments).toList ++ rest) = run ⟨.long mark, stack, 0⟩ rest
  paired : ∀ q : FString.Quote, isQuote q.mark = true → Paired (FString.body q segments).toList

end Scanner

def ExprForm.Scans : ExprForm → Prop
  | .tuple elements => ∀ x ∈ elements, x.Gives Fragment
  | .field segments => segments.Gives Fits
  | .joined segments => segments.Gives Fits
  | _ => True

structure ExprView.Scans (e : ExprView) : Prop where
  text : e.text.Gives Fragment
  form : e.form.Scans

/-- Statements and patterns are no part of expressions; operators are known texts. -/
def View.Scans : (f : Family) → View f → Prop
  | .expr, v => ExprView.Scans v
  | .slice, v => ExprView.Scans v
  | .comprehension, lines => Draft.Gives (fun ls => ∀ l ∈ ls, Fragment l) lines
  | .arguments, text => ∀ allowed, Draft.Gives Fragment (text allowed)
  | .arg, v => ∀ allowed, Draft.Gives Fragment (v.text allowed)
  | .keyword, text => Draft.Gives Fragment text
  | _, _ => True

/-- The kinds whose strings are identifiers and stand in expressions. -/
def Kind.isNaming (k : Kind) : Bool :=
  k == .nameExpr || k == .attribute || k == .arg || k == .keyword

/-- A record of views; if it is the record of a naming kind, its texts are inert. -/
def Value.Scans (naming : Bool) : (s : Shape) → Value View s → Prop
  | .node f, v => View.Scans f v
  | .scalar .text, s => naming = true → ∀ c ∈ s.toList, isInert c = true
  | .scalar _, _ => True
  | .option s, v => ∀ x ∈ v, Value.Scans naming s x
  | .list s, vs => ∀ x ∈ vs, Value.Scans naming s x
  | .done, _ => True
  | .field _ _ s rest, v => Value.Scans naming s v.1 ∧ Value.Scans naming rest v.2

/-- The identifiers of a node have neither quotes nor backslashes nor brackets nor line ends. -/
def AnyNode.Inert (n : AnyNode) : Prop :=
  n.kind.isNaming = true → ∀ s ∈ n.strings, ∀ c ∈ s.toList, isInert c = true

instance (n : AnyNode) : Decidable n.Inert :=
  decidable_of_iff ((!n.kind.isNaming || n.strings.all fun s => s.toList.all isInert) = true) <| by
    unfold AnyNode.Inert
    cases n.kind.isNaming <;> simp

/-- If every rule does well on fields that do, every tree with inert identifiers does. -/
theorem Tree.fold_scans {rule : (k : Kind) → Value View k.shape → Mark k.place → View k.place}
    (hrule : ∀ k v mark, Value.Scans k.isNaming k.shape v → View.Scans k.place (rule k v mark))
    {s : Shape} (t : Tree s) (naming : Bool)
    (hown : naming = true → ∀ s ∈ t.strings, ∀ c ∈ s.toList, isInert c = true)
    (hnodes : ∀ n ∈ t.preorder, n.Inert) : Value.Scans naming s (t.fold rule) := by
  induction t generalizing naming with
  | node k fields mark ih =>
    apply hrule
    apply ih
    · exact hnodes _ (List.mem_cons_self ..)
    · intro n hn
      exact hnodes n (List.mem_cons_of_mem _ hn)
  | @scalar a value =>
    cases a with
    | text => exact fun hnaming => hown hnaming value (List.mem_singleton.mpr rfl)
    | flag _ | level | byte | number | constant | singleton | conversion => trivial
  | absent => intro x hx; exact absurd hx (by simp [Tree.fold])
  | present content ih =>
    intro x hx
    have hsame : content.fold rule = x := by simpa [Tree.fold] using hx
    rw [← hsame]
    exact ih naming hown hnodes
  | nil => intro x hx; exact absurd hx (by simp [Tree.fold])
  | cons head tail ihHead ihTail =>
    have htail := ihTail naming
      (fun h s hs => hown h s (List.mem_append_right _ hs))
      (fun n hn => hnodes n (List.mem_append_right _ hn))
    intro x hx
    rcases List.mem_cons.mp hx with rfl | hx
    · exact ihHead naming
        (fun h s hs => hown h s (List.mem_append_left _ hs))
        (fun n hn => hnodes n (List.mem_append_left _ hn))
    · exact htail x hx
  | done => trivial
  | field value more ihValue ihMore =>
    constructor
    · exact ihValue naming
        (fun h s hs => hown h s (List.mem_append_left _ hs))
        (fun n hn => hnodes n (List.mem_append_left _ hn))
    · exact ihMore naming
        (fun h s hs => hown h s (List.mem_append_right _ hs))
        (fun n hn => hnodes n (List.mem_append_right _ hn))

end Unparse
