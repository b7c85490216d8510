import Mathlib.Data.List.Chain
import Unparse.Proofs.Draft.Lines
import Unparse.Tree

/-! Outlines. Which suites the lines of a statement hold is told by the tree alone. Lines that
follow an outline are indented as a reader who counts levels expects them to be. -/
namespace Unparse

/-- Lines that open nothing, or a header and the suite under it. -/
inductive Outline where
  | plain
  | clause (suite : List Outline)

/-- The line ends in a colon. -/
def Line.opens (l : Line) : Bool :=
  l.text.toList.getLast? == some ':'

/-- The lines that follow an outline, one part after the other. A header may have several lines,
of which the last one opens the suite. The suite is not empty, and starts one level deeper. -/
inductive Follows : List Outline → List Line → Prop where
  | nil : Follows [] []
  | plain {first : Line} {rest more : List Line} {os : List Outline} (hfirst : first.depth = 0)
      (hrest : ∀ l ∈ rest, l.depth = 0) (hmore : Follows os more) :
      Follows (.plain :: os) (first :: rest ++ more)
  | clause {header body more : List Line} {last first : Line} {suite os : List Outline}
      (hheader : ∀ l ∈ header, l.depth = 0) (hlast : last.depth = 0) (hopens : last.opens = true)
      (hfirst : first.depth = 0) (hsuite : Follows suite (first :: body))
      (hmore : Follows os more) :
      Follows (.clause suite :: os)
        (header ++ last :: (first :: body).map Line.deeper ++ more)

/-- From a line to the next one the level may fall freely. It rises by one at most, and only
after a colon. -/
def Line.Leads (a b : Line) : Prop :=
  b.depth ≤ a.depth + 1 ∧ (b.depth = a.depth + 1 → a.opens = true)

/-- The lines start at the level they are laid out at, and rise and fall as they may. -/
structure Indented (ls : List Line) : Prop where
  head : ∀ l ∈ ls.head?, l.depth = 0
  chain : ls.IsChain Line.Leads

namespace Indented

theorem nil : Indented [] where
  head := by simp
  chain := List.isChain_nil

theorem append {ls ms : List Line} (hls : Indented ls) (hms : Indented ms) :
    Indented (ls ++ ms) where
  head := by
    cases ls with
    | nil => exact hms.head
    | cons l ls => exact hls.head
  chain := by
    -- Whatever the last line is, the level does not rise at the seam.
    refine List.isChain_append.mpr ⟨hls.chain, hms.chain, fun a _ b hb => ?_⟩
    have hdepth := hms.head b hb
    constructor <;> omega

theorem flat {ls : List Line} (h : ∀ l ∈ ls, l.depth = 0) : Indented ls := by
  induction ls with
  | nil => exact nil
  | cons l ls ih =>
    have hl : Indented [l] :=
      { head := by simpa using h l (List.mem_cons_self ..), chain := List.isChain_singleton l }
    exact hl.append (ih fun m hm => h m (List.mem_cons_of_mem l hm))

theorem chain_deeper {ls : List Line} (h : Indented ls) :
    (ls.map Line.deeper).IsChain Line.Leads := by
  rw [List.isChain_map]
  refine h.chain.imp fun a b hab => ?_
  obtain ⟨hrise, hopens⟩ := hab
  refine ⟨Nat.succ_le_succ hrise, fun hdepth => hopens ?_⟩
  exact Nat.succ.inj hdepth

/-- A suite stands under the line that opens it. -/
theorem clause {body : List Line} {last first : Line} (hlast : last.depth = 0)
    (hopens : last.opens = true) (hbody : Indented (first :: body)) :
    Indented (last :: (first :: body).map Line.deeper) where
  head := by simpa using hlast
  chain := by
    refine List.isChain_cons.mpr ⟨fun b hb => ?_, hbody.chain_deeper⟩
    have hfirst : first.depth = 0 := by simpa using hbody.head
    simp only [List.map_cons, List.head?_cons, Option.mem_some_iff] at hb
    subst hb
    exact ⟨by simp [Line.deeper, hfirst, hlast], fun _ => hopens⟩

end Indented

namespace Follows

variable {os ps : List Outline} {ls ms : List Line}

theorem append (hls : Follows os ls) (hms : Follows ps ms) : Follows (os ++ ps) (ls ++ ms) := by
  induction hls with
  | nil => exact hms
  | plain hfirst hrest _ ih =>
    rw [List.append_assoc]
    exact .plain hfirst hrest ih
  | clause hheader hlast hopens hfirst hsuite _ _ ih =>
    rw [List.append_assoc]
    exact .clause hheader hlast hopens hfirst hsuite ih

theorem lines (hls : ls ≠ []) (hdepth : ∀ l ∈ ls, l.depth = 0) : Follows [.plain] ls := by
  cases ls with
  | nil => exact absurd rfl hls
  | cons first rest =>
    simp only [List.forall_mem_cons] at hdepth
    simpa using Follows.plain hdepth.1 hdepth.2 Follows.nil

/-- Every part of an outline has lines, the first of them at the level of the whole. -/
theorem exists_first (h : Follows os ls) (hos : os ≠ []) :
    ∃ first rest, ls = first :: rest ∧ first.depth = 0 := by
  cases h with
  | nil => exact absurd rfl hos
  | plain hfirst => exact ⟨_, _, rfl, hfirst⟩
  | @clause header body more last first suite os hheader hlast =>
    cases header with
    | nil => exact ⟨_, _, rfl, hlast⟩
    | cons l header => exact ⟨_, _, rfl, hheader l (List.mem_cons_self ..)⟩

theorem indented (h : Follows os ls) : Indented ls := by
  induction h with
  | nil => exact Indented.nil
  | plain hfirst hrest _ ih =>
    refine Indented.append (Indented.flat ?_) ih
    simpa [hfirst] using hrest
  | clause hheader hlast hopens _ _ _ ihSuite ih =>
    exact ((Indented.flat hheader).append (Indented.clause hlast hopens ihSuite)).append ih

end Follows

namespace Outline

/-- An empty suite holds a line of its own. -/
def suite (body : List Outline) : List Outline :=
  if body.isEmpty then [plain] else body

def headed (body : List Outline) : Outline :=
  clause (suite body)

/-- A clause that is left out with its body. -/
def unlessEmpty (body : List Outline) : List Outline :=
  if body.isEmpty then [] else [headed body]

end Outline

/-- The outline of a node, which has lines in any case, and whether a final block that has
nothing else in it joins the node. -/
structure Sketch where
  outline : List Outline
  joins : Bool
  nonempty : outline ≠ []

namespace Sketch

open Outline

/-- The outline of a block. -/
def together (body : List Sketch) : List Outline :=
  body.flatMap outline

def simple : Sketch where
  outline := [plain]
  joins := false
  nonempty := by simp

/-- A header with a suite, and maybe another clause after it. -/
def compound (body orelse : List Sketch) : Sketch where
  outline := headed (together body) :: unlessEmpty (together orelse)
  joins := false
  nonempty := by simp

/-- Every decorator has lines before the header. -/
def decorated (decorators body : List Sketch) : Sketch where
  outline := List.replicate decorators.length plain ++ [headed (together body)]
  joins := false
  nonempty := by simp

def clauses (body handlers orelse : List Sketch) : List Outline :=
  headed (together body) :: (together handlers ++ unlessEmpty (together orelse))

def trying (body handlers orelse final : List Sketch) : Sketch where
  outline := clauses body handlers orelse ++ unlessEmpty (together final)
  joins := false
  nonempty := by simp [clauses]

def handling (body handlers orelse : List Sketch) : Sketch where
  outline := clauses body handlers orelse
  joins := !handlers.isEmpty
  nonempty := by simp [clauses]

/-- A try statement with handlers that is all of the body keeps its clauses. -/
def beforeFinally (body : List Sketch) : List Outline :=
  match body with
  | [only] => if only.joins then only.outline else [headed (together body)]
  | _ => [headed (together body)]

def finishing (body final : List Sketch) : Sketch where
  outline := beforeFinally body ++ [headed (together final)]
  joins := false
  nonempty := by simp

end Sketch

/-- What a node lays out, given what the nodes in its fields lay out. -/
def Kind.sketch : (k : Kind) → Value (fun _ => Sketch) k.shape → Sketch
  | .functionDef, (_, _, body, decorators, _) => .decorated decorators body
  | .asyncFunctionDef, (_, _, body, decorators, _) => .decorated decorators body
  | .classDef, (_, _, _, body, decorators, _) => .decorated decorators body
  | .forLoop, (_, _, body, orelse, _) => .compound body orelse
  | .asyncFor, (_, _, body, orelse, _) => .compound body orelse
  | .whileLoop, (_, body, orelse, _) => .compound body orelse
  | .conditional, (_, body, orelse, _) => .compound body orelse
  | .withBlock, (_, body, _) => .compound body []
  | .asyncWith, (_, body, _) => .compound body []
  | .legacyWith, (_, _, body, _) => .compound body []
  | .tryBlock, (body, handlers, orelse, final, _) => .trying body handlers orelse final
  | .tryStar, (body, handlers, orelse, final, _) => .trying body handlers orelse final
  | .tryExcept, (body, handlers, orelse, _) => .handling body handlers orelse
  | .tryFinally, (body, final, _) => .finishing body final
  | .matchBlock, (_, cases, _) => .compound cases []
  | .exceptHandler, (_, _, body, _) => .compound body []
  | .legacyExceptHandler, (_, _, body, _) => .compound body []
  | .matchCase, (_, _, body, _) => .compound body []
  | _, _ => .simple

/-- The outline of a statement: its clauses in order, each with the outline of its suite. -/
def Node.outline (t : Node .stmt) : List Outline :=
  Sketch.outline (t.fold fun k fields _ => k.sketch fields)

end Unparse
