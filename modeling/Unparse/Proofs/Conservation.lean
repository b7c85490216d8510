import Unparse.Proofs.Weight.Rule
import Unparse.Tree.Build

/-! Rendering neither loses nor repeats the content of a tree. A character that is only ever
written as itself, and that the renderer has no use of its own for, stands in the text as
often as in the strings of the tree. -/
namespace Unparse

namespace Scale

variable (m : Scale)

theorem text_written (width : Nat) (l : Line) :
    m.text ((Page.blank width).written l) = m.text l.text := by
  have hunit : m.text (Page.blank width).unit = 0 :=
    m.text_copies (m.text_ascii (by decide)) width
  have hend : m.text "\n" = 0 := m.text_ascii (by decide)
  unfold Page.written
  rw [m.text_append, m.text_append, m.text_copies hunit, hend]
  omega

/-- Indentation and line ends count for nothing. -/
theorem text_print (width : Nat) (ls : List Line) :
    m.text ((Page.blank width).print ls).text = (ls.map fun l => m.text l.text).sum := by
  unfold Page.text Page.print
  rw [m.text_join]
  have hlines : ∀ ls : List Line, m.texts (ls.map (Page.blank width).written) =
      (ls.map fun l => m.text l.text).sum := by
    intro ls
    induction ls with
    | nil => rfl
    | cons l ls ih => rw [List.map_cons, m.texts_cons, m.text_written, ih]; rfl
  exact hlines ls

/-- The scale that counts one character. -/
def only (c : Char) (hascii : 128 ≤ c.toNat) (hhidden : Literal.isHidden c = false) : Scale where
  char x := if x = c then 1 else 0
  char_ascii x hx := by
    apply if_neg
    intro h
    rw [h] at hx
    omega
  char_hidden x hx := by
    apply if_neg
    intro h
    rw [h, hhidden] at hx
    exact Bool.false_ne_true hx

theorem text_only {c : Char} (hascii : 128 ≤ c.toNat) (hhidden : Literal.isHidden c = false)
    (s : String) : (only c hascii hhidden).text s = s.toList.count c := by
  unfold text
  induction s.toList with
  | nil => rfl
  | cons x xs ih =>
    rw [chars_cons, ih, List.count_cons, Nat.add_comm]
    simp [only]

theorem own_only {c : Char} (hascii : 128 ≤ c.toNat) (hhidden : Literal.isHidden c = false)
    (n : AnyNode) :
    (only c hascii hhidden).own n = (n.strings.map fun s => s.toList.count c).sum := by
  unfold own texts
  rw [funext (text_only hascii hhidden)]

end Scale

namespace Node

variable {f : Family} {t : Node f} {options : Options}

/-- On every scale, a text counts for as much as the strings of the nodes it renders. -/
theorem text_render (m : Scale) {text : String} (h : t.render options = .ok text) :
    m.text text = (t.preorder.map m.own).sum := by
  obtain ⟨fragment, hresult, rfl⟩ := of_render_eq_ok h
  have hsettled := (draft_weighs m t).settled fragment (Draft.result_eq_ok_iff.mp hresult).1
  rw [m.text_append, m.text_print, Draft.lines_of_result_ok hresult,
    ← Tree.count_weight_node m t]
  unfold Scale.lines at hsettled
  omega

/-- A character beyond ASCII that is neither a control character nor one of the two Unicode
line ends stands in a text exactly as often as in the strings of the nodes that the text was
made of. -/
theorem count_render {f : Family} (t : Node f) (options : Options) (text : String) (c : Char)
    (hascii : 128 ≤ c.toNat) (hcontrol : Literal.isControl c = false)
    (hline : c ≠ '\u2028') (hparagraph : c ≠ '\u2029') (h : t.render options = .ok text) :
    text.toList.count c =
      (t.preorder.map fun n => (n.strings.map fun s => s.toList.count c).sum).sum := by
  have hhidden : Literal.isHidden c = false := by
    have hcode {x : Char} (hx : c ≠ x) : c.toNat ≠ x.toNat := fun e => hx (Char.toNat_inj.mp e)
    have hends := And.intro (hcode hline) (hcode hparagraph)
    simpa [Literal.isHidden, hcontrol] using hends
  have hcount := text_render (Scale.only c hascii hhidden) h
  rw [Scale.text_only, funext (Scale.own_only hascii hhidden)] at hcount
  exact hcount

/-- A function whose docstring, name, parameter and result have one letter in common. -/
def summer : Node .stmt :=
  Stmt.functionDef "é" (Stmt.positional ["né"])
    [Stmt.expr (Expr.str "été\t\x22"), Stmt.returns (some (Expr.name "né"))]

theorem count_render_summer :
    summer.render {} =
      .ok "def é(né):\n    \x22\x22\x22été\t\\\x22\x22\x22\x22\n    return né\n" ∧
    "def é(né):\n    \x22\x22\x22été\t\\\x22\x22\x22\x22\n    return né\n".toList.count 'é' =
      (summer.preorder.map fun n => (n.strings.map fun s => s.toList.count 'é').sum).sum := by
  have h : summer.render {} =
      .ok "def é(né):\n    \x22\x22\x22été\t\\\x22\x22\x22\x22\n    return né\n" := rfl
  exact ⟨h, count_render summer {} _ 'é' (by decide) (by decide) (by decide) (by decide) h⟩

end Node

end Unparse
