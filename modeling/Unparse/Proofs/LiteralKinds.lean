import Unparse.Proofs.Agreement.Rule
import Unparse.Proofs.Gating
import Unparse.Proofs.Tree.Erase
import Unparse.Tree.Build

/-! The kinds of literals. The older kinds of literals and the constants with the same values may
take each other's place anywhere in a tree: under the permissive dialect the trees have the same
text, or none. -/
namespace Unparse

open Draft Render

def Number.constant : Number → Constant
  | .int i => .int i
  | .float x => .float x
  | .complex real imag => .complex real imag

def Singleton.constant : Singleton → Constant
  | .none => .none
  | .true => .bool Bool.true
  | .false => .bool Bool.false

namespace Node

/-- The expression is a literal of an older kind, with the value of the constant. -/
inductive IsLegacy : Node .expr → Constant → Prop where
  | num (n : Number) (mark : Mark .expr) : IsLegacy (marked .num (n, ()) mark) n.constant
  | str (s : String) (mark : Mark .expr) : IsLegacy (marked .str (s, ()) mark) (.str s)
  | bytes (bs : List UInt8) (mark : Mark .expr) :
    IsLegacy (marked .bytes (bs, ()) mark) (.bytes bs)
  | nameConstant (value : Singleton) (mark : Mark .expr) :
    IsLegacy (marked .nameConstant (value, ()) mark) value.constant
  | ellipsis (mark : Mark .expr) : IsLegacy (marked .ellipsis () mark) .ellipsis

end Node

/-- The second tree has constants in the place of some literals of the first one. Positions may
differ everywhere. -/
inductive Tree.Modernized : {s : Shape} → Tree s → Tree s → Prop where
  | literal {e : Node .expr} {value : Constant} (h : e.IsLegacy value) (mark : Mark .expr) :
    Modernized e (Node.marked .constant (value, ()) mark)
  | node {k : Kind} {fields fields' : Tree k.shape} (h : Modernized fields fields')
      (mark mark' : Mark k.place) : Modernized (.node k fields mark) (.node k fields' mark')
  | scalar {a : Scalar} (value : a.Carrier) : Modernized (.scalar value) (.scalar value)
  | absent {s : Shape} : Modernized (.absent (s := s)) .absent
  | present {s : Shape} {t u : Tree s} (h : Modernized t u) :
    Modernized (.present t) (.present u)
  | nil {s : Shape} : Modernized (.nil (s := s)) .nil
  | cons {s : Shape} {t u : Tree s} {ts us : Tree (.list s)} (h : Modernized t u)
      (hs : Modernized ts us) : Modernized (.cons t ts) (.cons u us)
  | done : Modernized .done .done
  | field {name : String} {presence : Presence} {s rest : Shape} {t u : Tree s}
      {more more' : Tree rest} (h : Modernized t u) (hmore : Modernized more more') :
    Modernized (@Tree.field name presence s rest t more) (.field u more')

/-- An expression that is written as a constant is seen as one, unless it is a name. -/
theorem ExprView.Alike.of_constant {e : ExprView} {k : Kind} {value : Constant}
    (he : e = .formed k (Expression.constantForm value) (pure (Literal.constant value)))
    (hk : k ≠ .nameExpr) : e.Alike (Expression.constant value) := by
  subst he
  exact {
    isName := ⟨fun h => (hk h).elim, fun h => by cases h⟩
    form := .refl _
    text := Agrees.demand_bind (.refl _) }

theorem Node.view_bytes (bs : List UInt8) (mark : Mark .expr) :
    view (Node.marked .bytes (bs, ()) mark) = Expression.bytes bs :=
  (Node.view_marked .bytes (bs, ()) mark).trans (congrArg Expression.bytes (List.map_id bs))

theorem Node.IsLegacy.alike {e : Node .expr} {value : Constant} (h : e.IsLegacy value) :
    ExprView.Alike (view e) (Expression.constant value) := by
  cases h with
  | num n mark => cases n <;> exact .of_constant (k := .num) rfl (by decide)
  | str s mark => exact .of_constant (k := .str) rfl (by decide)
  | bytes bs mark => exact .of_constant (k := .bytes) (view_bytes bs mark) (by decide)
  | nameConstant value mark =>
    cases value <;> exact .of_constant (k := .nameConstant) rfl (by decide)
  | ellipsis mark => exact .of_constant (k := .ellipsis) rfl (by decide)

theorem Tree.Modernized.alike {s : Shape} {t u : Tree s} (h : t.Modernized u) :
    Value.Related View.Alike s (t.fold fun k v _ => rule k v) (u.fold fun k v _ => rule k v) := by
  induction h with
  | literal h mark => exact h.alike
  | node _ mark mark' ih => exact rule_alike _ ih
  | scalar value => rfl
  | absent => exact Option.Rel.none
  | present _ ih => exact Option.Rel.some ih
  | nil => exact List.Forall₂.nil
  | cons _ _ ih ihs => exact List.Forall₂.cons ih ihs
  | done => trivial
  | field _ _ ih ihmore => exact ⟨ih, ihmore⟩

namespace Node

variable {f : Family} {t u : Node f} {width : Nat} {text : String}

/-- The permissive dialect meets every demand. -/
theorem render_permissive_iff : t.render ⟨.permissive, width⟩ = .ok text ↔
    ∃ ls fragment, t.draft.yield? = some (ls, fragment) ∧
      text = ((Page.blank width).print ls).text ++ fragment := by
  rw [render_eq_ok_iff]
  constructor
  · rintro ⟨fragment, hresult, htext⟩
    rw [lines_of_result_ok hresult] at htext
    exact ⟨_, fragment, yield?_eq_some_iff.mpr ⟨(result_eq_ok_iff.mp hresult).1, rfl⟩, htext⟩
  · rintro ⟨ls, fragment, hyield, htext⟩
    obtain ⟨houtcome, rfl⟩ := yield?_eq_some_iff.mp hyield
    have hresult : t.draft.result .permissive = .ok fragment :=
      result_eq_ok_iff.mpr ⟨houtcome, fun need _ => met_permissive need⟩
    refine ⟨fragment, hresult, ?_⟩
    rw [lines_of_result_ok hresult]
    exact htext

theorem render_modernized (h : t.Modernized u) (width : Nat) (text : String) :
    t.render ⟨.permissive, width⟩ = .ok text ↔ u.render ⟨.permissive, width⟩ = .ok text := by
  have hdraft : t.draft.Agrees u.draft := standalone_agree h.alike
  rw [render_permissive_iff, render_permissive_iff, hdraft]

/-- A docstring, a number before a point, and a text and a value inside an f-string. -/
def quartet (doc number part value : Node .expr) : Node .mod :=
  Stmt.module [Stmt.expr doc, Stmt.expr (Expr.attributeOf number "real"),
    Stmt.expr (.of .joinedStr ([part, .of .formattedValue (value, some .repr, none, ())], ()))]

theorem quartet_modernized :
    (quartet (Expr.legacyStr "a") (Expr.legacyNum (.int 1)) (Expr.legacyStr "b")
      (.of .nameConstant (.none, ()))).Modernized
      (quartet (Expr.str "a") (Expr.int 1) (Expr.legacyStr "b") Expr.none) ∧
    (quartet (Expr.str "a") (Expr.int 1) (Expr.legacyStr "b") Expr.none).render {} =
      .ok "\"\"\"a\"\"\"\n(1).real\nf'b\x7bNone!r\x7d'\n" := by
  have h : (quartet (Expr.legacyStr "a") (Expr.legacyNum (.int 1)) (Expr.legacyStr "b")
      (.of .nameConstant (.none, ()))).Modernized
      (quartet (Expr.str "a") (Expr.int 1) (Expr.legacyStr "b") Expr.none) := by
    have hdoc : (Expr.legacyStr "a").Modernized (Expr.str "a") := .literal (.str _ .none) .none
    have hnumber : (Expr.legacyNum (.int 1)).Modernized (Expr.int 1) :=
      .literal (.num (.int 1) .none) .none
    have hpart : (Expr.legacyStr "b").Modernized (Expr.legacyStr "b") :=
      .node (.field (.scalar _) .done) _ _
    have hvalue : Tree.Modernized (.of .nameConstant (.none, ()) : Node .expr) Expr.none :=
      .literal (.nameConstant .none .none) .none
    have hfield : Tree.Modernized
        (.of .formattedValue (.of .nameConstant (.none, ()), some .repr, none, ()) : Node .expr)
        (Node.of .formattedValue (Expr.none, some .repr, none, ())) :=
      .node (.field hvalue (.field (.present (.scalar _)) (.field .absent .done))) _ _
    exact .node (.field (.cons (.node (.field hdoc .done) _ _)
      (.cons (.node (.field (.node (.field hnumber (.field (.scalar _) .done)) _ _) .done) _ _)
      (.cons (.node (.field (.node (.field (.cons hpart (.cons hfield .nil)) .done) _ _)
        .done) _ _) .nil))) .done) _ _
  exact ⟨h, (render_modernized h 4 _).mp rfl⟩

end Node

end Unparse
