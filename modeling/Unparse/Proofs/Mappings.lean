import Unparse.Proofs.Draft.Running
import Unparse.Proofs.Floats
import Unparse.Proofs.Readability
import Unparse.Proofs.Segments

/-! The keys of mapping patterns. A key can be a literal, a number with a minus sign or a dotted
name, and stands in the pattern as it would stand in an expression: a number with a minus sign is
put in parentheses there, also where the pattern has no place for them. -/
namespace Unparse

open Draft Render Render.Expression

namespace Constant

def isNumber : Constant → Bool
  | int _ | float _ | complex .. => true
  | _ => false

def isNegative : Constant → Bool
  | int i => decide (i < 0)
  | float x => x.negative
  | _ => false

/-- The literals among the keys, apart from complex numbers. -/
def isKey : Constant → Bool
  | none | bool _ | int _ | str _ | bytes _ => true
  | float x => x.isFinite
  | ellipsis | complex .. => false

end Constant

namespace Node

def literal (c : Constant) (mark : Mark .expr) : Node .expr :=
  marked .constant (c, ()) mark

def attributed (value : Node .expr) (attr : String) (mark : Mark .expr) : Node .expr :=
  marked .attribute (value, attr, ()) mark

def operated (op : Node .unaryOp) (operand : Node .expr) (mark : Mark .expr) : Node .expr :=
  marked .unaryOp (op, operand, ()) mark

/-- A name, or an attribute of a dotted name. -/
inductive Dotted : Node .expr → Prop where
  | name {id : String} (mark : Mark .expr) (hid : isName id.toList = true) :
    Dotted (named id mark)
  | member {value : Node .expr} {attr : String} (mark : Mark .expr) (hvalue : Dotted value)
    (hattr : isName attr.toList = true) : Dotted (attributed value attr mark)

/-- The keys of mapping patterns, with and without a minus sign. -/
inductive Key : Bool → Node .expr → Prop where
  | literal {c : Constant} {signed : Bool} (mark : Mark .expr) (hc : c.isKey = true)
    (hsign : c.isNegative = signed) : Key signed (literal c mark)
  | negation {op : Node .unaryOp} {c : Constant} (inner mark : Mark .expr) (hop : op.kind = .uSub)
    (hc : c.isNumber = true) : Key true (operated op (Node.literal c inner) mark)
  | dotted {t : Node .expr} (h : Dotted t) : Key false t

def mapping (keys : List (Node .expr)) (patterns : List (Node .pattern)) (rest : Option String)
    (mark : Mark .pattern) : Node .pattern :=
  marked .matchMapping (keys, patterns, rest, ()) mark

theorem view_mapping (keys : List (Node .expr)) (patterns : List (Node .pattern))
    (rest : Option String) (mark : Mark .pattern) :
    view (mapping keys patterns rest mark) =
      Pattern.matchMapping (keys.map fun t => view t) (patterns.map fun t => view t) rest := by
  have hview : view (mapping keys patterns rest mark) =
      Pattern.matchMapping (keys.map fun t => view t) (patterns.map fun t => view t)
        (rest.map fun name => name) :=
    view_marked .matchMapping (keys, patterns, rest, ()) mark
  rw [hview, Option.map_id']

theorem render_pattern_iff_result {t : Node .pattern} {options : Options} {text : String} :
    t.render options = .ok text ↔ (view t).result options.dialect = .ok text :=
  render_eq_ok_iff_of_quiet (t := t) ((view_judged t).quiet rfl)

end Node

/-! ### The texts of keys -/

/-- The text of a number with a minus sign. -/
def IsNegated (text : String) : Prop :=
  ∃ c : Constant, c.isNumber = true ∧ text = "(-" ++ Literal.constant c ++ ")"

theorem IsNegated.startsWith {text : String} (h : IsNegated text) :
    Text.startsWith text "(" = true := by
  obtain ⟨c, -, rfl⟩ := h
  simp [Text.startsWith, List.isPrefixOf]

theorem Text.startsWith_paren_of_ne {text : String} {c : Char} {cs : List Char}
    (htext : text.toList = c :: cs) (hc : c ≠ '(') : startsWith text "(" = false := by
  simp [startsWith, htext, List.isPrefixOf, hc.symm]

namespace Literal

theorem LedByDigit.startsWith_paren {text : String} (h : LedByDigit text.toList) :
    Text.startsWith text "(" = false := by
  obtain ⟨c, cs, hcs, hc⟩ := h
  apply Text.startsWith_paren_of_ne hcs
  rintro rfl
  exact absurd hc (by decide)

section Written

variable {s : Scientific} (hs : s.IsNormal)
include hs

theorem ledByDigit_positional : LedByDigit s.positional := by
  obtain ⟨d, more, hdigits⟩ := List.exists_cons_of_ne_nil hs.nonempty
  have hd : d.isDigit = true := hs.isDigit d (hdigits ▸ List.mem_cons_self)
  unfold Scientific.positional
  rw [hdigits]
  split
  next =>
    dsimp only
    split
    · exact ⟨d, _, rfl, hd⟩
    · exact ⟨d, _, rfl, hd⟩
  next => exact ⟨'0', _, rfl, by decide⟩

theorem ledByDigit_exponential (width : Nat) : LedByDigit (s.exponential width) := by
  have hdigit := hs.isDigit
  unfold Scientific.exponential Scientific.mantissa
  match hdigits : s.digits with
  | [] => exact absurd hdigits hs.nonempty
  | [d] => exact ⟨d, _, rfl, hdigit d (by simp [hdigits])⟩
  | d :: c :: more => exact ⟨d, _, rfl, hdigit d (by simp [hdigits])⟩

theorem ledByDigit_written (layout : Layout) : LedByDigit (s.written layout) := by
  unfold Scientific.written
  split
  · exact ledByDigit_positional hs
  · exact ledByDigit_exponential hs _

end Written

theorem guardSign_minus (text : String) : guardSign ("-" ++ text) = "(-" ++ text ++ ")" := by
  have hsign : Text.startsWith ("-" ++ text) "-" = true := by
    simp [Text.startsWith, List.isPrefixOf]
  have hopen : "(" ++ "-" = "(-" := by decide
  rw [guardSign, if_pos hsign, ← String.append_assoc, hopen]

theorem startsWith_quoted (hidden : Char → Bool) (cs : List Char) :
    Text.startsWith (String.ofList (quoted hidden cs)) "(" = false := by
  apply Text.startsWith_paren_of_ne (String.toList_ofList ..)
  unfold quoteFor
  split <;> decide

/-- A finite number is written as its magnitude, behind a minus sign if it has one. -/
theorem float_eq {x : Binary64} (hx : x.isFinite = true) :
    LedByDigit (float { x with negative := false }).toList ∧
      float x = if x.negative then "-" ++ float { x with negative := false }
        else float { x with negative := false } := by
  have hmagnitude : float { x with negative := false } =
      String.ofList ((x.scientific .up).written sourceLayout) :=
    congrArg String.ofList (floatChars_eq (x := { x with negative := false }) hx)
  rw [hmagnitude]
  constructor
  · rw [String.toList_ofList]
    exact ledByDigit_written (scientific_isNormal x .up) sourceLayout
  · rw [float, floatChars_eq hx, Json.Numeral.signed]
    split
    · exact String.ofList_cons
    · rfl

/-- Of the literals only the numbers with a minus sign begin with a parenthesis. -/
theorem startsWith_constant {c : Constant} (hc : c.isKey = true) (hsign : c.isNegative = false) :
    Text.startsWith (constant c) "(" = false := by
  cases c with
  | none => decide
  | bool b => cases b <;> decide
  | int i =>
    obtain ⟨n, rfl⟩ := Int.eq_ofNat_of_zero_le (by simpa [Constant.isNegative] using hsign)
    have htext : constant (.int n) = Text.decimal n := (ledByDigit_decimal n).guardSign_eq
    rw [htext]
    exact (ledByDigit_decimal n).startsWith_paren
  | float x =>
    obtain ⟨hdigit, hfloat⟩ := float_eq (x := x) hc
    have hpositive : x.negative = false := hsign
    rw [hpositive, if_neg Bool.false_ne_true] at hfloat
    rw [constant, hfloat, hdigit.guardSign_eq]
    exact hdigit.startsWith_paren
  | str s => exact startsWith_quoted isHidden s.toList
  | bytes bs => exact Text.startsWith_paren_of_ne (String.toList_ofList ..) (by decide)
  | ellipsis | complex _ _ => cases hc

/-- A negative number is its magnitude behind a minus sign, in parentheses. -/
theorem isNegated_constant {c : Constant} (hc : c.isKey = true) (hsign : c.isNegative = true) :
    IsNegated (constant c) := by
  cases c with
  | int i =>
    obtain ⟨n, rfl⟩ := Int.eq_negSucc_of_lt_zero (by simpa [Constant.isNegative] using hsign)
    have htext : constant (.int (n + 1)) = Text.decimal (n + 1) :=
      (ledByDigit_decimal (n + 1)).guardSign_eq
    refine ⟨.int (n + 1), rfl, ?_⟩
    rw [htext]
    exact guardSign_minus _
  | float x =>
    obtain ⟨hdigit, hfloat⟩ := float_eq (x := x) hc
    have hnegative : x.negative = true := hsign
    refine ⟨.float { x with negative := false }, rfl, ?_⟩
    rw [constant, constant, hdigit.guardSign_eq, hfloat, if_pos hnegative, guardSign_minus]
  | none | ellipsis | bool _ | complex _ _ | str _ | bytes _ => cases hsign

end Literal

/-! ### The keys in a pattern -/

namespace Node

theorem result_formed_eq_ok_iff {k : Kind} {form : ExprForm} {x : Draft String} {text : String} :
    (ExprView.formed k form x).text.result .permissive = .ok text ↔
      x.result .permissive = .ok text := by
  rw [ExprView.formed, result_then_eq_ok_iff, result_demand_eq_ok_iff]
  exact and_iff_right rfl

theorem result_literal (c : Constant) (mark : Mark .expr) :
    (view (literal c mark)).text.result .permissive = .ok (Literal.constant c) := by
  have hview : view (literal c mark) = constant c := view_marked .constant (c, ()) mark
  rw [hview]
  exact result_formed_eq_ok_iff.mpr rfl

theorem result_negation {op : Node .unaryOp} (hop : op.kind = .uSub) (c : Constant)
    (inner mark : Mark .expr) :
    (view (operated op (literal c inner) mark)).text.result .permissive =
      .ok ("(-" ++ Literal.constant c ++ ")") := by
  have hview : view (operated op (literal c inner) mark) =
      unaryOp (view op) (view (literal c inner)) := view_marked .unaryOp _ mark
  have hkind : view op = Kind.uSub := (eq_of_heq (view_operator rfl op)).trans hop
  have hopen : "(" ++ unaryToken .uSub = "(-" := by decide
  rw [hview, hkind, ← hopen]
  apply result_formed_eq_ok_iff.mpr
  refine result_then_eq_ok_iff.mpr ⟨result_demand_eq_ok_iff.mpr rfl, ?_⟩
  exact result_bind_eq_ok_iff.mpr ⟨_, result_literal c inner, rfl⟩

/-- A dotted name begins like a name. -/
theorem Dotted.result {t : Node .expr} (h : Dotted t) :
    (view t).form = .plain ∧ ∃ c cs, isNameStart c = true ∧
      (view t).text.result .permissive = .ok (String.ofList (c :: cs)) := by
  induction h with
  | @name id mark hid =>
    rw [view_named]
    cases hcs : id.toList with
    | nil =>
      rw [hcs] at hid
      cases hid
    | cons c cs =>
      rw [hcs, isName, Bool.and_eq_true] at hid
      refine ⟨rfl, c, cs, hid.1, ?_⟩
      rw [← hcs, String.ofList_toList]
      exact result_formed_eq_ok_iff.mpr rfl
  | @member value attr mark _ _ ih =>
    obtain ⟨hform, c, cs, hc, htext⟩ := ih
    have hview : view (attributed value attr mark) = attributeOf (view value) attr :=
      view_marked .attribute _ mark
    have hjoined : String.ofList (c :: cs) ++ "." ++ attr =
        String.ofList (c :: (cs ++ '.' :: attr.toList)) := by
      simp [← String.toList_inj]
    rw [hview]
    refine ⟨rfl, c, cs ++ '.' :: attr.toList, hc, ?_⟩
    rw [← hjoined]
    refine result_formed_eq_ok_iff.mpr (result_bind_eq_ok_iff.mpr ⟨_, htext, ?_⟩)
    rw [hform]
    rfl

/-- Every key has a text, and the text begins with a parenthesis if the key has a minus sign. -/
theorem Key.result {signed : Bool} {t : Node .expr} (h : Key signed t) :
    ∃ head, (view t).text.result .permissive = .ok head ∧ Text.startsWith head "(" = signed ∧
      (signed = true → IsNegated head) := by
  cases h with
  | @literal c _ mark hc hsign =>
    refine ⟨_, result_literal c mark, ?_, fun hsigned => ?_⟩
    · cases signed with
      | false => exact Literal.startsWith_constant hc hsign
      | true => exact (Literal.isNegated_constant hc hsign).startsWith
    · exact Literal.isNegated_constant hc (hsign.trans hsigned)
  | @negation op c inner mark hop hc =>
    have hnegated : IsNegated ("(-" ++ Literal.constant c ++ ")") := ⟨c, hc, rfl⟩
    exact ⟨_, result_negation hop c inner mark, hnegated.startsWith, fun _ => hnegated⟩
  | dotted h =>
    obtain ⟨-, c, cs, hc, htext⟩ := h.result
    have hne : c ≠ '(' := by
      rintro rfl
      exact absurd hc (by decide)
    exact ⟨_, htext, Text.startsWith_paren_of_ne String.toList_ofList hne, nofun⟩

end Node

namespace Render.Pattern

variable {d : Dialect}

theorem result_mappingEntry_eq_ok_iff {key : ExprView} {head : String}
    (hkey : key.text.result d = .ok head) {value : Draft String} {entry : String} :
    (mappingEntry key value).result d = .ok entry ↔
      ∃ tail, value.result d = .ok tail ∧ entry = head ++ ": " ++ tail := by
  rw [mappingEntry, result_bind_eq_ok_iff]
  simp only [result_bind_eq_ok_iff, hkey, Except.ok.injEq, exists_eq_left', result_pure,
    eq_comm (a := entry)]

/-- The keys and the patterns of a mapping are joined in pairs. -/
theorem result_entries_eq_ok_iff {keys : List ExprView} {heads : List String}
    (hkeys : List.Forall₂ (fun key head => key.text.result d = .ok head) keys heads)
    {values : List (Draft String)} (hlength : keys.length = values.length)
    {entries : List String} :
    (all ((keys.zip values).map fun (k, p) => mappingEntry k p)).result d = .ok entries ↔
      ∃ tails, List.Forall₂ (fun value tail => value.result d = .ok tail) values tails ∧
        entries = List.zipWith (fun head tail => head ++ ": " ++ tail) heads tails := by
  induction hkeys generalizing values entries with
  | nil =>
    obtain rfl := List.eq_nil_of_length_eq_zero hlength.symm
    simp [all, result_pure, eq_comm]
  | @cons key head keys heads hkey _ ih =>
    cases values with
    | nil => cases hlength
    | cons value values =>
      have hshorter : keys.length = values.length := Nat.succ.inj hlength
      rw [List.zip_cons_cons, List.map_cons, all]
      constructor
      · intro h
        obtain ⟨entry, hentry, hrest⟩ := result_bind_eq_ok_iff.mp h
        obtain ⟨tail, htail, rfl⟩ := (result_mappingEntry_eq_ok_iff hkey).mp hentry
        obtain ⟨more, hall, hdone⟩ := result_bind_eq_ok_iff.mp hrest
        obtain ⟨tails, htails, rfl⟩ := (ih hshorter).mp hall
        cases hdone
        exact ⟨tail :: tails, .cons htail htails, rfl⟩
      · rintro ⟨_ | ⟨tail, tails⟩, htails, rfl⟩
        · cases htails
        · obtain ⟨htail, htails⟩ := List.forall₂_cons.mp htails
          have hentry := (result_mappingEntry_eq_ok_iff hkey).mpr ⟨tail, htail, rfl⟩
          have hall := (ih hshorter).mpr ⟨tails, htails, rfl⟩
          exact result_bind_eq_ok_iff.mpr ⟨_, hentry, result_bind_eq_ok_iff.mpr ⟨_, hall, rfl⟩⟩

theorem result_matchMapping_eq_ok_iff {keys : List ExprView} {heads : List String}
    (hkeys : List.Forall₂ (fun key head => key.text.result .permissive = .ok head) keys heads)
    {values : List (Draft String)} {rest : Option String} {text : String} :
    (matchMapping keys values rest).result .permissive = .ok text ↔
      keys.length = values.length ∧
      ∃ tails, List.Forall₂ (fun value tail => value.result .permissive = .ok tail) values tails ∧
        text = "\x7b" ++ String.intercalate ", "
          (List.zipWith (fun head tail => head ++ ": " ++ tail) heads tails ++
            (rest.map ("**" ++ ·)).toList) ++ "\x7d" := by
  have hrest : restEntry rest = (rest.map ("**" ++ ·)).toList := by cases rest <;> rfl
  have hmapping : (matchMapping keys values rest).result .permissive = .ok text ↔
      keys.length = values.length ∧ ∃ entries,
        (all ((keys.zip values).map fun (k, p) => mappingEntry k p)).result .permissive
          = .ok entries ∧
        text = braced (String.intercalate ", " (entries ++ restEntry rest)) := by
    have hsupports : Dialect.permissive.supports .matchMapping = true := rfl
    rw [matchMapping, formed, result_then_eq_ok_iff, result_demand_eq_ok_iff,
      and_iff_right hsupports, result_then_eq_ok_iff, result_refuse_eq_ok_iff, bne_eq_false_iff_eq,
      result_bind_eq_ok_iff]
    simp only [result_pure, Except.ok.injEq, eq_comm (b := text)]
  rw [hmapping, hrest]
  refine and_congr_right fun hlength => ?_
  constructor
  · rintro ⟨entries, hentries, rfl⟩
    obtain ⟨tails, htails, rfl⟩ := (result_entries_eq_ok_iff hkeys hlength).mp hentries
    exact ⟨tails, htails, rfl⟩
  · rintro ⟨tails, htails, rfl⟩
    exact ⟨_, (result_entries_eq_ok_iff hkeys hlength).mpr ⟨tails, htails, rfl⟩, rfl⟩

end Render.Pattern

namespace Node

theorem exists_heads {signs : List Bool} {keys : List (Node .expr)}
    (h : List.Forall₂ Key signs keys) :
    ∃ heads,
      List.Forall₂ (fun (key : Node .expr) head =>
        (view key).text.result .permissive = .ok head) keys heads ∧
      List.Forall₂ (fun signed head => Text.startsWith head "(" = signed ∧
        (signed = true → IsNegated head)) signs heads := by
  induction h with
  | nil => exact ⟨[], .nil, .nil⟩
  | cons hkey _ ih =>
    obtain ⟨head, htext, hhead⟩ := hkey.result
    obtain ⟨heads, htexts, hheads⟩ := ih
    exact ⟨head :: heads, .cons htext htexts, .cons hhead hheads⟩

/-- The text of a mapping pattern joins the texts that its keys and patterns have alone. A key
begins with a parenthesis exactly if it has a minus sign, and is then nothing but the minus sign
and a number in parentheses. -/
theorem mapping_keys_grouped {signs : List Bool} {keys : List (Node .expr)}
    (hkeys : List.Forall₂ Key signs keys) (patterns : List (Node .pattern)) (rest : Option String)
    (mark : Mark .pattern) (width : Nat) :
    ∃ heads,
      List.Forall₂ (fun key head => key.render ⟨.permissive, width⟩ = .ok head) keys heads ∧
      List.Forall₂ (fun signed head => Text.startsWith head "(" = signed ∧
        (signed = true → IsNegated head)) signs heads ∧
      ∀ text, (mapping keys patterns rest mark).render ⟨.permissive, width⟩ = .ok text ↔
        keys.length = patterns.length ∧
        ∃ tails,
          List.Forall₂ (fun p tail => p.render ⟨.permissive, width⟩ = .ok tail) patterns tails ∧
          text = "\x7b" ++ String.intercalate ", "
            (List.zipWith (fun head tail => head ++ ": " ++ tail) heads tails ++
              (rest.map ("**" ++ ·)).toList) ++ "\x7d" := by
  obtain ⟨heads, htexts, hheads⟩ := exists_heads hkeys
  have hviews : List.Forall₂ (fun key head => key.text.result .permissive = .ok head)
      (keys.map fun t => view t) heads := List.forall₂_map_left_iff.mpr htexts
  refine ⟨heads, ?_, hheads, fun text => ?_⟩
  · simpa only [render_expr_iff_result] using htexts
  · rw [render_pattern_iff_result, view_mapping, Pattern.result_matchMapping_eq_ok_iff hviews]
    simp only [List.length_map, List.forall₂_map_left_iff, render_pattern_iff_result]

/-- A negative number, the negation of a number and a dotted name. -/
def sampleKeys : List (Node .expr) :=
  [literal (.int (-1)) .none, operated (.of .uSub ()) (literal (.int 2) .none) .none,
    attributed (named "a" .none) "b" .none]

theorem sampleKeys_grouped :
    List.Forall₂ Key [true, true, false] sampleKeys ∧
    (mapping sampleKeys [Pattern.wildcard, Pattern.wildcard, Pattern.capture "x"] (some "rest")
      .none).render ⟨.permissive, 4⟩ = .ok "\x7b(-1): _, (-2): _, a.b: x, **rest\x7d" := by
  have hkeys : List.Forall₂ Key [true, true, false] sampleKeys :=
    .cons (.literal .none rfl (by decide)) (.cons (.negation .none .none rfl rfl)
      (.cons (.dotted (.member .none (.name .none (by decide)) (by decide))) .nil))
  obtain ⟨heads, htexts, -, hmapping⟩ := mapping_keys_grouped hkeys
    [Pattern.wildcard, Pattern.wildcard, Pattern.capture "x"] (some "rest") .none 4
  refine ⟨hkeys, (hmapping _).mpr ⟨rfl, ["_", "_", "x"], ?_, ?_⟩⟩
  · exact .cons rfl (.cons rfl (.cons rfl .nil))
  · match heads, htexts with
    | [_, _, _], .cons hfirst (.cons hsecond (.cons hthird .nil)) =>
      cases hfirst
      cases hsecond
      cases hthird
      rfl

/-- The key stands in parentheses, for which a pattern has no place. -/
theorem minus_one_grouped :
    Key true (literal (.int (-1)) .none) ∧
    (literal (.int (-1)) .none).render ⟨.permissive, 4⟩ = .ok "(-1)" ∧
    (mapping [literal (.int (-1)) .none] [Pattern.wildcard] none .none).render ⟨.permissive, 4⟩ =
      .ok "\x7b(-1): _\x7d" :=
  ⟨.literal .none rfl (by decide), rfl, rfl⟩

end Node

end Unparse
