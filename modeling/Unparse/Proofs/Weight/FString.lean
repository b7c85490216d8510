import Unparse.Proofs.Weight.Expression
import Unparse.Render.FString

/-! The rules for f-strings keep the balance, whichever quotes are chosen. -/
namespace Unparse.Render.FString

open Draft ExprView

variable {m : Scale} {u v w : Weight}

theorem text_quote {q : Quote} (hq : q ∈ quotes) : m.text q.text = 0 := by
  refine m.text_ascii ?_
  revert q
  decide

theorem chars_doubleBrace (cs : List Char) : m.chars (cs.flatMap doubleBrace) = m.chars cs := by
  have hbrace (c : Char) : m.chars (doubleBrace c) = m.char c := by
    unfold doubleBrace
    split
    next h =>
      have hzero : m.char c = 0 := by
        rcases h with rfl | rfl
        · exact m.char_ascii _ (by decide)
        · exact m.char_ascii _ (by decide)
      simp [hzero]
    next => simp
  induction cs with
  | nil => rfl
  | cons c cs ih => rw [List.flatMap_cons, m.chars_append, hbrace, ih, m.chars_cons]

theorem text_segmentText (q : Quote) (s : Segment) : m.text (segmentText q s) = m.segment s := by
  cases s with
  | literal text =>
    rw [segmentText, m.text_ofList, chars_doubleBrace, m.chars_escape]
    rfl
  | code text => rfl

theorem text_body (q : Quote) (segments : List Segment) :
    m.text (body q segments) = m.segments segments := by
  unfold body Scale.segments
  rw [m.text_join, Scale.texts, List.map_map]
  exact congrArg List.sum (List.map_congr_left fun s _ => text_segmentText q s)

theorem quoted_weighs {k : Kind} {segments : List Segment} {held : Nat}
    (h : m.segments segments = held) :
    (match quote? segments with
      | none => Draft.fail k .everyQuote
      | some q => Pure.pure ("f" ++ q.text ++ body q segments ++ q.text) : Draft String).Weighs
        m m.text held 0 := by
  split
  · exact Weighs.fail
  next q hq => exact Weighs.done (by simp [text_quote (quote?_mem hq), text_body, h])

theorem joined_weighs {k : Kind} {segments : List Segment} {held : Nat}
    (h : m.segments segments = held) : (joined k segments).Weighs m m.text held 0 := by
  unfold joined
  dsimp only
  by_cases hbackslash : codesContain segments "\\" = true
  · rw [if_pos hbackslash]
    exact ((Weighs.demandBackslash k).bind fun _ => quoted_weighs h).congr (zero_add 0)
  · rw [if_neg hbackslash]
    exact quoted_weighs h

@[simp] theorem segments_append (ss ts : List Segment) :
    m.segments (ss ++ ts) = m.segments ss + m.segments ts := by
  simp [Scale.segments]

@[simp] theorem segments_cons (s : Segment) (ss : List Segment) :
    m.segments (s :: ss) = m.segment s + m.segments ss := by
  simp [Scale.segments]

theorem part_weighs {e : ExprView} (h : e.Weighs m u) :
    (part e).Weighs m m.segments 0 u := by
  have hform := h.form
  unfold part
  split
  next text heq =>
    rw [heq] at hform
    rw [hform]
    exact Weighs.demand_bind (Weighs.pure (by simp [Scale.segment, Scale.segments]))
  next segments heq =>
    rw [heq] at hform
    exact hform
  next => exact Weighs.fail

theorem segments_flatten (sss : List (List Segment)) :
    m.segments sss.flatten = (sss.map m.segments).sum := by
  induction sss with
  | nil => rfl
  | cons ss sss ih => simp [ih]

theorem parts_weighs {es : List ExprView} (h : Together (ExprView.Weighs m) es u) :
    (parts es).Weighs m m.segments 0 u := by
  have hall : Together (fun x w => Draft.Weighs m m.segments x 0 w) (es.map part) u := by
    refine h.map ?_
    intro e w he
    exact part_weighs he
  refine (Weighs.all hall).bind_pure fun sss => ?_
  rw [segments_flatten, Nat.zero_add]

theorem spec_weighs {format : Option ExprView} (h : Maybe (ExprView.Weighs m) format u) :
    (spec format).Weighs m m.segments 0 u := by
  cases format with
  | none =>
    rw [show u = 0 from h]
    exact Weighs.done rfl
  | some e =>
    have hform := h.form
    unfold spec
    dsimp only
    split
    next segments heq =>
      rw [heq] at hform
      obtain ⟨v, hsegments, rfl⟩ := hform
      refine Weighs.demand_bind (hsegments.bind_pure fun ss => ?_)
      simp [Scale.segment]
    next => exact Weighs.fail

@[simp] theorem text_openField (text : String) : m.text (openField text) = m.text text := by
  unfold openField
  split <;> simp

@[simp] theorem text_conversionText (c : Option Conversion) : m.text (conversionText c) = 0 := by
  rcases c with _ | _ | _ | _ <;> exact m.text_ascii (by decide)

theorem field_weighs {value : ExprView} {conversion : Option Conversion}
    {format : Option ExprView} (hvalue : value.Weighs m u)
    (hformat : Maybe (ExprView.Weighs m) format v) :
    (field value conversion format).Weighs m m.segments 0 (.kind .formattedValue + (u + v)) := by
  refine Weighs.demand_bind (hvalue.text.bind fun text => ?_)
  refine (spec_weighs hformat).bind_pure fun more => ?_
  simp [Scale.segment, Scale.segments]

/-- A replacement field that stands alone demands its kind twice. -/
theorem formattedValue_weighs {value : ExprView} {conversion : Option Conversion}
    {format : Option ExprView} (hvalue : value.Weighs m u)
    (hformat : Maybe (ExprView.Weighs m) format v) :
    (formattedValue value conversion format).Weighs m (.kind .formattedValue + (u + v)) := by
  have hfield : (field value conversion format).Weighs m m.segments 0
      (.kind .formattedValue + (u + v)) := field_weighs hvalue hformat
  have htext := hfield.bind fun ss => joined_weighs (k := .formattedValue) (Nat.zero_add _).symm
  rw [add_zero] at htext
  have hdemanded := Weighs.demand_bind (k := .formattedValue) (f := fun _ => _) htext
  rw [Weight.kind_add_kind] at hdemanded
  exact ⟨hdemanded, hfield⟩

theorem joinedStr_weighs {values : List ExprView} (h : Together (ExprView.Weighs m) values u) :
    (joinedStr values).Weighs m (.kind .joinedStr + u) := by
  have hparts := parts_weighs h
  have htext := hparts.bind fun ss => joined_weighs (k := .joinedStr) (Nat.zero_add _).symm
  rw [add_zero] at htext
  exact formed_weighs htext ⟨u, hparts, rfl⟩

end Unparse.Render.FString
