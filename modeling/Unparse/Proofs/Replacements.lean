import Mathlib.Data.List.Forall2
import Mathlib.Data.List.Infix
import Unparse.Proofs.Form.Rule
import Unparse.Proofs.Gating
import Unparse.Proofs.Scanner.Closing
import Unparse.Proofs.Tree.Erase

/-! What stands in replacement fields. The code of an f-string is made of the texts of its fields,
also of those in format specs, each between braces and signs. A quote, a line end or a backslash
is therefore found in the code exactly if the text of some field has it, and what an f-string
needs can be said of these texts alone. -/
namespace Unparse

open Render Render.FString

namespace Draft

variable {A B : Type}

/-- A draft that ends well has gone through each of its steps. -/
theorem of_bind_ok {x : Draft A} {f : A → Draft B} {b : B} (h : (x >>= f).outcome = .ok b) :
    ∃ a, x.outcome = .ok a ∧ (f a).outcome = .ok b ∧
      (x >>= f).entries = x.entries ++ (f a).entries := by
  cases hx : x.outcome with
  | error flaw =>
    rw [bind_of_error hx] at h
    cases h
  | ok a =>
    rw [outcome_bind_of_ok hx] at h
    exact ⟨a, rfl, h, entries_bind_of_ok hx f⟩

theorem of_all_ok {xs : List (Draft A)} {as : List A} (h : (all xs).outcome = .ok as)
    {x : Draft A} (hx : x ∈ xs) : ∃ a ∈ as, x.outcome = .ok a ∧ x.entries ⊆ (all xs).entries := by
  induction xs generalizing as with
  | nil => cases hx
  | cons y more ih =>
    obtain ⟨b, hb, hrest, hentries⟩ := of_bind_ok h
    obtain ⟨bs, hbs, hdone, hmore⟩ := of_bind_ok hrest
    cases hdone
    rw [all, hentries, hmore]
    rcases List.mem_cons.mp hx with rfl | hx
    · exact ⟨b, List.mem_cons_self, hb, List.subset_append_left ..⟩
    · obtain ⟨a, ha, houtcome, hsubset⟩ := ih hbs hx
      refine ⟨a, .tail _ ha, houtcome, fun entry hentry => ?_⟩
      exact List.mem_append_right _ (List.mem_append_left _ (hsubset hentry))

/-- Each draft of a list has ended well if all together have. -/
theorem forall₂_of_all_ok {xs : List (Draft A)} {as : List A} (h : (all xs).outcome = .ok as) :
    List.Forall₂ (fun x a => x.outcome = .ok a) xs as := by
  induction xs generalizing as with
  | nil =>
    cases h
    exact .nil
  | cons x more ih =>
    obtain ⟨a, ha, hrest, -⟩ := of_bind_ok h
    obtain ⟨rest, hmore, hdone, -⟩ := of_bind_ok hrest
    cases hdone
    exact .cons ha (ih hmore)

end Draft

/-! ### The expressions of replacement fields -/

namespace Node

def fString (values : List (Node .expr)) (mark : Mark .expr) : Node .expr :=
  marked .joinedStr (values, ()) mark

def replacement (value : Node .expr) (conversion : Option Conversion)
    (format : Option (Node .expr)) (mark : Mark .expr) : Node .expr :=
  marked .formattedValue (value, conversion, format, ()) mark

theorem view_fString (values : List (Node .expr)) (mark : Mark .expr) :
    view (fString values mark) = joinedStr (values.map fun u => view u) :=
  view_marked .joinedStr (values, ()) mark

theorem view_replacement (value : Node .expr) (conversion : Option Conversion)
    (format : Option (Node .expr)) (mark : Mark .expr) :
    view (replacement value conversion format mark) =
      formattedValue (view value) conversion (format.map fun u => view u) := by
  have hview : view (replacement value conversion format mark) =
      formattedValue (view value) (conversion.map fun c => c) (format.map fun u => view u) :=
    view_marked .formattedValue (value, conversion, format, ()) mark
  rw [hview, Option.map_id']

/-- The second expression is that of a replacement field of the first one, maybe of a field in a
format spec. -/
inductive Replaces : Node .expr → Node .expr → Prop where
  | value (e : Node .expr) (conversion : Option Conversion) (format : Option (Node .expr))
      (mark : Mark .expr) : Replaces (replacement e conversion format mark) e
  | format (value : Node .expr) (conversion : Option Conversion) (mark : Mark .expr)
      {u e : Node .expr} (h : Replaces u e) :
      Replaces (replacement value conversion (some u) mark) e
  | part (values : List (Node .expr)) (mark : Mark .expr) {u e : Node .expr} (hu : u ∈ values)
      (h : Replaces u e) : Replaces (fString values mark) e

end Node

/-- With the segments, the draft has made the demands of the expression, and its text stands in
the code. -/
def Draft.Carries (e : Node .expr) (x : Draft (List Segment)) : Prop :=
  ∀ segments, x.outcome = .ok segments →
    e.draft.entries ⊆ x.entries ∧
      ∃ text, e.draft.outcome = .ok text ∧ ∃ c ∈ codes segments, text.toList <:+: c.toList

def ExprForm.Carries (e : Node .expr) : ExprForm → Prop
  | .field segments => segments.Carries e
  | .joined segments => segments.Carries e
  | _ => False

namespace Draft.Carries

variable {e : Node .expr} {x : Draft (List Segment)}

theorem fail {k : Kind} {fault : Fault} : (Draft.fail k fault).Carries e :=
  fun _ h => nomatch h

theorem bind {A : Type} {y : Draft A} {f : A → Draft (List Segment)}
    (h : ∀ a, (f a).Carries e) : (y >>= f).Carries e := by
  intro segments hsegments
  obtain ⟨a, -, hf, hentries⟩ := of_bind_ok hsegments
  obtain ⟨hdemands, htext⟩ := h a segments hf
  rw [hentries]
  exact ⟨List.subset_append_of_subset_right _ hdemands, htext⟩

/-- More segments do not hide any. -/
theorem bind_pure {f : List Segment → List Segment} (h : x.Carries e)
    (hf : ∀ segments, codes segments ⊆ codes (f segments)) :
    (x >>= fun segments => pure (f segments)).Carries e := by
  intro segments hsegments
  obtain ⟨ss, hx, hdone, hentries⟩ := of_bind_ok hsegments
  cases hdone
  obtain ⟨hdemands, text, htext, c, hc, hoccurs⟩ := h ss hx
  rw [hentries]
  exact ⟨List.subset_append_of_subset_left _ hdemands, text, htext, c, hf ss hc, hoccurs⟩

end Draft.Carries

namespace Render.FString

variable {e : Node .expr} {u : ExprView}

theorem part_carries (h : u.form.Carries e) : (part u).Carries e := by
  obtain ⟨k, form, text⟩ := u
  cases form with
  | field segments => exact h
  | joined segments => exact Draft.Carries.fail
  | plain | integer | string _ | tuple _ => exact h.elim

theorem parts_carries {us : List ExprView} (hu : u ∈ us) (h : u.form.Carries e) :
    (parts us).Carries e := by
  intro segments hsegments
  obtain ⟨ss, hall, hdone, hentries⟩ := Draft.of_bind_ok hsegments
  cases hdone
  obtain ⟨own, hown, houtcome, hsubset⟩ := Draft.of_all_ok hall (List.mem_map_of_mem hu)
  obtain ⟨hdemands, text, htext, c, hc, hoccurs⟩ := part_carries h own houtcome
  rw [parts, hentries]
  refine ⟨List.subset_append_of_subset_left _ (List.Subset.trans hdemands hsubset), text, htext, c,
    ?_, hoccurs⟩
  obtain ⟨segment, hmem, hcode⟩ := List.mem_filterMap.mp hc
  exact List.mem_filterMap.mpr ⟨segment, List.mem_flatten.mpr ⟨own, hown, hmem⟩, hcode⟩

theorem spec_carries (h : u.form.Carries e) : (spec (some u)).Carries e := by
  obtain ⟨k, form, text⟩ := u
  cases form with
  | field segments => exact Draft.Carries.fail
  | joined segments =>
    exact Draft.Carries.bind fun _ => Draft.Carries.bind_pure h fun ss => List.subset_cons_self ..
  | plain | integer | string _ | tuple _ => exact h.elim

/-- The characters that stand around the texts of replacement fields. -/
def frame : List Char :=
  ['\x7b', '\x7d', ' ', ':', '!', 's', 'r', 'a']

theorem exists_toList_openField (text : String) :
    ∃ before ⊆ frame, (openField text).toList = before ++ text.toList := by
  unfold openField
  split
  · exact ⟨_, by decide, String.toList_append⟩
  · exact ⟨_, by decide, String.toList_append⟩

theorem infix_openField (text : String) (conversion : Option Conversion) :
    text.toList <:+: (openField text ++ conversionText conversion).toList := by
  obtain ⟨before, -, hopen⟩ := exists_toList_openField text
  rw [String.toList_append, hopen]
  exact ⟨before, _, rfl⟩

theorem field_carries (conversion : Option Conversion) (format : Option ExprView) :
    (field (view e) conversion format).Carries e := by
  refine Draft.Carries.bind fun _ segments hsegments => ?_
  obtain ⟨text, htext, hrest, hentries⟩ := Draft.of_bind_ok hsegments
  obtain ⟨more, -, hdone, -⟩ := Draft.of_bind_ok hrest
  cases hdone
  rw [hentries]
  exact ⟨List.subset_append_left .., text, htext, _, List.mem_cons_self,
    infix_openField text conversion⟩

theorem field_carries_spec (value : ExprView) (conversion : Option Conversion)
    {format : Option ExprView} (h : (spec format).Carries e) :
    (field value conversion format).Carries e := by
  refine Draft.Carries.bind fun _ => Draft.Carries.bind fun text => h.bind_pure fun more => ?_
  have hmore : codes more ⊆ codes (more ++ [.code "\x7d"]) := by
    rw [codes_append]
    exact List.subset_append_left ..
  exact List.subset_cons_of_subset _ hmore

end Render.FString

namespace Node

theorem Replaces.carries {t e : Node .expr} (h : Replaces t e) : (view t).form.Carries e := by
  induction h with
  | value e conversion format mark =>
    rw [view_replacement]
    exact field_carries conversion _
  | format value conversion mark _ ih =>
    rw [view_replacement]
    exact field_carries_spec _ conversion (spec_carries ih)
  | part values mark hu _ ih =>
    rw [view_fString]
    exact parts_carries (List.mem_map_of_mem hu) ih

theorem node_joinedStr (fields : Tree (Kind.shape .joinedStr))
    (mark : Mark (Kind.place .joinedStr)) :
    Tree.node .joinedStr fields mark = fString fields.values.1 mark :=
  congrArg (fun fields => Tree.node .joinedStr fields mark) (Tree.ofValue_values fields).symm

theorem node_formattedValue (fields : Tree (Kind.shape .formattedValue))
    (mark : Mark (Kind.place .formattedValue)) :
    Tree.node .formattedValue fields mark =
      replacement fields.values.1 fields.values.2.1 fields.values.2.2.1 mark :=
  congrArg (fun fields => Tree.node .formattedValue fields mark) (Tree.ofValue_values fields).symm

theorem exists_fString {f : Family} (t : Node f) (h : t.kind.isFString = true) :
    (∃ values mark, (⟨f, t⟩ : AnyNode) = ⟨.expr, fString values mark⟩) ∨
      ∃ value conversion format mark,
        (⟨f, t⟩ : AnyNode) = ⟨.expr, replacement value conversion format mark⟩ := by
  cases t with
  | node k fields mark =>
    cases k with
    | joinedStr => exact .inl ⟨_, mark, congrArg (AnyNode.mk .expr) (node_joinedStr fields mark)⟩
    | formattedValue =>
      exact .inr ⟨_, _, _, mark, congrArg (AnyNode.mk .expr) (node_formattedValue fields mark)⟩
    | _ => cases h

theorem text_quiet (t : Node .expr) : (view t).text.Gives fun _ => True :=
  ⟨(view_judged t).text.quiet rfl, fun _ _ => trivial⟩

/-- Expressions lay out no lines. -/
theorem render_expr_iff_result {t : Node .expr} {options : Options} {text : String} :
    t.render options = .ok text ↔ (view t).text.result options.dialect = .ok text :=
  render_eq_ok_iff_of_quiet (t := t) (text_quiet t).quiet

theorem render_expr_eq_ok_iff {t : Node .expr} {options : Options} {text : String} :
    t.render options = .ok text ↔ t.draft.outcome = .ok text ∧
      ∀ need, Entry.demand need ∈ t.draft.entries → need.met options.dialect = true :=
  render_expr_iff_result.trans Draft.result_eq_ok_iff

end Node

/-! ### How segments are built -/

namespace Render.FString

theorem segments?_eq_some {x : Draft (List Segment)} {segments : List Segment}
    (h : x.outcome = .ok segments) : x.outcome.toOption = some segments := by
  rw [h]
  rfl

theorem of_segments?_eq_some {x : Draft (List Segment)} {segments : List Segment}
    (h : x.outcome.toOption = some segments) : x.outcome = .ok segments := by
  cases hx : x.outcome with
  | error flaw =>
    rw [hx] at h
    cases h
  | ok others =>
    rw [hx] at h
    exact congrArg Except.ok (Option.some.inj h)

theorem of_part_ok {e : ExprView} {segments : List Segment} (h : (part e).outcome = .ok segments) :
    (∃ s, segments = [.literal s]) ∨ e.segments? = some segments := by
  obtain ⟨k, form, text⟩ := e
  cases form with
  | string s =>
    cases h
    exact .inl ⟨s, rfl⟩
  | field x => exact .inr (segments?_eq_some h)
  | plain | integer | tuple _ | joined _ => cases h

theorem of_spec_ok {e : ExprView} {more : List Segment} (h : (spec (some e)).outcome = .ok more) :
    ∃ segments, e.segments? = some segments ∧ more = .code ":" :: segments := by
  obtain ⟨k, form, text⟩ := e
  cases form with
  | joined x =>
    obtain ⟨_, _, hrest, -⟩ := Draft.of_bind_ok h
    obtain ⟨segments, hx, hdone, -⟩ := Draft.of_bind_ok hrest
    cases hdone
    exact ⟨segments, segments?_eq_some hx, rfl⟩
  | plain | integer | string _ | tuple _ | field _ => cases h

theorem of_field_ok {value : ExprView} {conversion : Option Conversion} {format : Option ExprView}
    {segments : List Segment} (h : (field value conversion format).outcome = .ok segments) :
    ∃ text more, value.text.outcome = .ok text ∧ (spec format).outcome = .ok more ∧
      segments = .code (openField text ++ conversionText conversion) ::
        (more ++ [.code "\x7d"]) := by
  obtain ⟨_, _, hrest, -⟩ := Draft.of_bind_ok h
  obtain ⟨text, htext, hrest, -⟩ := Draft.of_bind_ok hrest
  obtain ⟨more, hmore, hdone, -⟩ := Draft.of_bind_ok hrest
  cases hdone
  exact ⟨text, more, htext, hmore, rfl⟩

/-- What holds of the segments of an f-string if it holds of those of its parts. -/
structure Builds (Q : Node .expr → List Segment → Prop) : Prop where
  ofParts : ∀ values mark ss, List.Forall₂
    (fun u segments => (∃ s, segments = [.literal s]) ∨ Q u segments) values ss →
    Q (Node.fString values mark) ss.flatten
  ofField : ∀ value conversion mark text, value.draft.outcome = .ok text →
    Q (Node.replacement value conversion none mark)
      [.code (openField text ++ conversionText conversion), .code "\x7d"]
  ofSpec : ∀ value conversion u mark text segments, value.draft.outcome = .ok text →
    Q u segments → Q (Node.replacement value conversion (some u) mark)
      (.code (openField text ++ conversionText conversion) :: .code ":" ::
        (segments ++ [.code "\x7d"]))

namespace Builds

variable {Q : Node .expr → List Segment → Prop}

/-- If it is an expression, its segments are as they should be. -/
def Holds (Q : Node .expr → List Segment → Prop) (n : AnyNode) : Prop :=
  ∀ u : Node .expr, n = ⟨.expr, u⟩ → ∀ segments, (view u).segments? = some segments → Q u segments

theorem fString (h : Builds Q) {values : List (Node .expr)} {mark : Mark .expr}
    {views : List ExprView} (hvalues : List.Forall₂ (fun _ u => Holds Q ⟨.expr, u⟩) views values)
    {segments : List Segment}
    (hsegments : (view (Node.fString values mark)).segments? = some segments) :
    Q (Node.fString values mark) segments := by
  rw [Node.view_fString] at hsegments
  obtain ⟨ss, hall, hdone, -⟩ := Draft.of_bind_ok (of_segments?_eq_some hsegments)
  cases hdone
  have hparts := Draft.forall₂_of_all_ok hall
  clear hsegments hall
  refine h.ofParts values mark ss ?_
  induction hvalues generalizing ss with
  | nil =>
    cases hparts
    exact .nil
  | @cons _ u _ _ hu _ ih =>
    cases hparts with
    | cons hpart hmore =>
      exact .cons ((of_part_ok hpart).imp_right (hu u rfl _)) (ih _ hmore)

theorem replacement (h : Builds Q) {value : Node .expr} {conversion : Option Conversion}
    {format : Option (Node .expr)} {mark : Mark .expr} {view? : Option ExprView}
    (hformat : Option.Rel (fun _ u => Holds Q ⟨.expr, u⟩) view? format) {segments : List Segment}
    (hsegments : (view (Node.replacement value conversion format mark)).segments? =
      some segments) : Q (Node.replacement value conversion format mark) segments := by
  rw [Node.view_replacement] at hsegments
  obtain ⟨text, more, htext, hmore, rfl⟩ := of_field_ok (of_segments?_eq_some hsegments)
  cases hformat with
  | none =>
    cases hmore
    exact h.ofField value conversion mark text htext
  | @some _ u hu =>
    obtain ⟨own, hown, rfl⟩ := of_spec_ok hmore
    exact h.ofSpec value conversion u mark text own htext (hu u rfl own hown)

theorem node (h : Builds Q) (k : Kind) (fields : Tree k.shape) (mark : Mark k.place)
    (hfields : Value.Related (fun f _ t => Holds Q ⟨f, t⟩) k.shape
      (fields.fold fun k v _ => rule k v) fields.values) :
    Holds Q ⟨k.place, .node k fields mark⟩ := by
  intro u hu segments hsegments
  cases hk : k.isFString with
  | false =>
    have hnone : (⟨.expr, u⟩ : AnyNode).segments? = none := hu ▸ segments?_rule hk _
    cases hnone.symm.trans hsegments
  | true =>
    cases k with
    | joinedStr =>
      cases hu
      rw [Node.node_joinedStr] at hsegments ⊢
      exact h.fString hfields.1 hsegments
    | formattedValue =>
      cases hu
      rw [Node.node_formattedValue] at hsegments ⊢
      exact h.replacement hfields.2.2.1 hsegments
    | _ => cases hk

/-- What is kept up where segments are put together holds of those of every f-string. -/
theorem of_segments? (h : Builds Q) {t : Node .expr} {segments : List Segment}
    (hsegments : (view t).segments? = some segments) : Q t segments := by
  have hholds : Holds Q ⟨.expr, t⟩ := by
    have hall {f : Family} (t : Node f) : Holds Q ⟨f, t⟩ := by
      cases t with
      | node k fields mark => exact h.node k fields mark (Tree.fold_related h.node fields)
    exact hall t
  exact hholds t rfl segments hsegments

end Builds

end Render.FString

namespace Node

/-- An f-string is drafted from its segments. -/
theorem exists_segments {t : Node .expr} (h : t.kind.isFString = true) :
    ∃ x : Draft (List Segment),
      (∀ segments, x.outcome = .ok segments → (view t).segments? = some segments) ∧
      (∀ e, Replaces t e → x.Carries e) ∧
      ∃ k, t.draft = Draft.demand k >>= fun _ => x >>= joined k := by
  have hcarries (e : Node .expr) (he : Replaces t e) := he.carries
  obtain ⟨values, mark, ht⟩ | ⟨value, conversion, format, mark, ht⟩ := t.exists_fString h
  · cases ht
    rw [draft, view_fString]
    rw [view_fString] at hcarries
    exact ⟨parts _, fun _ => segments?_eq_some, hcarries, .joinedStr, rfl⟩
  · cases ht
    rw [draft, view_replacement]
    rw [view_replacement] at hcarries
    exact ⟨field _ _ _, fun _ => segments?_eq_some, hcarries, .formattedValue, rfl⟩

end Node

/-! ### What the code contains -/

namespace Render.FString

/-- A text that cannot be part of the frame. -/
def isAlien (needle : List Char) : Bool :=
  !needle.isEmpty && needle.all fun c => !frame.contains c

section Alien

variable {needle : List Char} (h : isAlien needle = true)

include h

theorem eq_nil_of_isAlien {cs part : List Char} (hcs : cs ⊆ frame)
    (hpart : part ⊆ needle) (hin : part ⊆ cs) : part = [] := by
  cases part with
  | nil => rfl
  | cons c _ =>
    have hall := (Bool.and_eq_true_iff.mp h).2
    have hc := List.all_eq_true.mp hall c (hpart List.mem_cons_self)
    simp [hcs (hin List.mem_cons_self)] at hc

theorem not_infix_of_isAlien {cs : List Char} (hcs : cs ⊆ frame) : ¬ needle <:+: cs := by
  intro hin
  have hnil := eq_nil_of_isAlien h hcs (List.Subset.refl _) hin.subset
  rw [hnil] at h
  cases h

theorem infix_of_append_right {cs after : List Char} (hafter : after ⊆ frame)
    (hin : needle <:+: cs ++ after) : needle <:+: cs := by
  obtain hcs | hin | ⟨left, right, rfl, hleft, hright⟩ := List.infix_append_iff.mp hin
  · exact hcs
  · exact absurd hin (not_infix_of_isAlien h hafter)
  · have hnil : right = [] :=
      eq_nil_of_isAlien h hafter (List.subset_append_right ..) hright.subset
    rw [hnil, List.append_nil]
    exact hleft.isInfix

theorem infix_of_append_left {before cs : List Char} (hbefore : before ⊆ frame)
    (hin : needle <:+: before ++ cs) : needle <:+: cs := by
  obtain hin | hcs | ⟨left, right, rfl, hleft, hright⟩ := List.infix_append_iff.mp hin
  · exact absurd hin (not_infix_of_isAlien h hbefore)
  · exact hcs
  · have hnil : left = [] :=
      eq_nil_of_isAlien h hbefore (List.subset_append_left ..) hleft.subset
    rw [hnil, List.nil_append]
    exact hright.isInfix

theorem infix_of_openField {text : String} {conversion : Option Conversion}
    (hin : needle <:+: (openField text ++ conversionText conversion).toList) :
    needle <:+: text.toList := by
  rw [String.toList_append] at hin
  have hconversion : (conversionText conversion).toList ⊆ frame := by
    cases conversion with
    | none => decide
    | some c => cases c <;> decide
  have hopened := infix_of_append_right h hconversion hin
  obtain ⟨before, hbefore, hopen⟩ := exists_toList_openField text
  rw [hopen] at hopened
  exact infix_of_append_left h hbefore hopened

end Alien

/-- Where the code has the needle, the text of a replacement field has it. -/
def Traced (needle : List Char) (t : Node .expr) (segments : List Segment) : Prop :=
  ∀ c ∈ codes segments, needle <:+: c.toList →
    ∃ e text, Node.Replaces t e ∧ e.draft.outcome = .ok text ∧ needle <:+: text.toList

theorem builds_traced {needle : List Char} (h : isAlien needle = true) :
    Builds (Traced needle) where
  ofParts values mark ss hparts c hc hin := by
    -- The code comes from the segments of some part, which is a field.
    suffices h : ∃ u ∈ values, ∃ e text, Node.Replaces u e ∧ e.draft.outcome = .ok text ∧
        needle <:+: text.toList by
      obtain ⟨u, hu, e, text, he, htext⟩ := h
      exact ⟨e, text, .part values mark hu he, htext⟩
    induction hparts with
    | nil => cases hc
    | @cons u own _ _ hu _ ih =>
      rw [List.flatten_cons, codes_append, List.mem_append] at hc
      rcases hc with hc | hc
      · obtain ⟨s, rfl⟩ | htraced := hu
        · cases hc
        · exact ⟨u, List.mem_cons_self, htraced c hc hin⟩
      · obtain ⟨u, hu, hfound⟩ := ih hc
        exact ⟨u, .tail _ hu, hfound⟩
  ofField value conversion mark text htext c hc hin := by
    rcases List.mem_pair.mp hc with rfl | rfl
    · exact ⟨value, text, .value .., htext, infix_of_openField h hin⟩
    · exact absurd hin (not_infix_of_isAlien h (by decide))
  ofSpec value conversion u mark text segments htext hu c hc hin := by
    have hcodes : c = openField text ++ conversionText conversion ∨ c = ":" ∨
        c ∈ codes segments ∨ c = "\x7d" := by
      change c ∈ _ :: ":" :: codes (segments ++ _) at hc
      rw [codes_append] at hc
      simpa [codes] using hc
    rcases hcodes with rfl | rfl | hc | rfl
    · exact ⟨value, text, .value .., htext, infix_of_openField h hin⟩
    · exact absurd hin (not_infix_of_isAlien h (by decide))
    · obtain ⟨e, text, he, htext⟩ := hu c hc hin
      exact ⟨e, text, .format value conversion mark he, htext⟩
    · exact absurd hin (not_infix_of_isAlien h (by decide))

end Render.FString

/-- The texts of the replacement fields stand in the code. -/
theorem Node.Replaces.occurs {t e : Node .expr} (h : Replaces t e) {segments : List Segment}
    (hsegments : (view t).segments? = some segments) :
    ∃ text, e.draft.outcome = .ok text ∧ ∃ c ∈ codes segments, text.toList <:+: c.toList := by
  have hcarries := h.carries
  have hown : ExprView.segments? (view t) = some segments := hsegments
  unfold ExprView.segments? at hown
  cases hform : (view t).form with
  | field x =>
    rw [hform] at hcarries hown
    exact (hcarries segments (of_segments?_eq_some hown)).2
  | joined x =>
    rw [hform] at hcarries hown
    exact (hcarries segments (of_segments?_eq_some hown)).2
  | plain | integer | string _ | tuple _ =>
    rw [hform] at hcarries
    exact hcarries.elim

theorem Node.render_expr_permissive_iff {e : Node .expr} {text : String} :
    e.render {} = .ok text ↔ e.draft.outcome = .ok text :=
  render_expr_eq_ok_iff.trans (and_iff_left fun need _ => Draft.met_permissive need)

namespace AnyNode

/-- It is an f-string, and this is the text of one of its replacement fields, maybe of a field in
a format spec. -/
def Shows (n : AnyNode) (text : String) : Prop :=
  ∃ t e, n = ⟨.expr, t⟩ ∧ Node.Replaces t e ∧ e.render {} = .ok text

/-- One of the four quotes is left: it is in none of the fields, and if one of them has several
lines it is a long one. -/
def Quotable (n : AnyNode) : Prop :=
  ∃ q ∈ ["'", "\x22", "'''", "\x22\x22\x22"], ∀ text, n.Shows text →
    ¬ q.toList <:+: text.toList ∧ ('\n' ∈ text.toList → q.length = 3)

/-- One of the fields has a backslash. -/
def Slashed (n : AnyNode) : Prop :=
  ∃ text, n.Shows text ∧ '\\' ∈ text.toList

variable {n : AnyNode} {segments : List Segment}

theorem codesContain_iff (h : n.segments? = some segments) {needle : String}
    (hneedle : isAlien needle.toList = true) : codesContain segments needle = true ↔
      ∃ text, n.Shows text ∧ needle.toList <:+: text.toList := by
  obtain ⟨f, t⟩ := n
  cases f with
  | expr =>
    rw [codesContain, List.any_eq_true]
    constructor
    · rintro ⟨c, hc, hcontains⟩
      obtain ⟨e, text, he, htext, hin⟩ :=
        (builds_traced hneedle).of_segments? h c hc ((Text.occursIn_iff _).mp hcontains)
      exact ⟨text, ⟨t, e, rfl, he, Node.render_expr_permissive_iff.mpr htext⟩, hin⟩
    · rintro ⟨text, ⟨_, e, ⟨⟩, he, htext⟩, hin⟩
      obtain ⟨own, hown, c, hc, hoccurs⟩ := he.occurs h
      have hsame : own = text :=
        Except.ok.inj (hown.symm.trans (Node.render_expr_permissive_iff.mp htext))
      exact ⟨c, hc, (Text.occursIn_iff _).mpr (hin.trans (hsame ▸ hoccurs))⟩
  | _ => cases h

theorem codesContain_eq_false_iff (h : n.segments? = some segments) {needle : String}
    (hneedle : isAlien needle.toList = true) : codesContain segments needle = false ↔
      ∀ text, n.Shows text → ¬ needle.toList <:+: text.toList := by
  rw [← Bool.not_eq_true, codesContain_iff h hneedle]
  simp

theorem slashed_iff (h : n.segments? = some segments) :
    n.Slashed ↔ codesContain segments "\\" = true := by
  have hslash (text : String) : "\\".toList <:+: text.toList ↔ '\\' ∈ text.toList :=
    List.singleton_infix_iff _ _
  simp only [codesContain_iff h (by decide : isAlien "\\".toList = true), hslash, Slashed]

/-- A quote is left to an f-string exactly if it is left to its fields. -/
theorem spared_iff (h : n.segments? = some segments) {q : Quote} (hq : q ∈ quotes) :
    (codesContain segments q.text || (!q.triple && codesContain segments "\n")) = false ↔
      ∀ text, n.Shows text →
        ¬ q.text.toList <:+: text.toList ∧ ('\n' ∈ text.toList → q.text.length = 3) := by
  have hquotes : ∀ q ∈ quotes, isAlien q.text.toList = true ∧
      (q.text.length = 3 ↔ q.triple = true) := by decide
  have hline (text : String) : "\n".toList <:+: text.toList ↔ '\n' ∈ text.toList :=
    List.singleton_infix_iff _ _
  rw [Bool.or_eq_false_iff, Bool.and_eq_false_imp, codesContain_eq_false_iff h (hquotes q hq).1,
    codesContain_eq_false_iff h (by decide : isAlien "\n".toList = true)]
  simp only [hline, (hquotes q hq).2]
  cases q.triple with
  | true => simp
  | false => simp [forall_and]

theorem quotable_iff (h : n.segments? = some segments) :
    n.Quotable ↔ isCrowded segments = false := by
  have htexts : ["'", "\x22", "'''", "\x22\x22\x22"] = quotes.map Quote.text := rfl
  rw [Quotable, htexts, isCrowded, List.all_eq_false]
  constructor
  · rintro ⟨_, hmem, hspared⟩
    obtain ⟨q, hq, rfl⟩ := List.mem_map.mp hmem
    exact ⟨q, hq, Bool.not_eq_true _ ▸ (spared_iff h hq).mpr hspared⟩
  · rintro ⟨q, hq, hspared⟩
    exact ⟨q.text, List.mem_map_of_mem hq,
      (spared_iff h hq).mp ((Bool.not_eq_true _).mp hspared)⟩

end AnyNode

end Unparse
