import Unparse.Proofs.Replacements

/-! F-strings close where they should. The quote is chosen by looking at the code of all
replacement fields, also of those in format specs, and only then the text between them is
escaped; the body that comes of it ends at the closing quote and not before. -/
namespace Unparse

open Scanner Render Render.FString

theorem Render.FString.builds_sealed : Builds fun _ segments => Sealed segments where
  ofParts values mark ss hparts := by
    refine Sealed.flatten ?_
    induction hparts with
    | nil => simp
    | cons hpart _ ih =>
      refine List.forall_mem_cons.mpr ⟨?_, ih⟩
      obtain ⟨s, rfl⟩ | hsealed := hpart
      · exact Sealed.literal s
      · exact hsealed
  ofField value conversion mark text _ := Sealed.code rfl (by decide) (by decide) _
  ofSpec value conversion u mark text segments _ hsealed := by
    have hcolon (text : String) : Sealed [.code text, .code ":"] :=
      Sealed.code rfl (by decide) (by decide) text
    have hend : Sealed [.code "\x7d"] := Sealed.alone rfl (by decide) (by decide)
    exact (hcolon _).append (hsealed.append hend)

namespace Render.FString

theorem joined_outcome {segments : List Segment} {q : Quote} (h : quote? segments = some q)
    (k : Kind) :
    (joined k segments).outcome = .ok ("f" ++ q.text ++ body q segments ++ q.text) := by
  unfold joined
  rw [h]
  cases codesContain segments "\\" <;> rfl

theorem of_joined_ok {k : Kind} {segments : List Segment} {text : String}
    (h : (joined k segments).outcome = .ok text) :
    ∃ q, quote? segments = some q ∧ text = "f" ++ q.text ++ body q segments ++ q.text := by
  cases hq : quote? segments with
  | none =>
    have hfails : (joined k segments).outcome = .error ⟨k, .everyQuote⟩ := by
      unfold joined
      rw [hq]
      cases codesContain segments "\\" <;> rfl
    rw [hfails] at h
    cases h
  | some q =>
    rw [joined_outcome hq] at h
    exact ⟨q, rfl, (Except.ok.inj h).symm⟩

/-- The demand for backslashes is made if there is one. -/
theorem backslash_notMem {k : Kind} {segments : List Segment} {d : Dialect}
    (hmet : ∀ need, Entry.demand need ∈ (joined k segments).entries → need.met d = true)
    (hd : d.allowsBackslash = false) {c : String} (hc : c ∈ codes segments) :
    '\\' ∉ c.toList := by
  intro hmem
  have hoccurs : "\\".toList <:+: c.toList := (List.singleton_infix_iff _ _).mpr hmem
  have hcontain : codesContain segments "\\" = true :=
    List.any_eq_true.mpr ⟨c, hc, (Text.occursIn_iff _).mpr hoccurs⟩
  have hallowed := hmet (.backslash k) (demand_mem_joined.mpr ⟨rfl, hcontain⟩)
  exact Bool.false_ne_true (hd.symm.trans hallowed)

end Render.FString

/-- The text of an f-string is a quote, a body and the quote again. A reader of the body stops at
the closing quote and not before; a body in short quotes has no line ends. The expression of every
replacement field has a text of its own, in which the quote does not occur, and no backslash either
if the dialect does not allow it. -/
theorem Node.render_closes {t : Node .expr} (hkind : t.kind.isFString = true) {options : Options}
    {text : String} (h : t.render options = .ok text) :
    ∃ q ∈ ["'", "\x22", "'''", "\x22\x22\x22"], ∃ body : String,
      text = "f" ++ q ++ body ++ q ∧
      upTo q.toList false (body ++ q).toList = some body.toList ∧
      (q.length = 1 → '\n' ∉ body.toList) ∧
      ∀ e, Replaces t e → ∃ code, e.render options = .ok code ∧
        ¬ q.toList <:+: code.toList ∧
        (options.dialect.allowsBackslash = false → '\\' ∉ code.toList) := by
  have hquotes : ∀ q ∈ quotes, q.text ∈ ["'", "\x22", "'''", "\x22\x22\x22"] ∧
      (q.text.length = 1 → q.triple = false) := by decide
  obtain ⟨x, hsegments, hcarries, k, hdraft⟩ := exists_segments hkind
  obtain ⟨houtcome, hmet⟩ := render_expr_eq_ok_iff.mp h
  rw [hdraft] at houtcome hmet
  -- First the kind is demanded, then the segments are gathered, then they are put in quotes.
  obtain ⟨_, _, hrest, hentries⟩ := Draft.of_bind_ok houtcome
  obtain ⟨segments, hx, hjoined, hentries'⟩ := Draft.of_bind_ok hrest
  rw [hentries, hentries'] at hmet
  obtain ⟨q, hq, htext⟩ := of_joined_ok hjoined
  obtain ⟨hmark, hnone, hlines⟩ := of_quote? hq
  have hcodes : ∀ c ∈ codes segments, ¬ q.text.toList <:+: c.toList := fun c hc hoccurs =>
    Bool.false_ne_true ((hnone c hc).symm.trans ((Text.occursIn_iff _).mpr hoccurs))
  obtain ⟨hstyle, hshort⟩ := hquotes q (quote?_mem hq)
  refine ⟨q.text, hstyle, body q segments, htext, ?_, ?_, fun e he => ?_⟩
  · have hsealed := builds_sealed.of_segments? (hsegments segments hx)
    rw [String.toList_append]
    exact (hsealed q hmark hcodes).upTo_append (text_ne_nil q)
  · exact fun hlength => newline_notMem_body (hlines (hshort hlength)) q
  · obtain ⟨hdemands, code, hcode, c, hc, hoccurs⟩ := hcarries e he segments hx
    refine ⟨code, render_expr_eq_ok_iff.mpr ⟨hcode, fun need hneed => ?_⟩, ?_, fun hd hmem => ?_⟩
    · exact hmet need (List.mem_append_right _ (List.mem_append_left _ (hdemands hneed)))
    · exact fun hquote => hcodes c hc (hquote.trans hoccurs)
    · have hjoins (need : Demand) (hneed : Entry.demand need ∈ (joined k segments).entries) :=
        hmet need (List.mem_append_right _ (List.mem_append_right _ hneed))
      exact backslash_notMem hjoins hd hc (hoccurs.subset hmem)

namespace Node

/-- Behind a text with both quotes, a field with a quote in its code and another field in its
format spec. -/
def paddedKey : Node .expr :=
  fString [Expr.str "it's \"\n", replacement (Expr.str "k") (some .repr)
    (some (fString [replacement (Expr.name "w") none none .none] .none)) .none] .none

theorem paddedKey_closes :
    paddedKey.kind.isFString = true ∧
    paddedKey.render ⟨.version ⟨3, 11⟩, 4⟩ = .ok "f\"it's \\\"\\n\x7b'k'!r:\x7bw\x7d\x7d\"" ∧
    paddedKey.Replaces (Expr.name "w") ∧
    ∃ q ∈ ["'", "\x22", "'''", "\x22\x22\x22"], ∃ body : String,
      "f\"it's \\\"\\n\x7b'k'!r:\x7bw\x7d\x7d\"" = "f" ++ q ++ body ++ q ∧
      upTo q.toList false (body ++ q).toList = some body.toList ∧
      (q.length = 1 → '\n' ∉ body.toList) ∧
      ∃ code, (Expr.name "w").render ⟨.version ⟨3, 11⟩, 4⟩ = .ok code ∧
        ¬ q.toList <:+: code.toList ∧ '\\' ∉ code.toList := by
  have hfield : paddedKey.Replaces (Expr.name "w") :=
    .part _ _ (.tail _ List.mem_cons_self)
      (.format _ _ _ (.part _ _ List.mem_cons_self (.value _ _ _ _)))
  obtain ⟨q, hq, body, htext, hcloses, hline, hfields⟩ := render_closes
    (show paddedKey.kind.isFString = true from rfl)
    (show paddedKey.render ⟨.version ⟨3, 11⟩, 4⟩ = .ok _ from rfl)
  obtain ⟨code, hcode, hquote, hslash⟩ := hfields (Expr.name "w") hfield
  exact ⟨rfl, rfl, hfield, q, hq, body, htext, hcloses, hline, code, hcode, hquote, hslash rfl⟩

end Node

end Unparse
