import Unparse.Proofs.Gating

/-! The versions that accept a tree. A kind comes with some version and leaves with a later one
at most once, and the backslash of an f-string never leaves again, so that the versions that
accept a tree are all those between the first and the last of them. -/
namespace Unparse

namespace Version

variable {a b c : Version}

theorem le_iff : a ≤ b ↔ a.major < b.major ∨ a.major = b.major ∧ a.minor ≤ b.minor :=
  Iff.rfl

theorem lt_iff : a < b ↔ a.major < b.major ∨ a.major = b.major ∧ a.minor < b.minor :=
  Iff.rfl

theorem le_trans (hab : a ≤ b) (hbc : b ≤ c) : a ≤ c := by
  rw [le_iff] at *
  omega

theorem lt_of_le_of_lt (hab : a ≤ b) (hbc : b < c) : a < c := by
  rw [le_iff] at hab
  rw [lt_iff] at *
  omega

end Version

/-- What is there in two versions is there in all versions between them. -/
theorem Availability.covers_between {available : Availability} {a b c : Version} (hac : a ≤ c)
    (hcb : c ≤ b) (ha : available.covers a = true) (hb : available.covers b = true) :
    available.covers c = true := by
  simp only [covers, Bool.and_eq_true, decide_eq_true_eq] at ha hb ⊢
  refine ⟨Version.le_trans ha.1 hac, ?_⟩
  cases hlast : available.until? with
  | none => rfl
  | some last =>
    have hbefore : b < last := by simpa [hlast] using hb.2
    simpa using Version.lt_of_le_of_lt hcb hbefore

theorem Dialect.allowsBackslash_mono {a c : Version} (hac : a ≤ c)
    (ha : (version a).allowsBackslash = true) : (version c).allowsBackslash = true := by
  simp only [allowsBackslash, decide_eq_true_eq] at ha ⊢
  exact Version.le_trans ha hac

theorem Demand.met_between {need : Demand} {a b c : Version} (hac : a ≤ c) (hcb : c ≤ b)
    (ha : need.met (.version a) = true) (hb : need.met (.version b) = true) :
    need.met (.version c) = true := by
  cases need with
  | kind k => exact Availability.covers_between hac hcb ha hb
  | backslash k => exact Dialect.allowsBackslash_mono hac ha

theorem Draft.result_between {A : Type} {x : Draft A} {a b c : Version} {first last : A}
    (hac : a ≤ c) (hcb : c ≤ b) (ha : x.result (.version a) = .ok first)
    (hb : x.result (.version b) = .ok last) : x.result (.version c) = .ok first := by
  obtain ⟨houtcome, hmetFirst⟩ := result_eq_ok_iff.mp ha
  obtain ⟨-, hmetLast⟩ := result_eq_ok_iff.mp hb
  refine result_eq_ok_iff.mpr ⟨houtcome, ?_⟩
  intro need hneed
  exact Demand.met_between hac hcb (hmetFirst need hneed) (hmetLast need hneed)

namespace Node

/-- What two versions accept has the same text in both, and in every version between them. -/
theorem render_between {f : Family} (t : Node f) (width : Nat) {a b c : Version}
    {first last : String} (hac : a ≤ c) (hcb : c ≤ b)
    (ha : t.render ⟨.version a, width⟩ = .ok first)
    (hb : t.render ⟨.version b, width⟩ = .ok last) :
    first = last ∧ t.render ⟨.version c, width⟩ = .ok first := by
  obtain ⟨fragment, hresult, -⟩ := of_render_eq_ok ha
  obtain ⟨other, hother, -⟩ := of_render_eq_ok hb
  have hsame := render_eq_of_result_ok ha hother
  rw [hb] at hsame
  refine ⟨(Except.ok.inj hsame).symm, ?_⟩
  exact render_eq_of_result_ok ha (Draft.result_between hac hcb hresult hother)

/-- A set of names bound by a statement that came with version 2.5 and left with version 3.3;
sets came with version 2.7. -/
def boundSet : Node .stmt :=
  .of .legacyWith (.of .set ([Expr.name "x"], ()), some (Expr.name "y"), [Stmt.pass], ())

theorem boundSet_between :
    ((⟨2, 7⟩ : Version) ≤ ⟨3, 0⟩ ∧ (⟨3, 0⟩ : Version) ≤ ⟨3, 2⟩) ∧
    (boundSet.render ⟨.version ⟨2, 7⟩, 4⟩ = .ok "with \x7bx\x7d as y:\n    pass\n" ∧
      boundSet.render ⟨.version ⟨3, 2⟩, 4⟩ = .ok "with \x7bx\x7d as y:\n    pass\n") ∧
    boundSet.render ⟨.version ⟨3, 0⟩, 4⟩ = .ok "with \x7bx\x7d as y:\n    pass\n" := by
  have hac : (⟨2, 7⟩ : Version) ≤ ⟨3, 0⟩ := by decide
  have hcb : (⟨3, 0⟩ : Version) ≤ ⟨3, 2⟩ := by decide
  exact ⟨⟨hac, hcb⟩, ⟨rfl, rfl⟩, (render_between boundSet 4 hac hcb rfl rfl).2⟩

end Node

end Unparse
